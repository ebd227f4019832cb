import BundleGraph.Text.Quoted

/-!
# UTF-8

Decoding of byte sequences. The first malformed sequence stops it; the defect names the bytes that
could still begin a character and why the next one cannot follow them.
-/
namespace BundleGraph.Utf8

inductive Reason where
  | invalidStart
  | invalidContinuation
  | unexpectedEnd
deriving DecidableEq

/-- The first malformed sequence: the offset of its lead byte, that byte, and how many bytes of it
are well formed. -/
structure Defect where
  offset : Nat
  lead : UInt8
  length : Nat
  reason : Reason
deriving DecidableEq

def Reason.message : Reason → Text
  | invalidStart => "invalid start byte"
  | invalidContinuation => "invalid continuation byte"
  | unexpectedEnd => "unexpected end of data"

/-- The report of a defect, which shows the byte if there is only one. -/
def Defect.message (d : Defect) : Text :=
  if d.length = 1 then
    Text.concat ["'utf-8' codec can't decode byte 0x", Text.hex 2 d.lead.toNat, " in position ",
      Text.ofNat d.offset, ": ", d.reason.message]
  else
    Text.concat ["'utf-8' codec can't decode bytes in position ", Text.ofNat d.offset, "-",
      Text.ofNat (d.offset + d.length - 1), ": ", d.reason.message]

/-- The number of continuation bytes after a lead byte, and the range of the first of them. -/
def shape? (lead : UInt8) : Option (Nat × UInt8 × UInt8) :=
  if lead < 0x80 then some (0, 0x80, 0xBF)
  else if lead < 0xC2 then none
  else if lead < 0xE0 then some (1, 0x80, 0xBF)
  else if lead = 0xE0 then some (2, 0xA0, 0xBF)
  else if lead = 0xED then some (2, 0x80, 0x9F)
  else if lead < 0xF0 then some (2, 0x80, 0xBF)
  else if lead = 0xF0 then some (3, 0x90, 0xBF)
  else if lead < 0xF4 then some (3, 0x80, 0xBF)
  else if lead = 0xF4 then some (3, 0x80, 0x8F)
  else none

/-- The bits that a lead byte with `n` continuation bytes contributes. -/
def leadBits (n : Nat) (lead : UInt8) : Nat :=
  if n = 0 then lead.toNat else lead.toNat % Nat.pow 2 (6 - n)

/-- The continuation bytes that were found: all `n` with the bits they add up to, or fewer. -/
def continuation (low high : UInt8) : (n : Nat) → (bits found : Nat) → List UInt8 →
    Except (Nat × Reason) (Nat × List UInt8)
  | 0, bits, _, rest => .ok (bits, rest)
  | _ + 1, _, found, [] => .error (found, .unexpectedEnd)
  | n + 1, bits, found, b :: rest =>
    if low ≤ b ∧ b ≤ high then
      continuation 0x80 0xBF n (bits * 64 + b.toNat % 64) (found + 1) rest
    else .error (found, .invalidContinuation)

theorem continuation_length {low high : UInt8} {n bits found : Nat} {bytes : List UInt8}
    {r : Nat × List UInt8} (h : continuation low high n bits found bytes = .ok r) :
    r.2.length ≤ bytes.length := by
  induction n generalizing low high bits found bytes with
  | zero => cases h; exact Nat.le_refl _
  | succ n ih =>
    cases bytes with
    | nil => simp [continuation] at h
    | cons b rest =>
      rw [continuation] at h
      split at h
      · exact Nat.le_succ_of_le (ih h)
      · simp at h

/-- The text of `bytes`, which stand at `offset` in the whole. -/
def decodeFrom (offset : Nat) (bytes : List UInt8) : Except Defect Text :=
  match bytes with
  | [] => .ok []
  | lead :: rest =>
    match shape? lead with
    | none => .error ⟨offset, lead, 1, .invalidStart⟩
    | some (n, low, high) =>
      match h : continuation low high n (leadBits n lead) 1 rest with
      | .error (found, reason) => .error ⟨offset, lead, found, reason⟩
      | .ok (bits, rest') => do
        let tail ← decodeFrom (offset + n + 1) rest'
        return CodePoint.ofNat bits :: tail
termination_by bytes.length
decreasing_by exact Nat.lt_succ_of_le (continuation_length h)

def decode (bytes : List UInt8) : Except Defect Text := decodeFrom 0 bytes

/-- The bytes of a code point. A lone surrogate has none of its own and is written as the
replacement character. -/
def encodePoint (c : CodePoint) : List UInt8 :=
  let n := if c.isSurrogate then 0xFFFD else c.toNat
  let tail (k : Nat) : UInt8 := .ofNat (0x80 + n / Nat.pow 64 k % 64)
  if n < 0x80 then [.ofNat n]
  else if n < 0x800 then [.ofNat (0xC0 + n / 64), tail 0]
  else if n < 0x10000 then [.ofNat (0xE0 + n / 4096), tail 1, tail 0]
  else [.ofNat (0xF0 + n / 262144), tail 2, tail 1, tail 0]

def encode (t : Text) : List UInt8 := t.flatMap encodePoint

end BundleGraph.Utf8
