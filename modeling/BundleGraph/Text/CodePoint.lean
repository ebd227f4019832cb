/-!
# Code points and texts

A text is a list of code points. A code point is a Unicode scalar value or a lone surrogate: an
escape such as `\ud800` in a descriptor names one, and it has to survive until it is printed.
-/
namespace BundleGraph

/-- A scalar value, or the half of a surrogate pair `0xD800 + offset` standing alone. -/
inductive CodePoint where
  | scalar (char : Char)
  | surrogate (offset : Fin 2048)
deriving DecidableEq

abbrev Text := List CodePoint

instance : LawfulBEq Text := List.instLawfulBEq

namespace CodePoint

instance : Coe Char CodePoint := ⟨scalar⟩

/-- The number of a code point, below `0x110000`. -/
def toNat : CodePoint → Nat
  | scalar c => c.toNat
  | surrogate i => 0xD800 + i.val

/-- The code point of a number; the replacement character where there is none. -/
def ofNat (n : Nat) : CodePoint :=
  if h : n.isValidChar then scalar (Char.ofNatAux n h)
  else if h : n - 0xD800 < 2048 ∧ 0xD800 ≤ n then surrogate ⟨n - 0xD800, h.1⟩
  else scalar '\uFFFD'

def isSurrogate : CodePoint → Bool
  | scalar _ => false
  | surrogate _ => true

/-- Whether a code point stands for a byte that is no part of UTF-8 text, as in a name of a file. -/
def isByte : CodePoint → Bool
  | scalar _ => false
  | surrogate i => 0x480 ≤ i.val && i.val ≤ 0x4FF

def inRanges (ranges : List (Nat × Nat)) (c : CodePoint) : Bool :=
  ranges.any fun r => r.1 ≤ c.toNat && c.toNat ≤ r.2

def isDigit (c : CodePoint) : Bool := 0x30 ≤ c.toNat && c.toNat ≤ 0x39

/-- The letters and digits of ASCII and the underscore. -/
def isWord (c : CodePoint) : Bool :=
  c.isDigit || (0x41 ≤ c.toNat && c.toNat ≤ 0x5A) || (0x61 ≤ c.toNat && c.toNat ≤ 0x7A) ||
    c.toNat == 0x5F

/-- The lower-case form of an ASCII letter; any other code point unchanged. -/
def toLower : CodePoint → CodePoint
  | scalar c => scalar c.toLower
  | surrogate i => surrogate i

def toUpper : CodePoint → CodePoint
  | scalar c => scalar c.toUpper
  | surrogate i => surrogate i

def utf8Size (c : CodePoint) : Nat :=
  if c.toNat < 0x80 then 1 else if c.toNat < 0x800 then 2 else if c.toNat < 0x10000 then 3 else 4

/-- The number of bytes of a code point in the name of a file. -/
def nameSize (c : CodePoint) : Nat := if c.isByte then 1 else c.utf8Size

end CodePoint

namespace Text

def ofString (s : String) : Text := s.toList.map CodePoint.scalar

instance : Coe String Text := ⟨ofString⟩

/-- A text as a string, unless it holds a lone surrogate. -/
def toString? (t : Text) : Option String :=
  (t.mapM fun
    | CodePoint.scalar c => some c
    | CodePoint.surrogate _ => none).map String.ofList

def ofNat (n : Nat) : Text := ofString (toString n)

/-- The decimal numeral of an integer, with a minus sign below zero. -/
def ofInt : Int → Text
  | .ofNat n => ofNat n
  | .negSucc n => CodePoint.scalar '-' :: ofNat (n + 1)

def concat (parts : List Text) : Text := parts.flatten

def joinWith (sep : Text) (parts : List Text) : Text := sep.intercalate parts

def splitWhere (separates : CodePoint → Bool) : Text → List Text
  | [] => [[]]
  | c :: rest =>
    if separates c then [] :: splitWhere separates rest
    else match splitWhere separates rest with
      | [] => [[c]]
      | piece :: pieces => (c :: piece) :: pieces

def splitAt (sep : CodePoint) (t : Text) : List Text := t.splitWhere (· = sep)

/-- The lines of a text; a final line feed leaves an empty last line. -/
def lines (t : Text) : List Text := t.splitAt '\n'

def replaceWith (c : CodePoint) (by' : Text) (t : Text) : Text :=
  t.flatMap fun x => if x = c then by' else [x]

/-- Whether a text holds a lone surrogate, so that it has no UTF-8 form. -/
def hasSurrogate (t : Text) : Bool := t.any CodePoint.isSurrogate

def utf8Size (t : Text) : Nat := t.foldr (fun c n => c.utf8Size + n) 0

/-- The number of bytes of a text in the name of a file. -/
def nameSize (t : Text) : Nat := t.foldr (fun c n => c.nameSize + n) 0

/-- The order of texts by the numbers of their code points, first difference first. -/
def le : Text → Text → Bool
  | [], _ => true
  | _ :: _, [] => false
  | a :: as, b :: bs =>
    if a.toNat < b.toNat then true else if b.toNat < a.toNat then false else le as bs

/-- Every word capitalised: a letter after a letter is lowered, any other letter is raised. -/
def titleCase (t : Text) : Text := go false t
where
  go (inWord : Bool) : Text → Text
    | [] => []
    | c :: rest =>
      let isLetter := c.isWord && !c.isDigit && c != '_'
      (if inWord then c.toLower else c.toUpper) :: go isLetter rest

theorem splitWhere_ne_nil (separates : CodePoint → Bool) (t : Text) :
    t.splitWhere separates ≠ [] := by
  cases t with
  | nil => simp [splitWhere]
  | cons c rest =>
    rw [splitWhere]
    split
    · simp
    · split <;> simp

end Text

end BundleGraph
