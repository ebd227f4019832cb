import BundleGraph.Json.Value

/-!
# Reading JSON

A reader of one JSON document. Beyond the standard it knows `NaN`, `Infinity` and `-Infinity`, and
an escape may name a lone surrogate; a repeated key keeps its first place and its last value. Every
reader moves the cursor on, which is why the loops over items and members end. The nesting depth
and the length of integers are limited.
-/
namespace BundleGraph.Json

/-- How deep values may be nested and how many digits an integer may have. The reports of an audit
are within every limit. -/
structure Limits where
  depth : Nat
  digits : Nat
  depth_ge : 4 ≤ depth := by decide
  digits_pos : 0 < digits := by decide

/-- The limits of an interpreter that is not told otherwise. -/
def Limits.standard : Limits where
  depth := 990
  digits := 4300

inductive Problem where
  | expectedValue
  | expectedKey
  | expectedColon
  | expectedComma
  | unterminatedString
  | controlCharacter
  | badEscape
  | badUnicodeEscape
  | extraData
  | byteOrderMark
deriving DecidableEq

/-- Why a document cannot be read: it is malformed at an offset, or a limit is passed. -/
inductive ReadError where
  | malformed (problem : Problem) (offset : Nat)
  | integerTooLong (digits : Nat)
  | tooDeep
deriving DecidableEq

def Problem.message : Problem → Text
  | expectedValue => "Expecting value"
  | expectedKey => "Expecting property name enclosed in double quotes"
  | expectedColon => "Expecting ':' delimiter"
  | expectedComma => "Expecting ',' delimiter"
  | unterminatedString => "Unterminated string starting at"
  | controlCharacter => "Invalid control character at"
  | badEscape => "Invalid \\escape"
  | badUnicodeEscape => "Invalid \\uXXXX escape"
  | extraData => "Extra data"
  | byteOrderMark => "Unexpected UTF-8 BOM (decode using utf-8-sig)"

/-- A problem at an offset of `document`, with the line and column counted from one. -/
def Problem.report (p : Problem) (document : Text) (offset : Nat) : Text :=
  let before := Text.lines (document.take offset)
  Text.concat [p.message, ": line ", Text.ofNat before.length, " column ",
    Text.ofNat ((before.getLastD []).length + 1), " (char ", Text.ofNat offset, ")"]

/-- A place in a document: what is left of it and how much has been read. -/
structure Cursor where
  rest : Text
  offset : Nat

namespace Cursor

def advance (c : Cursor) (n : Nat) : Cursor := ⟨c.rest.drop n, c.offset + n⟩

/-- Space, tabulator, line feed and carriage return may stand between tokens. -/
def isSpace (x : CodePoint) : Bool := x = ' ' ∨ x = '\t' ∨ x = '\n' ∨ x = '\r'

def skipSpace (c : Cursor) : Cursor := c.advance (c.rest.takeWhile isSpace).length

theorem advance_length (c : Cursor) (n : Nat) : (c.advance n).rest.length ≤ c.rest.length := by
  simp [advance]

theorem skipSpace_length (c : Cursor) : c.skipSpace.rest.length ≤ c.rest.length :=
  advance_length c _

end Cursor

/-- What was read at `c` and a cursor behind it. -/
abbrev Read (α : Type) (c : Cursor) : Type := { r : α × Cursor // r.2.rest.length < c.rest.length }

def Read.weaken {α : Type} {c d : Cursor} (h : d.rest.length < c.rest.length) (r : Read α d) :
    Read α c :=
  ⟨r.1, Nat.lt_trans r.2 h⟩

def Cursor.token? (c : Cursor) : Option (Read CodePoint c) :=
  match h : c.skipSpace.rest with
  | [] => none
  | x :: rest =>
    some ⟨(x, ⟨rest, c.skipSpace.offset + 1⟩), by
      have := c.skipSpace_length
      simp only [h, List.length_cons] at this
      exact this⟩

abbrev Reader (α : Type) : Type := (c : Cursor) → Except ReadError (Read α c)

def hexDigit? (x : CodePoint) : Option Nat :=
  let n := x.toNat
  if 0x30 ≤ n ∧ n ≤ 0x39 then some (n - 0x30)
  else if 0x41 ≤ n ∧ n ≤ 0x46 then some (n - 0x37)
  else if 0x61 ≤ n ∧ n ≤ 0x66 then some (n - 0x57)
  else none

def hexValue? (digits : Text) : Option Nat :=
  (digits.mapM hexDigit?).map (·.foldl (fun n d => n * 16 + d) 0)

/-- The code point of an escape that is one code point long. -/
def simpleEscape? (x : CodePoint) : Option CodePoint :=
  if x = '"' then some '"'
  else if x = '\\' then some '\\'
  else if x = '/' then some '/'
  else if x = 'b' then some '\x08'
  else if x = 'f' then some '\x0c'
  else if x = 'n' then some '\n'
  else if x = 'r' then some '\r'
  else if x = 't' then some '\t'
  else none

def joinSurrogates? (high low : Nat) : Option Nat :=
  if 0xD800 ≤ high ∧ high < 0xDC00 ∧ 0xDC00 ≤ low ∧ low < 0xE000 then
    some (0x10000 + (high - 0xD800) * 0x400 + (low - 0xDC00))
  else none

/-- The low half of a pair, if the text after a high half spells one and goes on behind it. -/
def lowHalf? (high : Nat) (after : Text) : Except Unit (Option Nat) :=
  if 0xD800 ≤ high ∧ high < 0xDC00 ∧ 6 < after.length ∧ after.take 2 = Text.ofString "\\u" then
    match hexValue? ((after.drop 2).take 4) with
    | none => .error ()
    | some low => .ok (some low)
  else .ok none

/-- The code point of the escape that follows a backslash at `offset`, and how many code points
of `after` spell it. -/
def readEscape (start offset : Nat) (after : Text) : Except ReadError (CodePoint × Nat) :=
  match after with
  | [] => .error (.malformed .unterminatedString start)
  | x :: digits =>
    if x = 'u' then
      let bad := Except.error (.malformed .badUnicodeEscape (offset + 1))
      if digits.length ≤ 4 then bad
      else match hexValue? (digits.take 4) with
        | none => bad
        | some n =>
          match lowHalf? n (digits.drop 4) with
          | .error () => .error (.malformed .badUnicodeEscape (offset + 7))
          | .ok low =>
            match low.bind (joinSurrogates? n) with
            | some joined => .ok (.ofNat joined, 11)
            | none => .ok (.ofNat n, 5)
    else match simpleEscape? x with
      | some y => .ok (y, 1)
      | none => .error (.malformed .badEscape offset)

/-- The rest of a string whose opening quote is at `start`; `acc` holds what was read, reversed. -/
def readString (start : Nat) (acc : Text) (c : Cursor) : Except ReadError (Read Text c) :=
  match h : c.rest with
  | [] => .error (.malformed .unterminatedString start)
  | x :: rest =>
    have next (n : Nat) : (c.advance (n + 1)).rest.length < c.rest.length := by
      simp only [Cursor.advance, h, List.drop_succ_cons, List.length_drop, List.length_cons]
      omega
    if x = '"' then .ok ⟨(acc.reverse, c.advance 1), next 0⟩
    else if x = '\\' then
      match readEscape start c.offset rest with
      | .error e => .error e
      | .ok (y, n) => (readString start (y :: acc) (c.advance (n + 1))).map (Read.weaken (next n))
    else if x.toNat < 0x20 then .error (.malformed .controlCharacter c.offset)
    else (readString start (x :: acc) (c.advance 1)).map (Read.weaken (next 0))
termination_by c.rest.length
decreasing_by all_goals apply next

def digitsValue (digits : Text) : Nat := digits.foldl (fun n d => n * 10 + (d.toNat - 0x30)) 0

/-- The parts of a numeral: the digits before the point, after it, and of the exponent. -/
structure Numeral where
  negative : Bool
  whole : Text
  fraction : Text
  exponent : Option Int

/-- The value of a numeral. Without a point and an exponent it is an integer. -/
def Numeral.value (limits : Limits) (n : Numeral) : Except ReadError Value :=
  if n.fraction.isEmpty ∧ n.exponent.isNone then
    if limits.digits < n.whole.length then .error (.integerTooLong n.whole.length)
    else
      let magnitude : Int := digitsValue n.whole
      .ok (.int (if n.negative then -magnitude else magnitude))
  else
    .ok (.float (.ofDecimal n.negative (digitsValue (n.whole ++ n.fraction))
      (n.exponent.getD 0 - n.fraction.length)))

/-- The digits after a point, if a point and a digit are there. -/
def fractionDigits (t : Text) : Text :=
  match t with
  | x :: rest => if x = '.' then rest.takeWhile CodePoint.isDigit else []
  | [] => []

/-- The exponent at the start of `t`, with the number of code points that spell it. -/
def exponentPart (t : Text) : Option (Int × Nat) :=
  match t with
  | e :: rest =>
    if e = 'e' ∨ e = 'E' then
      let sign := match rest with
        | s :: _ => if s = '-' ∨ s = '+' then [s] else []
        | [] => []
      let digits := (rest.drop sign.length).takeWhile CodePoint.isDigit
      let magnitude : Int := digitsValue digits
      if digits.isEmpty then none
      else some (if sign = [.scalar '-'] then -magnitude else magnitude,
        1 + sign.length + digits.length)
    else none
  | [] => none

def numeral? (t : Text) : Option (Numeral × Nat) :=
  let negative : Bool := t.take 1 = [.scalar '-']
  let sign := if negative then 1 else 0
  let whole := match (t.drop sign).takeWhile CodePoint.isDigit with
    | [] => []
    | d :: ds => if d = '0' then [d] else d :: ds
  if whole.isEmpty then none
  else
    let body := t.drop (sign + whole.length)
    let fraction := fractionDigits body
    let pointed := if fraction.isEmpty then 0 else fraction.length + 1
    let power := exponentPart (body.drop pointed)
    some (⟨negative, whole, fraction, power.map Prod.fst⟩,
      sign + whole.length + pointed + (power.map Prod.snd).getD 0)

def words : List (Text × Value) :=
  [("null", .null), ("true", .bool true), ("false", .bool false), ("NaN", .float .nan),
    ("Infinity", .float (.infinite false)), ("-Infinity", .float (.infinite true))]

def readAtom (limits : Limits) (offset : Nat) (t : Text) : Except ReadError (Value × Nat) :=
  match words.find? fun w => w.1.isPrefixOf t with
  | some (word, v) => .ok (v, word.length)
  | none =>
    match numeral? t with
    | some (n, length) => (n.value limits).map (·, length)
    | none => .error (.malformed .expectedValue offset)

/-- The items of an array from the first or next one on, up to the closing bracket. -/
def readItems (item : Reader Value) (acc : List Value) (c : Cursor) :
    Except ReadError (Read Value c) :=
  match item c with
  | .error e => .error e
  | .ok ⟨(v, after), progress⟩ =>
    match after.token? with
    | none => .error (.malformed .expectedComma after.skipSpace.offset)
    | some ⟨(x, next), step⟩ =>
      have nearer : next.skipSpace.rest.length < c.rest.length :=
        Nat.lt_of_le_of_lt next.skipSpace_length (Nat.lt_trans step progress)
      if x = ']' then .ok ⟨(.array (v :: acc).reverse, next), Nat.lt_trans step progress⟩
      else if x = ',' then (readItems item (v :: acc) next.skipSpace).map (Read.weaken nearer)
      else .error (.malformed .expectedComma after.skipSpace.offset)
termination_by c.rest.length

def readKey : Reader Text := fun c =>
  match h : c.rest with
  | [] => .error (.malformed .expectedKey c.offset)
  | q :: rest =>
    have begun : rest.length < c.rest.length := by simp [h]
    if q = '"' then
      match readString c.offset [] ⟨rest, c.offset + 1⟩ with
      | .error e => .error e
      | .ok ⟨(key, after), progress⟩ =>
        match after.token? with
        | none => .error (.malformed .expectedColon after.skipSpace.offset)
        | some ⟨(x, next), step⟩ =>
          if x = ':' then
            .ok ⟨(key, next.skipSpace), Nat.lt_of_le_of_lt next.skipSpace_length
              (Nat.lt_trans step (Nat.lt_trans progress begun))⟩
          else .error (.malformed .expectedColon after.skipSpace.offset)
    else .error (.malformed .expectedKey c.offset)

/-- The members of an object from the first or next one on, up to the closing brace. -/
def readMembers (item : Reader Value) (acc : List (Text × Value)) (c : Cursor) :
    Except ReadError (Read Value c) :=
  match readKey c with
  | .error e => .error e
  | .ok ⟨(key, start), begun⟩ =>
    match item start with
    | .error e => .error e
    | .ok ⟨(v, after), progress⟩ =>
      match after.token? with
      | none => .error (.malformed .expectedComma after.skipSpace.offset)
      | some ⟨(x, next), step⟩ =>
        have near : next.rest.length < c.rest.length :=
          Nat.lt_trans step (Nat.lt_trans progress begun)
        have nearer : next.skipSpace.rest.length < c.rest.length :=
          Nat.lt_of_le_of_lt next.skipSpace_length near
        let members := Assoc.insert key v acc
        if x = '\x7d' then .ok ⟨(.object members, next), near⟩
        else if x = ',' then (readMembers item members next.skipSpace).map (Read.weaken nearer)
        else .error (.malformed .expectedComma after.skipSpace.offset)
termination_by c.rest.length

/-- A bracketed value: `empty` if `close` follows at once, otherwise what `more` reads. -/
def readBracketed (close : CodePoint) (empty : Value) (more : Reader Value) : Reader Value :=
  fun c =>
    match h : c.rest with
    | [] => .error (.malformed .expectedValue c.offset)
    | _ :: rest =>
      let inside := (Cursor.mk rest (c.offset + 1)).skipSpace
      have shorter : inside.rest.length < c.rest.length :=
        Nat.lt_of_le_of_lt (Cursor.skipSpace_length _) (by simp [h])
      if inside.rest.take 1 = [close] then
        .ok ⟨(empty, inside.advance 1), Nat.lt_of_le_of_lt (inside.advance_length 1) shorter⟩
      else (more inside).map (Read.weaken shorter)

def readPlain (limits : Limits) : Reader Value := fun c =>
  match readAtom limits c.offset c.rest with
  | .error e => .error e
  | .ok (v, length) =>
    if h : 0 < length ∧ 0 < c.rest.length then
      .ok ⟨(v, c.advance length), by simp only [Cursor.advance, List.length_drop]; omega⟩
    else .error (.malformed .expectedValue c.offset)

/-- A value whose items and members are read by `item`; without it no value may be nested here. -/
def readOne (limits : Limits) (item : Option (Reader Value)) : Reader Value := fun c =>
  match h : c.rest with
  | [] => .error (.malformed .expectedValue c.offset)
  | x :: rest =>
    if x = '"' then
      (readString c.offset [] ⟨rest, c.offset + 1⟩).map fun r =>
        ⟨(.string r.1.1, r.1.2), Nat.lt_trans r.2 (by simp [h])⟩
    else if x = '[' ∨ x = '\x7b' then
      match item with
      | none => .error .tooDeep
      | some item =>
        if x = '[' then readBracketed ']' (.array []) (readItems item []) c
        else readBracketed '\x7d' (.object []) (readMembers item []) c
    else readPlain limits c

/-- A value that is nested at most `depth` deep. -/
def readValue (limits : Limits) : (depth : Nat) → Reader Value
  | 0 => readOne limits none
  | depth + 1 => readOne limits (some (readValue limits depth))

def read (limits : Limits) (document : Text) : Except ReadError Value :=
  if document.take 1 = [.scalar '\uFEFF'] then .error (.malformed .byteOrderMark 0)
  else
    match readValue limits limits.depth (Cursor.mk document 0).skipSpace with
    | .error e => .error e
    | .ok ⟨(v, after), _⟩ =>
      if after.skipSpace.rest.isEmpty then .ok v
      else .error (.malformed .extraData after.skipSpace.offset)

end BundleGraph.Json
