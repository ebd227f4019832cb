import BundleGraph.Console.Style
import BundleGraph.Console.Terminal

/-!
# Markup

Lines for the console may hold tags in square brackets, which set a style and are not shown. A tag
starts with a lower-case letter, a number sign, a slash or an at sign; a slash closes a style,
which may be described in other words than where it was opened. An odd number of backslashes before
a tag makes it plain text, and every second backslash is dropped. Any other bracket is plain text,
and so is a backslash, but for one before such a bracket. Codes of emoji are drawn in each run of
plain text by itself.
-/
namespace BundleGraph.Markup

open Console (Style Terminal)

/-- A piece of a line: a run of plain text, or a tag that opens or closes a style. A tag may give a
parameter, which belongs to the style but does not tell it from others. -/
inductive Piece where
  | plain (t : Text)
  | opening (style : Text) (parameter? : Option Text)
  | closing (style : Text)
deriving DecidableEq

def startsTag (c : CodePoint) : Bool :=
  (0x61 ≤ c.toNat && c.toNat ≤ 0x7A) || c = '#' || c = '/' || c = '@'

/-- The text up to the next closing bracket, if no opening one stands before it, and the rest
behind the bracket. -/
def bracketed? : Text → Option (Text × Text)
  | [] => none
  | c :: rest =>
    if c = ']' then some ([], rest)
    else if c = '[' then none
    else (bracketed? rest).map fun (inside, after) => (c :: inside, after)

/-- The inside of a tag whose opening bracket has been read, and the rest behind the tag. -/
def tag? : Text → Option (Text × Text)
  | [] => none
  | c :: rest => if startsTag c then bracketed? (c :: rest) else none

theorem bracketed?_length {t inside after : Text} (h : bracketed? t = some (inside, after)) :
    after.length < t.length := by
  induction t generalizing inside with
  | nil => simp [bracketed?] at h
  | cons c rest ih =>
    rw [bracketed?] at h
    split at h
    · simp_all
    · split at h
      · simp at h
      · obtain ⟨⟨inside', after'⟩, h', heq⟩ := Option.map_eq_some_iff.1 h
        simp only [Prod.mk.injEq] at heq
        obtain ⟨-, rfl⟩ := heq
        exact Nat.lt_succ_of_lt (ih h')

theorem tag?_length {t inside after : Text} (h : tag? t = some (inside, after)) :
    after.length < t.length := by
  cases t with
  | nil => simp [tag?] at h
  | cons c rest =>
    rw [tag?] at h
    split at h
    · exact bracketed?_length h
    · simp at h

/-- The style that a tag opens or closes, with what stands behind an equals sign. -/
def Piece.ofTag (inside : Text) : Piece :=
  let style := inside.takeWhile (· ≠ CodePoint.scalar '=')
  let parameter? := (inside.drop style.length).tail?
  match style with
  | [] => .opening [] parameter?
  | c :: rest => if c = '/' then .closing (Text.trim rest) else .opening style parameter?

def backslashes (n : Nat) : Text := List.replicate n '\\'

/-- The pieces of a line. Before it stands a run of plain text, and then `n` backslashes whose
meaning depends on the line. -/
def pieces (run : Text) (n : Nat) : Text → List Piece
  | [] => [.plain (run ++ backslashes n)]
  | c :: rest =>
    if c = '\\' then pieces run (n + 1) rest
    else if c = '[' then
      match _h : tag? rest with
      | some (inside, after) =>
        let piece : Piece :=
          if n % 2 = 1 then .plain (Text.concat ["[", inside, "]"]) else .ofTag inside
        .plain run :: .plain (backslashes (n / 2)) :: piece :: pieces [] 0 after
      | none => pieces (run ++ (backslashes (n - 1) ++ [c])) 0 rest
    else pieces (run ++ (backslashes n ++ [c])) 0 rest
termination_by t => t.length
decreasing_by
  · simp
  · exact Nat.lt_succ_of_lt (tag?_length _h)
  · simp
  · simp

/-- A style that has been opened: its normal form and the parameter of its tag. -/
structure OpenStyle where
  style : Text
  parameter? : Option Text
deriving DecidableEq

/-- The fault of closing a handler, which is a style that starts with an at sign: its parameter, if
it has any, is read then. -/
def OpenStyle.fault? (c : Terminal) (s : OpenStyle) : Option Fault :=
  match s.parameter? with
  | none => none
  | some parameter =>
    if s.style.head? = some (.scalar '@') && !parameter.isEmpty && !c.readsHandler parameter then
      some (.unreadableHandler parameter)
    else none

/-- The style that is closed and the others that are open, innermost first: the innermost one of the
same normal form, or the innermost one of all where no style is named. -/
def closed (c : Terminal) (style : Text) (opened : List OpenStyle) :
    Except Fault (OpenStyle × List OpenStyle) :=
  match style, opened with
  | [], [] => .error (.unmatchedTag [])
  | [], s :: opened' => .ok (s, opened')
  | _, _ => (Style.normalForm c.numberDigits style).bind fun normal =>
    match opened.find? fun s => s.style = normal with
    | some s => .ok (s, opened.erase s)
    | none => .error (.unmatchedTag style)

def close (c : Terminal) (style : Text) (opened : List OpenStyle) :
    Except Fault (List OpenStyle) :=
  (closed c style opened).bind fun (s, opened') =>
    match s.fault? c with
    | none => .ok opened'
    | some f => .error f

/-- The text that pieces show behind open styles. -/
def shown (c : Terminal) (opened : List OpenStyle) : List Piece → Except Fault Text
  | [] => .ok []
  | .plain t :: rest => (shown c opened rest).map (c.emoji.draw t ++ ·)
  | .opening style parameter? :: rest =>
    (Style.normalForm c.numberDigits style).bind fun normal =>
      shown c (⟨normal, parameter?⟩ :: opened) rest
  | .closing style :: rest => (close c style opened).bind fun opened' => shown c opened' rest

def read (c : Terminal) (line : Text) : Except Fault Text := shown c [] (pieces [] 0 line)

/-- The fault of using the style of a piece together with its parameter. A style without a parameter
is known to be one when its tag is read, and a handler is none. -/
def Piece.fault? (c : Terminal) : Piece → Option Fault
  | .opening style (some parameter) =>
    match Style.normalForm c.numberDigits style with
    | .error f => some f
    | .ok normal =>
      match Style.ofText c.numberDigits (Text.concat [normal, " ", parameter]) with
      | .ok _ => none
      | .error d => d.fault?
  | _ => none

/-- The first fault of using a style of a line. -/
def strain? (c : Terminal) (line : Text) : Option Fault :=
  (pieces [] 0 line).zipIdx.findSome? fun (piece, tag) =>
    if c.usesStyle line tag then piece.fault? c else none

/-- The text that a line shows, if its styles can be used. -/
def render (c : Terminal) (line : Text) : Except Fault Text :=
  (read c line).bind fun t =>
    match strain? c line with
    | none => .ok t
    | some f => .error f

end BundleGraph.Markup
