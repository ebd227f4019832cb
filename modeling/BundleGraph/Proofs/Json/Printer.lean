import BundleGraph.Proofs.Json.Spelling
import BundleGraph.Proofs.Number.Shortest
import BundleGraph.Proofs.Text.Ascii
import Mathlib.Logic.Relation

/-!
# Written JSON

A document that is written holds printable ASCII and line feeds only, whatever the strings in it
hold: it can be printed on any console.
-/
namespace BundleGraph.Json

open Text

variable {l : Layout}

theorem ascii_unitEscape {n : Nat} (hn : n < 0x10000) : Ascii (unitEscape n) := by
  have hdigit : ∀ d < 16, 0x20 ≤ d.digitChar.toNat ∧ d.digitChar.toNat < 0x7F := by decide
  rw [unitEscape, hex_four hn, ascii_append]
  refine ⟨by decide, fun c hc => ?_⟩
  obtain ⟨d, hd, rfl⟩ := List.mem_map.1 hc
  exact .inr (hdigit d (hexDigits_lt hn d hd))

theorem ascii_of_simpleEscape? {x c : CodePoint} (h : simpleEscape? x = some c) : Ascii [x] := by
  unfold simpleEscape? at h
  split_ifs at h with h1 h2 h3 h4 h5 h6 h7 h8
  · exact h1 ▸ by decide
  · exact h2 ▸ by decide
  · exact h3 ▸ by decide
  · exact h4 ▸ by decide
  · exact h5 ▸ by decide
  · exact h6 ▸ by decide
  · exact h7 ▸ by decide
  · exact h8 ▸ by decide

theorem ascii_of_spelling {c : CodePoint} {s : Text} (h : Spelling c s) : Ascii s := by
  have hlt := c.toNat_lt
  cases h with
  | plain _ _ hprintable => exact ascii_cons.2 ⟨.inr hprintable, nofun⟩
  | simple x _ hx => exact ascii_cons.2 ⟨by decide, ascii_of_simpleEscape? hx⟩
  | unit hunit => exact ascii_unitEscape hunit
  | pair hpair =>
    exact ascii_append.2 ⟨ascii_unitEscape (by omega), ascii_unitEscape (by omega)⟩

theorem ascii_printString (t : Text) : Ascii (printString t) := by
  have hbody : Ascii (t.flatMap escaped) := by
    intro c hc
    obtain ⟨d, -, hd⟩ := List.mem_flatMap.1 hc
    exact ascii_of_spelling (spelling_escaped d) c hd
  rw [printString, ascii_append, ascii_cons]
  exact ⟨⟨by decide, hbody⟩, by decide⟩

theorem ascii_printFloat (x : Binary64) : Ascii (printFloat x) := by
  cases x with
  | nan => decide
  | infinite negative => cases negative <;> decide
  | finite negative m e =>
    intro c hc
    obtain ⟨d, rfl, hd⟩ := Binary64.symbol_of_mem_toText hc
    refine .inr ?_
    rcases hd with hdigit | rfl | rfl | rfl | rfl
    · simp only [Char.isDigit, Bool.and_eq_true, decide_eq_true_eq,
        UInt32.le_iff_toNat_le] at hdigit
      exact ⟨le_trans (by decide) hdigit.1, lt_of_le_of_lt hdigit.2 (by decide)⟩
    all_goals decide

theorem ascii_bracketed {opening closing : CodePoint} {items : List Text}
    (hopening : Ascii [opening]) (hclosing : Ascii [closing])
    (hitems : ∀ item ∈ items, Ascii item) :
    Ascii (l.bracketed opening closing items) := by
  have hlineBreak (l : Layout) : Ascii l.lineBreak := by
    cases l with
    | oneLine => exact nofun
    | indented d =>
      refine ascii_cons.2 ⟨by decide, fun c hc => ?_⟩
      rw [List.eq_of_mem_replicate hc]
      decide
  have hseparator (l : Layout) : Ascii l.separator := by
    cases l with
    | oneLine => decide
    | indented d => exact ascii_cons.2 ⟨by decide, hlineBreak _⟩
  unfold Layout.bracketed
  split
  · exact ascii_append.2 ⟨hopening, hclosing⟩
  · have hjoined := ascii_joinWith (hseparator l.deeper) hitems
    exact ascii_append.2 ⟨hopening,
      ascii_append.2 ⟨ascii_append.2 ⟨ascii_append.2 ⟨hlineBreak _, hjoined⟩, hlineBreak _⟩,
        hclosing⟩⟩

mutual

theorem ascii_printWith (l : Layout) : (v : Value) → Ascii (printWith l v)
  | .null => by rw [printWith]; decide
  | .bool b => by
    rw [printWith]
    split <;> decide
  | .int n => by rw [printWith]; exact ascii_ofInt n
  | .float x => by rw [printWith]; exact ascii_printFloat x
  | .string t => by rw [printWith]; exact ascii_printString t
  | .array items => by
    rw [printWith]
    exact ascii_bracketed (by decide) (by decide) (ascii_printItems l.deeper items)
  | .object members => by
    rw [printWith]
    exact ascii_bracketed (by decide) (by decide) (ascii_printMembers l.deeper members)

theorem ascii_printItems (l : Layout) : (items : List Value) → ∀ t ∈ printItems l items, Ascii t
  | [] => by simp [printItems]
  | v :: items => by
    rw [printItems]
    exact List.forall_mem_cons.2 ⟨ascii_printWith l v, ascii_printItems l items⟩

theorem ascii_printMembers (l : Layout) : (members : List (Text × Value)) →
    ∀ t ∈ printMembers l members, Ascii t
  | [] => by simp [printMembers]
  | (k, v) :: members => by
    have hcolon : Ascii ": " := by decide
    rw [printMembers]
    refine List.forall_mem_cons.2 ⟨?_, ascii_printMembers l members⟩
    simpa [Text.concat, ascii_append, hcolon] using ⟨ascii_printString k, ascii_printWith l v⟩

end

theorem wellFormed_print (v : Value) : WellFormed (print v) := (ascii_printWith _ v).wellFormed

theorem infix_bracketed {opening closing : CodePoint} {item : Text} {items : List Text}
    (h : item ∈ items) : item <:+: l.bracketed opening closing items := by
  have hne : ¬items.isEmpty := by
    cases items with
    | nil => simp at h
    | cons first items => simp
  unfold Layout.bracketed
  rw [if_neg hne]
  apply List.infix_cons
  apply List.infix_append_of_infix_left
  apply List.infix_append_of_infix_left
  exact List.infix_append_of_infix_right (infix_joinWith h)

/-- A value that stands in another as an item or as a member. -/
inductive Child : Value → Value → Prop
  | item {v : Value} {items : List Value} (h : v ∈ items) : Child v (.array items)
  | member {k : Text} {v : Value} {members : List (Text × Value)} (h : (k, v) ∈ members) :
      Child v (.object members)

theorem mem_printItems {v : Value} {items : List Value} (h : v ∈ items) :
    printWith l v ∈ printItems l items := by
  induction items with
  | nil => simp at h
  | cons first items ih =>
    rw [printItems]
    rcases List.mem_cons.1 h with rfl | h
    · exact List.mem_cons_self
    · exact List.mem_cons_of_mem _ (ih h)

theorem exists_infix_printMembers {k : Text} {v : Value} {members : List (Text × Value)}
    (h : (k, v) ∈ members) : ∃ part ∈ printMembers l members, printWith l v <:+: part := by
  induction members with
  | nil => simp at h
  | cons first members ih =>
    obtain ⟨k', v'⟩ := first
    rw [printMembers]
    rcases List.mem_cons.1 h with heq | h
    · obtain ⟨rfl, rfl⟩ := Prod.mk.inj heq
      refine ⟨_, List.mem_cons_self, ?_⟩
      exact List.infix_of_mem_flatten (by simp)
    · obtain ⟨part, hpart, hinfix⟩ := ih h
      exact ⟨part, List.mem_cons_of_mem _ hpart, hinfix⟩

theorem Child.infix_printWith {v w : Value} (h : Child v w) :
    printWith l.deeper v <:+: printWith l w := by
  cases h with
  | @item v items h =>
    have harray : printWith l (.array items) = l.bracketed '[' ']' (printItems l.deeper items) := by
      rw [printWith]
    rw [harray]
    exact infix_bracketed (mem_printItems h)
  | @member k v members h =>
    have hobject : printWith l (.object members) =
        l.bracketed '\x7b' '\x7d' (printMembers l.deeper members) := by
      rw [printWith]
    rw [hobject]
    obtain ⟨part, hpart, hinfix⟩ := exists_infix_printMembers (l := l.deeper) h
    exact hinfix.trans (infix_bracketed hpart)

/-- A string is printed wherever it stands in a value. -/
theorem infix_print_of_string {t : Text} {v : Value}
    (h : Relation.ReflTransGen Child (.string t) v) : printString t <:+: printWith l v := by
  induction h generalizing l with
  | refl => rw [printWith]
  | tail _ hchild ih => exact ih.trans hchild.infix_printWith

end BundleGraph.Json
