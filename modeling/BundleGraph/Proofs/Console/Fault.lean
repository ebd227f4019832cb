import BundleGraph.Console.Output
import BundleGraph.Proofs.Console.Table

/-!
# Faults of printing

Only four faults come out of printing: a tag that does not match, a handler that cannot be read, a
number in a style that cannot be read, and a text that the terminal cannot write.
-/
namespace BundleGraph

inductive Fault.OfPrinting : Fault → Prop
  | unmatchedTag (name : Text) : OfPrinting (.unmatchedTag name)
  | unreadableHandler (parameter : Text) : OfPrinting (.unreadableHandler parameter)
  | unreadableNumber (digits : Text) : OfPrinting (.unreadableNumber digits)
  | unencodable (text : Text) (offset : Nat) : OfPrinting (.unencodable text offset)

namespace Console

open Fault (OfPrinting)

section Except

variable {α β ε : Type} {x : Except ε α} {e : ε}

theorem bind_eq_error_iff {g : α → Except ε β} :
    x.bind g = .error e ↔ x = .error e ∨ ∃ a, x = .ok a ∧ g a = .error e := by
  cases x <;> simp [Except.bind]

theorem map_eq_error_iff {g : α → β} : x.map g = .error e ↔ x = .error e := by
  cases x <;> simp [Except.map]

theorem exists_of_mapM_eq_error {g : α → Except ε β} {xs : List α} (h : xs.mapM g = .error e) :
    ∃ x ∈ xs, g x = .error e := by
  induction xs with
  | nil => exact nomatch h
  | cons x xs ih =>
    rw [List.mapM_cons] at h
    rcases bind_eq_error_iff.1 h with h | ⟨y, -, h⟩
    · exact ⟨x, List.mem_cons_self, h⟩
    · rcases bind_eq_error_iff.1 h with h | ⟨ys, -, h⟩
      · obtain ⟨z, hz, hg⟩ := ih h
        exact ⟨z, List.mem_cons_of_mem _ hz, hg⟩
      · exact nomatch h

end Except

variable {c : Terminal} {f : Fault} {t : Text} {b : Block}

theorem ofPrinting_of_styleDefect {d : StyleDefect} (h : d.fault? = some f) : OfPrinting f := by
  cases d with
  | meaningless => simp [StyleDefect.fault?] at h
  | unreadable number =>
    obtain rfl := Option.some.inj h
    exact .unreadableNumber number

theorem ofPrinting_of_normalForm {digits : Nat} (h : Style.normalForm digits t = .error f) :
    OfPrinting f := by
  unfold Style.normalForm at h
  split at h
  · simp at h
  · split at h
    · obtain rfl := Except.error.inj h
      exact ofPrinting_of_styleDefect ‹_›
    · simp at h

theorem ofPrinting_of_closed {opened : List Markup.OpenStyle}
    (h : Markup.closed c t opened = .error f) : OfPrinting f := by
  unfold Markup.closed at h
  split at h
  · obtain rfl := Except.error.inj h
    exact .unmatchedTag _
  · simp at h
  · rcases bind_eq_error_iff.1 h with h | ⟨normal, -, h⟩
    · exact ofPrinting_of_normalForm h
    · split at h
      · simp at h
      · obtain rfl := Except.error.inj h
        exact .unmatchedTag _

theorem ofPrinting_of_openStyle {s : Markup.OpenStyle} (h : s.fault? c = some f) :
    OfPrinting f := by
  unfold Markup.OpenStyle.fault? at h
  split at h
  · simp at h
  · split at h
    · obtain rfl := Option.some.inj h
      exact .unreadableHandler _
    · simp at h

theorem ofPrinting_of_close {opened : List Markup.OpenStyle}
    (h : Markup.close c t opened = .error f) : OfPrinting f := by
  rcases bind_eq_error_iff.1 h with h | ⟨⟨s, opened'⟩, -, h⟩
  · exact ofPrinting_of_closed h
  · cases hs : s.fault? c with
    | none => simp [hs] at h
    | some g =>
      obtain rfl : g = f := by simpa [hs] using h
      exact ofPrinting_of_openStyle hs

theorem ofPrinting_of_shown {ps : List Markup.Piece} {opened : List Markup.OpenStyle}
    (h : Markup.shown c opened ps = .error f) : OfPrinting f := by
  induction ps generalizing opened with
  | nil => simp [Markup.shown] at h
  | cons p ps ih =>
    cases p with
    | plain t => exact ih (map_eq_error_iff.1 h)
    | opening style parameter? =>
      rcases bind_eq_error_iff.1 h with h | ⟨normal, -, h⟩
      · exact ofPrinting_of_normalForm h
      · exact ih h
    | closing style =>
      rcases bind_eq_error_iff.1 h with h | ⟨opened', -, h⟩
      · exact ofPrinting_of_close h
      · exact ih h

theorem ofPrinting_of_piece {p : Markup.Piece} (h : p.fault? c = some f) : OfPrinting f := by
  unfold Markup.Piece.fault? at h
  split at h
  · split at h
    · obtain rfl := Option.some.inj h
      exact ofPrinting_of_normalForm ‹_›
    · split at h
      · simp at h
      · exact ofPrinting_of_styleDefect h
  · simp at h

theorem ofPrinting_of_markup (h : Markup.render c t = .error f) : OfPrinting f := by
  rcases bind_eq_error_iff.1 h with h | ⟨u, -, h⟩
  · exact ofPrinting_of_shown h
  · split at h
    · simp at h
    · obtain rfl := Except.error.inj h
      obtain ⟨⟨p, tag⟩, -, hp⟩ := List.exists_of_findSome?_eq_some ‹_›
      dsimp only at hp
      split at hp
      · exact ofPrinting_of_piece hp
      · simp at hp

theorem ofPrinting_of_emitted (h : emitted c t = .error f) : OfPrinting f := by
  unfold emitted at h
  split at h
  · obtain rfl := Except.error.inj h
    exact .unencodable _ _
  · simp at h

theorem ofPrinting_of_table {t : Table} (h : t.lines c = .error f) : OfPrinting f := by
  rcases bind_eq_error_iff.1 h with h | ⟨heading, -, h⟩
  · obtain ⟨column, -, hcolumn⟩ := exists_of_mapM_eq_error h
    exact ofPrinting_of_markup hcolumn
  · rcases bind_eq_error_iff.1 h with h | ⟨rows, -, h⟩
    · obtain ⟨r, -, hr⟩ := exists_of_mapM_eq_error h
      obtain ⟨cell, -, hcell⟩ := exists_of_mapM_eq_error hr
      exact ofPrinting_of_markup hcell
    · exact nomatch h

theorem ofPrinting_of_block (h : b.render c = .error f) : OfPrinting f := by
  cases b with
  | marked t =>
    rcases bind_eq_error_iff.1 h with h | ⟨u, -, h⟩
    · exact ofPrinting_of_markup h
    · exact ofPrinting_of_emitted h
  | table t =>
    rcases bind_eq_error_iff.1 h with h | ⟨ls, -, h⟩
    · exact ofPrinting_of_table h
    · exact ofPrinting_of_emitted h
  | plain t => exact ofPrinting_of_emitted h

theorem ofPrinting_of_print {bs : List Block} (h : (print c bs).2 = some f) : OfPrinting f := by
  induction bs with
  | nil => simp [print] at h
  | cons b bs ih =>
    cases hb : b.render c with
    | error g =>
      obtain rfl : g = f := by simpa [print, hb] using h
      exact ofPrinting_of_block hb
    | ok u => exact ih (by simpa [print, hb] using h)

end Console

end BundleGraph
