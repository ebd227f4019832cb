import BundleGraph.Console.Emoji
import Mathlib.Tactic

/-!
# Texts without codes

A text in which no colon starts a code of an emoji is drawn as it stands, and so is a beginning in
which none starts one whatever follows. Every picture takes the place of two colons at least, so a
text that keeps its colons is drawn as it stands.
-/
namespace BundleGraph

variable {c : CodePoint} {t u p name after : Text}

namespace CodePoint

@[simp] theorem isMark_colon : (CodePoint.scalar ':').isMark := by decide

@[simp] theorem isMark_opening : (CodePoint.scalar '[').isMark := by decide

@[simp] theorem isMark_closing : (CodePoint.scalar ']').isMark := by decide

@[simp] theorem isMark_backslash : (CodePoint.scalar '\\').isMark := by decide

end CodePoint

namespace Text

def marks (t : Text) : Nat := t.countP CodePoint.isMark

@[simp] theorem marks_nil : marks [] = 0 := rfl

@[simp] theorem marks_append : marks (t ++ u) = marks t + marks u := List.countP_append

theorem marks_cons : marks (c :: t) = marks [c] + marks t := marks_append (t := [c])

@[simp] theorem marks_cons_of_mark (h : c.isMark) : marks (c :: t) = marks t + 1 :=
  List.countP_cons_of_pos h

theorem marks_eq_zero (h : ∀ c ∈ t, ¬c.isMark) : marks t = 0 := List.countP_eq_zero.2 h

end Text

namespace Emoji

open Text

/-- No colon of the text starts a code. -/
def Codeless : Text → Prop
  | [] => True
  | c :: t => (c = ':' → code? t = none) ∧ Codeless t

/-- No colon of the text starts a code, whatever stands behind the text. -/
def Settled : Text → Prop
  | [] => True
  | c :: t => (c = ':' → code? (t ++ [CodePoint.scalar ':']) = none) ∧ Settled t

instance decidableCodeless : (t : Text) → Decidable (Codeless t)
  | [] => inferInstanceAs (Decidable True)
  | _ :: t => @instDecidableAnd _ _ _ (decidableCodeless t)

instance decidableSettled : (t : Text) → Decidable (Settled t)
  | [] => inferInstanceAs (Decidable True)
  | _ :: t => @instDecidableAnd _ _ _ (decidableSettled t)

theorem code?_append (h : code? t = some (name, after)) :
    code? (t ++ u) = some (name, after ++ u) := by
  induction t generalizing name with
  | nil => simp [code?] at h
  | cons c t ih =>
    rw [code?] at h
    rw [List.cons_append, code?]
    split at h
    · simp_all
    · split at h
      · simp at h
      · obtain ⟨⟨name', after'⟩, h', heq⟩ := Option.map_eq_some_iff.1 h
        obtain ⟨rfl, rfl⟩ := Prod.mk.inj heq
        rw [if_neg ‹_›, if_neg ‹_›, ih h']
        rfl

theorem code?_eq_none_of_append (h : code? (t ++ u) = none) : code? t = none := by
  cases ht : code? t with
  | none => rfl
  | some code => simp [code?_append ht] at h

/-- White space that keeps a colon behind a text from ending a code does so for anything there. -/
theorem code?_append_eq_none (h : code? (t ++ [CodePoint.scalar ':']) = none) (u : Text) :
    code? (t ++ u) = none := by
  induction t with
  | nil => simp [code?] at h
  | cons c t ih =>
    rw [List.cons_append, code?] at h ⊢
    split at h
    · simp at h
    · rw [if_neg ‹_›]
      split at h
      · rw [if_pos ‹_›]
      · rw [if_neg ‹_›, ih (Option.map_eq_none_iff.1 h)]
        rfl

theorem Settled.codeless (h : Settled t) : Codeless t := by
  induction t with
  | nil => trivial
  | cons c t ih => exact ⟨fun hc => code?_eq_none_of_append (h.1 hc), ih h.2⟩

theorem Settled.append (ht : Settled t) (hu : Settled u) : Settled (t ++ u) := by
  induction t with
  | nil => exact hu
  | cons c t ih =>
    refine ⟨fun hc => ?_, ih ht.2⟩
    change code? (t ++ u ++ [CodePoint.scalar ':']) = none
    rw [List.append_assoc]
    exact code?_append_eq_none (ht.1 hc) _

theorem settled_of_not_mem (h : CodePoint.scalar ':' ∉ t) : Settled t := by
  induction t with
  | nil => trivial
  | cons c t ih =>
    rw [List.mem_cons, not_or] at h
    exact ⟨fun hc => absurd hc.symm h.1, ih h.2⟩

theorem eq_of_code? (h : code? t = some (name, after)) :
    t = name ++ CodePoint.scalar ':' :: after := by
  induction t generalizing name with
  | nil => simp [code?] at h
  | cons c t ih =>
    rw [code?] at h
    split at h
    · obtain ⟨rfl, rfl⟩ := Prod.mk.inj (Option.some.inj h)
      simp_all
    · split at h
      · simp at h
      · obtain ⟨⟨name', after'⟩, h', heq⟩ := Option.map_eq_some_iff.1 h
        obtain ⟨rfl, rfl⟩ := Prod.mk.inj heq
        rw [ih h']
        rfl

theorem not_isMark_of_mem_variant (h : c ∈ (variant name).2) : ¬c.isMark := by
  unfold variant at h
  dsimp only at h
  split at h
  · rw [List.mem_singleton.1 h]
    decide
  · split at h
    · rw [List.mem_singleton.1 h]
      decide
    · simp at h

namespace Table

variable {table : Table}

theorem draw_cons (h : c = ':' → code? t = none) : table.draw (c :: t) = c :: table.draw t := by
  rw [draw]
  split
  · split
    · simp_all
    · rfl
  · rfl

theorem draw_code (h : code? t = some (name, after)) :
    table.draw (CodePoint.scalar ':' :: t) = table.picture name ++ table.draw after := by
  rw [draw, if_pos rfl]
  split
  · simp_all
  · simp_all

theorem draw_of_codeless (h : Codeless t) : table.draw t = t := by
  induction t with
  | nil => rw [draw]
  | cons c t ih => rw [draw_cons h.1, ih h.2]

theorem draw_append (h : Settled p) : table.draw (p ++ t) = p ++ table.draw t := by
  induction p with
  | nil => rfl
  | cons c p ih =>
    rw [List.cons_append, draw_cons fun hc => code?_append_eq_none (h.1 hc) t, ih h.2]
    rfl

/-- A picture holds fewer marks than its code, which stands where there is no picture. -/
theorem picture_cases (table : Table) (name : Text) :
    table.picture name = CodePoint.scalar ':' :: (name ++ [CodePoint.scalar ':']) ∨
      marks (table.picture name) = 0 := by
  unfold picture
  split
  · rename_i picture hfind
    right
    apply marks_eq_zero
    exact List.forall_mem_append.2
      ⟨table.unmarked _ _ hfind, fun c hc => not_isMark_of_mem_variant hc⟩
  · left
    have hcolon : Text.ofString ":" = [CodePoint.scalar ':'] := rfl
    simp [Text.concat, hcolon]

/-- Drawing adds no marks, and it takes some unless it leaves the text as it stands. -/
theorem marks_draw (table : Table) (t : Text) :
    table.draw t = t ∨ marks (table.draw t) < marks t := by
  induction t using draw.induct with
  | case1 => exact .inl (by rw [draw])
  | case2 t name after hcode ih =>
    rw [draw_code hcode]
    obtain rfl := eq_of_code? hcode
    simp only [marks_append, marks_cons_of_mark, CodePoint.isMark_colon]
    rcases table.picture_cases name with hpicture | hpicture
    · rw [hpicture]
      rcases ih with ih | ih
      · exact .inl (by simp [ih])
      · right
        simp only [marks_append, marks_cons_of_mark, CodePoint.isMark_colon, marks_nil]
        omega
    · right
      have hle : marks (table.draw after) ≤ marks after := by
        rcases ih with ih | ih
        · rw [ih]
        · exact ih.le
      omega
  | case3 t hcode ih =>
    rw [draw_cons fun _ => hcode, marks_cons, marks_cons (t := t)]
    exact ih.imp (congrArg _) (Nat.add_lt_add_left · _)
  | case4 c t hc ih =>
    rw [draw_cons fun h => absurd h hc, marks_cons, marks_cons (t := t)]
    exact ih.imp (congrArg _) (Nat.add_lt_add_left · _)

theorem marks_draw_le (table : Table) (t : Text) : marks (table.draw t) ≤ marks t := by
  rcases table.marks_draw t with h | h
  · rw [h]
  · exact h.le

end Table

end Emoji

end BundleGraph
