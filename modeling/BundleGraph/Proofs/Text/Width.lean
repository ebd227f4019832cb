import BundleGraph.Text.Width
import Mathlib.Tactic

/-!
# Widths of parts

The parts of a text ask for no more columns than the whole, as long as no part but the last ends in
a joiner: a selector may widen what stood in another part, and nothing narrows it.
-/
namespace BundleGraph.Text

open CodePoint (joiner pictureSelector)

variable {c : CodePoint} {last : Option CodePoint} {t u : Text}

@[simp] theorem widthFrom_nil : widthFrom last [] = 0 := by
  rw [widthFrom.eq_def]

theorem widthFrom_joiner : widthFrom last [joiner] = 0 := by
  rw [widthFrom.eq_def]
  simp

theorem widthFrom_joiner_cons : widthFrom last (joiner :: c :: t) = widthFrom last t := by
  rw [widthFrom.eq_def]
  simp

theorem widthFrom_selector_cons :
    widthFrom last (pictureSelector :: t) = (match last with
      | none => 0
      | some d => if d.inRanges CodePoint.textPictographRanges then 1 else 0) +
        widthFrom none t := by
  have hne : pictureSelector ≠ joiner := by decide
  rw [widthFrom.eq_def]
  cases last <;> simp [hne]

theorem widthFrom_cons (hjoiner : c ≠ joiner) (hselector : c ≠ pictureSelector) :
    widthFrom last (c :: t) = c.width + widthFrom (if c.width = 0 then last else some c) t := by
  rw [widthFrom.eq_def]
  simp [hjoiner, hselector]

/-- What stands before a text can only widen it. -/
theorem widthFrom_none_le (last : Option CodePoint) (t : Text) :
    widthFrom none t ≤ widthFrom last t := by
  induction last, t using widthFrom.induct with
  | case1 => simp
  | case2 => simp [widthFrom_joiner]
  | case3 last c t ih =>
    rw [widthFrom_joiner_cons, widthFrom_joiner_cons]
    exact ih
  | case4 => exact le_rfl
  | case5 t d _ _ =>
    rw [widthFrom_selector_cons, widthFrom_selector_cons]
    exact Nat.add_le_add_right (Nat.zero_le _) _
  | case6 last c t hjoiner hselector ih =>
    rw [widthFrom_cons hjoiner hselector, widthFrom_cons hjoiner hselector]
    by_cases hc : c.width = 0
    · rw [if_pos hc, if_pos hc]
      rw [if_pos hc] at ih
      exact Nat.add_le_add_left ih _
    · rw [if_neg hc, if_neg hc]

theorem getLast?_ne_of_cons {d : CodePoint} (h : (c :: t).getLast? ≠ some d) :
    t.getLast? ≠ some d := by
  intro hlast
  exact h (by simp [List.getLast?_cons, hlast])

theorem add_widthFrom_le_append (h : t.getLast? ≠ some joiner) :
    widthFrom last t + widthFrom none u ≤ widthFrom last (t ++ u) := by
  induction last, t using widthFrom.induct with
  | case1 last => simpa using widthFrom_none_le last u
  | case2 => simp at h
  | case3 last c t ih =>
    rw [List.cons_append, List.cons_append, widthFrom_joiner_cons, widthFrom_joiner_cons]
    exact ih (getLast?_ne_of_cons (getLast?_ne_of_cons h))
  | case4 t _ ih =>
    have hle := ih (getLast?_ne_of_cons h)
    rw [List.cons_append, widthFrom_selector_cons, widthFrom_selector_cons]
    omega
  | case5 t d _ ih =>
    have hle := ih (getLast?_ne_of_cons h)
    rw [List.cons_append, widthFrom_selector_cons, widthFrom_selector_cons]
    omega
  | case6 last c t hjoiner hselector ih =>
    have hle := ih (getLast?_ne_of_cons h)
    rw [List.cons_append, widthFrom_cons hjoiner hselector, widthFrom_cons hjoiner hselector]
    omega

theorem widthFrom_le_append : widthFrom last t ≤ widthFrom last (t ++ u) := by
  induction last, t using widthFrom.induct with
  | case1 => simp
  | case2 => simp [widthFrom_joiner]
  | case3 last c t ih =>
    rw [List.cons_append, List.cons_append, widthFrom_joiner_cons, widthFrom_joiner_cons]
    exact ih
  | case4 t _ ih =>
    rw [List.cons_append, widthFrom_selector_cons, widthFrom_selector_cons]
    exact Nat.add_le_add_left ih _
  | case5 t d _ ih =>
    rw [List.cons_append, widthFrom_selector_cons, widthFrom_selector_cons]
    exact Nat.add_le_add_left ih _
  | case6 last c t hjoiner hselector ih =>
    rw [List.cons_append, widthFrom_cons hjoiner hselector, widthFrom_cons hjoiner hselector]
    exact Nat.add_le_add_left ih _

theorem sum_width_le_flatten {parts : List Text}
    (h : parts.IsChain fun part _ => part.getLast? ≠ some joiner) :
    (parts.map width).sum ≤ width parts.flatten := by
  induction parts with
  | nil => simp
  | cons part parts ih =>
    cases parts with
    | nil => simp
    | cons next parts =>
      obtain ⟨hpart, hparts⟩ := List.isChain_cons_cons.1 h
      have hle := ih hparts
      have happend : width part + width (next :: parts).flatten ≤
          width (part ++ (next :: parts).flatten) := add_widthFrom_le_append hpart
      rw [List.map_cons, List.sum_cons, List.flatten_cons]
      omega

end BundleGraph.Text
