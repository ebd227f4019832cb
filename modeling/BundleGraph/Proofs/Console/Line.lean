import BundleGraph.Console.Line
import Mathlib.Tactic

/-!
# What reaches the console

On the way to the console a text keeps every code point but the tabulators and those that are not
printed, and gains spaces and line feeds only. So a text without them arrives as it is, and no other
text does.
-/
namespace BundleGraph

variable {c : CodePoint} {t u : Text}

namespace Text

/-- A text without lone surrogates, so that it has a UTF-8 form. -/
def WellFormed (t : Text) : Prop := ∀ c ∈ t, ¬c.isSurrogate

instance (t : Text) : Decidable (WellFormed t) := inferInstanceAs (Decidable (∀ c ∈ t, _))

@[simp] theorem wellFormed_nil : WellFormed [] := by
  simp [WellFormed]

@[simp] theorem wellFormed_cons : WellFormed (c :: t) ↔ ¬c.isSurrogate ∧ WellFormed t :=
  List.forall_mem_cons

@[simp] theorem wellFormed_append : WellFormed (t ++ u) ↔ WellFormed t ∧ WellFormed u :=
  List.forall_mem_append

theorem ofString_injective : Function.Injective ofString :=
  (List.map_injective_iff.2 fun _ _ => CodePoint.scalar.inj).comp fun _ _ => String.toList_injective

theorem wellFormed_ofString (s : String) : WellFormed (ofString s) := by
  intro c hc
  obtain ⟨d, -, rfl⟩ := List.mem_map.1 hc
  simp [CodePoint.isSurrogate]

theorem WellFormed.subset (h : WellFormed u) (hsub : t ⊆ u) : WellFormed t :=
  fun c hc => h c (hsub hc)

theorem mem_joinWith {sep : Text} {parts : List Text} (hc : c ∈ joinWith sep parts) :
    c ∈ sep ∨ ∃ part ∈ parts, c ∈ part := by
  unfold joinWith at hc
  induction parts with
  | nil => simp at hc
  | cons part parts ih =>
    cases parts with
    | nil => exact .inr ⟨part, List.mem_cons_self, by simpa using hc⟩
    | cons next parts =>
      rw [List.intercalate_cons_cons, List.mem_append, List.mem_append] at hc
      rcases hc with (hc | hc) | hc
      · exact .inr ⟨part, List.mem_cons_self, hc⟩
      · exact .inl hc
      · exact (ih hc).imp_right fun ⟨l, hl, hcl⟩ => ⟨l, List.mem_cons_of_mem _ hl, hcl⟩

theorem infix_joinWith {sep item : Text} {items : List Text} (h : item ∈ items) :
    item <:+: joinWith sep items := by
  unfold joinWith
  induction items with
  | nil => simp at h
  | cons first items ih =>
    cases items with
    | nil => simp [List.mem_singleton.1 h]
    | cons second items =>
      rw [List.intercalate_cons_cons, List.append_assoc]
      rcases List.mem_cons.1 h with rfl | h
      · exact List.infix_append_left
      · exact List.infix_append_of_infix_right (List.infix_append_of_infix_right (ih h))

theorem splitWhere_eq_splitOnP (separates : CodePoint → Bool) (t : Text) :
    t.splitWhere separates = t.splitOnP separates := by
  induction t with
  | nil => rfl
  | cons c t ih =>
    rw [splitWhere, List.splitOnP_cons_eq_if_modifyHead, ih]
    split
    · rfl
    · cases h : t.splitOnP separates with
      | nil => exact absurd h (List.splitOnP_ne_nil separates t)
      | cons piece pieces => rfl

theorem flatten_splitWhere : (t.splitWhere separates).flatten = t.filter fun c => !separates c := by
  induction t with
  | nil => rfl
  | cons c t ih =>
    rw [splitWhere]
    split
    · rename_i hc
      rw [List.filter_cons_of_neg (by simpa using hc), ← ih]
      rfl
    · rename_i hc
      rw [List.filter_cons_of_pos (by simpa using hc), ← ih]
      split
      · rename_i h
        exact absurd h (splitWhere_ne_nil separates t)
      · rename_i piece pieces h
        rw [h]
        rfl

end Text

namespace Console

open Text

/-- A text that nothing happens to on the way to the console. -/
def Unaltered (t : Text) : Prop := ∀ c ∈ t, ¬isDropped c ∧ c ≠ CodePoint.scalar '\t'

instance (t : Text) : Decidable (Unaltered t) :=
  inferInstanceAs (Decidable (∀ c ∈ t, ¬isDropped c ∧ c ≠ CodePoint.scalar '\t'))

/-- A code point that may stand in a line on the console. -/
def InLine (c : CodePoint) : Prop :=
  (¬isDropped c ∧ c ≠ CodePoint.scalar '\t') ∧ c ≠ CodePoint.scalar '\n'

instance (c : CodePoint) : Decidable (InLine c) :=
  inferInstanceAs (Decidable ((¬isDropped c ∧ c ≠ CodePoint.scalar '\t') ∧ _))

theorem mem_fillTabs (hc : c ≠ CodePoint.scalar ' ') {column : Nat} {ls : List Text} :
    c ∈ fillTabs column ls ↔ c ∈ ls.flatten := by
  induction ls generalizing column with
  | nil => simp [fillTabs]
  | cons l ls ih =>
    cases ls with
    | nil => simp [fillTabs]
    | cons l' ls =>
      rw [fillTabs, List.flatten_cons, List.mem_append]
      · simp [Text.concat, hc, ih]
      · simp

theorem mem_expandTabs (hc : c ≠ CodePoint.scalar ' ') :
    c ∈ expandTabs t ↔ c ∈ t ∧ c ≠ CodePoint.scalar '\t' := by
  unfold expandTabs
  rw [mem_fillTabs hc, splitAt, flatten_splitWhere, List.mem_filter]
  simp

theorem unlines_append (ls ls' : List Text) : unlines (ls ++ ls') = unlines ls ++ unlines ls' :=
  List.flatMap_append

theorem countP_unlines (p : CodePoint → Bool) (ls : List Text) : (unlines ls).countP p =
    ls.length * [CodePoint.scalar '\n'].countP p + ls.flatten.countP p := by
  induction ls with
  | nil => simp [unlines]
  | cons l ls ih =>
    have hl : unlines [l] = l ++ [CodePoint.scalar '\n'] := by simp [unlines]
    rw [← List.singleton_append, unlines_append, List.countP_append, ih, hl, List.countP_append,
      List.flatten_append, List.countP_append, List.flatten_singleton, List.length_append,
      List.length_singleton, Nat.add_mul]
    omega

theorem mem_unlines (hc : c ≠ CodePoint.scalar '\n') {ls : List Text} :
    c ∈ unlines ls ↔ ∃ l ∈ ls, c ∈ l := by
  simp [unlines, hc]

theorem inLine_of_mem_lines {l : Text} (hl : l ∈ lines t) (hc : c ∈ l) : InLine c := by
  obtain ⟨line, hline, rfl⟩ := List.mem_map.1 hl
  by_cases hspace : c = CodePoint.scalar ' '
  · subst hspace
    decide
  obtain ⟨hc, htab⟩ := (mem_expandTabs hspace).1 hc
  have hmem : c ∈ (printed t).lines.flatten := List.mem_flatten_of_mem hline hc
  unfold Text.lines at hmem
  rw [splitAt, flatten_splitWhere, printed, List.mem_filter, List.mem_filter] at hmem
  simp only [Bool.not_eq_true', decide_eq_false_iff_not] at hmem
  exact ⟨⟨by simpa using hmem.1.2, htab⟩, hmem.2⟩

theorem unlines_textLines (t : Text) : unlines t.lines = t ++ [CodePoint.scalar '\n'] := by
  induction t with
  | nil => rfl
  | cons c t ih =>
    unfold Text.lines
    rw [splitAt, splitWhere]
    split
    · rename_i hc
      obtain rfl : c = CodePoint.scalar '\n' := by simpa using hc
      unfold unlines
      rw [List.flatMap_cons, ← unlines]
      exact congrArg _ ih
    · split
      · rename_i h
        exact absurd h (splitWhere_ne_nil _ t)
      · rename_i piece pieces h
        unfold Text.lines at ih
        rw [splitAt, h] at ih
        simpa [unlines] using ih

theorem expandTabs_eq_self (h : CodePoint.scalar '\t' ∉ t) : expandTabs t = t := by
  unfold expandTabs
  rw [splitAt, splitWhere_eq_splitOnP, List.splitOnP_eq_singleton, fillTabs]
  intro c hc
  simpa using fun heq : c = CodePoint.scalar '\t' => h (heq ▸ hc)

theorem lines_of_unaltered (h : Unaltered t) : lines t = t.lines := by
  have hprinted : printed t = t := List.filter_eq_self.2 fun c hc => by simpa using (h c hc).1
  unfold lines
  rw [hprinted]
  refine (List.map_congr_left fun l hl => expandTabs_eq_self fun htab => ?_).trans (List.map_id _)
  have hmem : CodePoint.scalar '\t' ∈ t.lines.flatten := List.mem_flatten_of_mem hl htab
  unfold Text.lines at hmem
  rw [splitAt, flatten_splitWhere] at hmem
  exact (h _ (List.mem_of_mem_filter hmem)).2 rfl

theorem Unaltered.subset (h : Unaltered t) (hu : u ⊆ t) : Unaltered u :=
  fun c hc => h c (hu hc)

theorem unaltered_append : Unaltered (t ++ u) ↔ Unaltered t ∧ Unaltered u :=
  List.forall_mem_append

end Console

end BundleGraph
