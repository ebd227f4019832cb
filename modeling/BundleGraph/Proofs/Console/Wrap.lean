import BundleGraph.Console.Wrap
import BundleGraph.Proofs.Console.Line
import BundleGraph.Proofs.Text.Width
import Mathlib.Data.List.DropRight
import Mathlib.Data.List.SplitBy

/-!
# Texts in lines of a width

Laying out a text moves its code points, cuts some and adds spaces and ellipses. A line that is no
longer than the console is wide stays as it is, and so does a text in a column; a column that shows
a text in full on its first line was given that text, and it had room.
-/
namespace BundleGraph

open CodePoint (joiner)

variable {x : CodePoint} {t u m : Text} {width n : Nat}

namespace Text

theorem trimEnd_isPrefix (t : Text) : t.trimEnd <+: t := List.rdropWhile_prefix _ t

theorem trimEnd_eq_self (h : t.getLast? = some x) (hx : ¬x.isBlank) : t.trimEnd = t := by
  obtain ⟨t, rfl⟩ := List.getLast?_eq_some_iff.1 h
  exact List.rdropWhile_concat_neg _ _ _ hx

theorem trimEnd_append_spaces (t : Text) (n : Nat) :
    (t ++ List.replicate n (CodePoint.scalar ' ')).trimEnd = t.trimEnd := by
  induction n with
  | zero => simp
  | succ n ih =>
    rw [List.replicate_succ', ← List.append_assoc]
    exact (List.rdropWhile_concat_pos _ _ _ (by decide)).trans ih

theorem flatten_clustersFrom (begun : Text) (columns : Nat) (last : Option CodePoint) (t : Text) :
    ((clustersFrom begun columns last t).map Prod.fst).flatten = begun ++ t := by
  -- Each turn of the reading adds what it has read to the cluster that is begun, or begins another.
  induction begun, columns, last, t using clustersFrom.induct <;> rw [clustersFrom.eq_def] <;>
    simp_all

@[simp] theorem flatten_clusters (t : Text) : (t.clusters.map Prod.fst).flatten = t :=
  flatten_clustersFrom [] 0 none t

end Text

namespace Console

open Text

def padded (width : Nat) (t : Text) : Text :=
  t ++ List.replicate (width - t.width) (CodePoint.scalar ' ')

theorem flatten_chunks (t : Text) : (chunks t).flatten = t := by
  have hsplit := List.flatten_splitBy (fun a b : CodePoint => !(a.isBlank && !b.isBlank)) t
  unfold chunks
  split
  · rename_i h
    rw [h] at hsplit
    simpa using hsplit
  · rename_i h
    rw [h] at hsplit
    simpa using hsplit
  · rename_i h
    rw [h] at hsplit
    split <;> simpa using hsplit

theorem isChain_chunks (t : Text) :
    (chunks t).IsChain fun chunk _ => chunk.getLast? ≠ some joiner := by
  have hsplit : (t.splitBy fun a b : CodePoint => !(a.isBlank && !b.isBlank)).IsChain
      fun run _ => run.getLast? ≠ some joiner := by
    apply (List.isChain_getLast_head_splitBy _ t).imp
    rintro run next ⟨hrun, hnext, hbreak⟩ hlast
    have hjoiner : run.getLast hrun = joiner := by
      simpa [List.getLast?_eq_some_getLast hrun] using hlast
    rw [hjoiner] at hbreak
    have hblank : ¬joiner.isBlank := by decide
    simp [hblank] at hbreak
  unfold chunks
  split
  · exact .nil
  · exact .singleton _
  · rename_i first second rest h
    rw [h] at hsplit
    split
    · cases rest with
      | nil => exact .singleton _
      | cons third rest =>
        obtain ⟨hfirst, hrest⟩ := List.isChain_cons_cons.1 hsplit
        obtain ⟨hsecond, hrest⟩ := List.isChain_cons_cons.1 hrest
        refine List.isChain_cons_cons.2 ⟨?_, hrest⟩
        rw [List.getLast?_append]
        cases hlast : second.getLast? with
        | none => simpa using hfirst
        | some d => simpa [hlast] using hsecond
    · exact hsplit

theorem flatten_fillParts (width : Nat) (begun : Text) (used : Nat) (cs : List (Text × Nat)) :
    (fillParts width begun used cs).flatten = begun ++ (cs.map Prod.fst).flatten := by
  induction cs generalizing begun used with
  | nil => simp [fillParts]
  | cons cluster cs ih =>
    rw [fillParts]
    split <;> simp [ih]

theorem fillParts_ne_nil {begun : Text} {used : Nat} {cs : List (Text × Nat)} :
    fillParts width begun used cs ≠ [] := by
  induction cs generalizing begun used with
  | nil => simp [fillParts]
  | cons cluster cs ih =>
    rw [fillParts]
    split
    · exact ih
    · simp

@[simp] theorem flatten_parts (folds : Bool) (width : Nat) (chunk : Text) :
    (parts folds width chunk).flatten = chunk := by
  unfold parts
  split
  · rw [flatten_fillParts, flatten_clusters, List.nil_append]
  · simp

theorem parts_ne_nil {folds : Bool} {chunk : Text} : parts folds width chunk ≠ [] := by
  unfold parts
  split
  · exact fillParts_ne_nil
  · simp

theorem flatten_dropWhile_isEmpty (ts : List Text) :
    (ts.dropWhile List.isEmpty).flatten = ts.flatten := by
  induction ts with
  | nil => rfl
  | cons t ts ih =>
    rw [List.dropWhile_cons]
    split
    · rename_i ht
      rw [ih, List.isEmpty_iff.1 ht, List.flatten_cons, List.nil_append]
    · rfl

theorem flatten_fillLines (folds : Bool) (width : Nat) (begun : Text) (used : Nat)
    (cs : List Text) : (fillLines folds width begun used cs).flatten = begun ++ cs.flatten := by
  induction cs generalizing begun used with
  | nil => simp [fillLines]
  | cons chunk cs ih =>
    rw [fillLines]
    split
    · rw [ih]
      simp
    · have hparts : (parts folds width chunk).dropLast.flatten ++
          (parts folds width chunk).getLastD [] = chunk := by
        have hne : parts folds width chunk ≠ [] := parts_ne_nil
        rw [List.getLastD_eq_getLast?, List.getLast?_eq_some_getLast hne]
        simpa using congrArg List.flatten (List.dropLast_concat_getLast hne)
      dsimp only
      rw [List.flatten_append, ih, ← List.append_assoc, List.flatten_cons, ← List.append_assoc]
      congr 1
      split
      · rename_i hbegun
        rw [flatten_dropWhile_isEmpty, hparts, List.isEmpty_iff.1 hbegun, List.nil_append]
      · rw [List.flatten_cons, List.append_assoc, hparts]

theorem fillLines_ne_nil {folds : Bool} {begun : Text} {used : Nat} {cs : List Text} :
    fillLines folds width begun used cs ≠ [] := by
  induction cs generalizing begun used with
  | nil => simp [fillLines]
  | cons chunk cs ih =>
    rw [fillLines]
    split
    · exact ih
    · exact List.append_ne_nil_of_right_ne_nil _ ih

theorem fillLines_eq_singleton {folds : Bool} {begun : Text} {used : Nat} {cs : List Text}
    (h : used + (cs.map Text.width).sum ≤ width) :
    fillLines folds width begun used cs = [begun ++ cs.flatten] := by
  induction cs generalizing begun used with
  | nil => simp [fillLines]
  | cons chunk cs ih =>
    have htrim : chunk.trimEnd.width ≤ chunk.width := by
      obtain ⟨blanks, hblanks⟩ := trimEnd_isPrefix chunk
      calc chunk.trimEnd.width ≤ Text.width (chunk.trimEnd ++ blanks) := widthFrom_le_append
        _ = chunk.width := by rw [hblanks]
    rw [List.map_cons, List.sum_cons] at h
    rw [fillLines, if_pos (by omega), ih (by omega)]
    simp

theorem fillLines_chunks (folds : Bool) (h : t.width ≤ width) :
    fillLines folds width [] 0 (chunks t) = [t] := by
  have hsum : 0 + ((chunks t).map Text.width).sum ≤ width := by
    have hle := sum_width_le_flatten (isChain_chunks t)
    rw [flatten_chunks] at hle
    omega
  rw [fillLines_eq_singleton hsum, flatten_chunks, List.nil_append]

theorem cutBlanks_eq_self (htrim : t.trimEnd = t) : cutBlanks width t = t := by
  unfold cutBlanks
  rw [htrim]
  simp

theorem cutBlanks_eq_self_of_length (h : t.length ≤ width) : cutBlanks width t = t := by
  unfold cutBlanks
  rw [Nat.sub_eq_zero_of_le h]
  simp

theorem lines_eq_singleton (h : Unaltered t) (hfeed : CodePoint.scalar '\n' ∉ t) :
    lines t = [t] := by
  have hlines : t.lines = [t] := by
    unfold Text.lines
    rw [splitAt, splitWhere_eq_splitOnP, List.splitOnP_eq_singleton]
    intro d hd
    simpa using fun heq : d = CodePoint.scalar '\n' => hfeed (heq ▸ hd)
  rw [lines_of_unaltered h, hlines]

section Count

-- Counting what is no space shows that laying out adds nothing else.

variable {p : CodePoint → Bool}

theorem countP_flatten_map_le {f : Text → Text} (hf : ∀ l, (f l).countP p ≤ l.countP p)
    (ls : List Text) : (ls.map f).flatten.countP p ≤ ls.flatten.countP p := by
  induction ls with
  | nil => rfl
  | cons l ls ih =>
    rw [List.map_cons, List.flatten_cons, List.flatten_cons, List.countP_append,
      List.countP_append]
    exact Nat.add_le_add (hf l) ih

theorem countP_flatMap_le {f : Text → List Text} (hf : ∀ l, (f l).flatten.countP p ≤ l.countP p)
    (ls : List Text) : (ls.flatMap f).flatten.countP p ≤ ls.flatten.countP p := by
  induction ls with
  | nil => rfl
  | cons l ls ih =>
    rw [List.flatMap_cons, List.flatten_append, List.flatten_cons, List.countP_append,
      List.countP_append]
    exact Nat.add_le_add (hf l) ih

theorem countP_cutBlanks_le (width : Nat) (l : Text) :
    (cutBlanks width l).countP p ≤ l.countP p :=
  (List.take_sublist _ _).countP_le

theorem countP_fillLines_le {f : Text → Text} (hf : ∀ l, (f l).countP p ≤ l.countP p)
    (folds : Bool) (width : Nat) (l : Text) :
    ((fillLines folds width [] 0 (chunks l)).map f).flatten.countP p ≤ l.countP p := by
  have hflatten := flatten_fillLines folds width [] 0 (chunks l)
  rw [flatten_chunks, List.nil_append] at hflatten
  calc ((fillLines folds width [] 0 (chunks l)).map f).flatten.countP p
      ≤ (fillLines folds width [] 0 (chunks l)).flatten.countP p := countP_flatten_map_le hf _
    _ = l.countP p := by rw [hflatten]

variable (hspace : p (CodePoint.scalar ' ') = false)

include hspace

theorem countP_spaces (n : Nat) :
    (List.replicate n (CodePoint.scalar ' ') : Text).countP p = 0 := by
  simp [List.countP_replicate, hspace]

theorem countP_fillTabs (column : Nat) (ls : List Text) :
    (fillTabs column ls).countP p = ls.flatten.countP p := by
  induction ls generalizing column with
  | nil => rfl
  | cons l ls ih =>
    cases ls with
    | nil => simp [fillTabs]
    | cons l' ls =>
      have hone : [CodePoint.scalar ' '].countP p = 0 := by simp [hspace]
      rw [fillTabs]
      · simp only [Text.concat, List.flatten_cons, List.flatten_nil, List.append_nil,
          List.countP_append, countP_spaces hspace, hone, ih]
        omega
      · simp

theorem countP_expandTabs_le (l : Text) : (expandTabs l).countP p ≤ l.countP p := by
  unfold expandTabs
  rw [countP_fillTabs hspace, splitAt, flatten_splitWhere]
  exact List.filter_sublist.countP_le

theorem countP_lines_le (t : Text) : (lines t).flatten.countP p ≤ t.countP p := by
  refine (countP_flatten_map_le (countP_expandTabs_le hspace) _).trans ?_
  unfold Text.lines
  rw [splitAt, flatten_splitWhere]
  exact (List.filter_sublist.trans List.filter_sublist).countP_le

theorem countP_takeColumns_le (width : Nat) (cs : List (Text × Nat)) :
    (takeColumns width cs).countP p ≤ (cs.map Prod.fst).flatten.countP p := by
  induction cs generalizing width with
  | nil => simp [takeColumns, countP_spaces hspace]
  | cons cluster cs ih =>
    rw [takeColumns]
    split
    · rw [List.map_cons, List.flatten_cons, List.countP_append, List.countP_append]
      exact Nat.add_le_add_left (ih _) _
    · rw [countP_spaces hspace]
      exact Nat.zero_le _

theorem countP_crop_le (width : Nat) (l : Text) : (crop width l).countP p ≤ l.countP p := by
  unfold crop
  split
  · exact le_rfl
  · simpa using countP_takeColumns_le hspace width l.clusters

theorem countP_arrange_le (width : Nat) (l : Text) :
    (arrange width l).flatten.countP p ≤ l.countP p :=
  countP_fillLines_le
    (fun part => (countP_crop_le hspace width _).trans (countP_cutBlanks_le width part))
    true width l

/-- A console shows no more of a code point than there is, spaces apart. -/
theorem countP_layOut_le (width : Nat) (t : Text) :
    (layOut width t).flatten.countP p ≤ t.countP p :=
  (countP_flatMap_le (countP_arrange_le hspace width) _).trans (countP_lines_le hspace t)

variable (hellipsis : p (CodePoint.scalar '…') = false)

include hellipsis

theorem countP_shorten_le (width : Nat) (l : Text) :
    (shorten width l).countP p ≤ l.countP p := by
  unfold shorten
  split
  · exact le_rfl
  · have hone : [CodePoint.scalar '…'].countP p = 0 := by simp [hellipsis]
    rw [List.countP_append, hone, Nat.add_zero]
    simpa using countP_takeColumns_le hspace (width - 1) l.clusters

theorem countP_fit_le (side : Side) (width : Nat) (l : Text) :
    (fit side width l).countP p ≤ l.countP p := by
  cases side with
  | left =>
    simp only [fit, List.countP_append, countP_spaces hspace, Nat.add_zero]
    exact countP_shorten_le hspace hellipsis width l
  | right =>
    simp only [fit, List.countP_append, countP_spaces hspace, Nat.zero_add]
    exact (countP_shorten_le hspace hellipsis width _).trans
      (trimEnd_isPrefix l).sublist.countP_le

theorem countP_wrap_le (side : Side) (width : Nat) (t : Text) :
    (wrap side width t).flatten.countP p ≤ t.countP p :=
  (countP_flatMap_le (fun l => countP_fillLines_le (fun part =>
    (countP_fit_le hspace hellipsis side width _).trans (countP_cutBlanks_le width part))
      false width l) _).trans (countP_lines_le hspace t)

end Count

/-- What a text has of a code point, if another has no less of it. -/
theorem mem_of_countP_le (h : ∀ p : CodePoint → Bool, p (CodePoint.scalar ' ') = false →
    u.countP p ≤ t.countP p) (hspace : x ≠ CodePoint.scalar ' ') (hx : x ∈ u) : x ∈ t := by
  have hpos : 0 < u.countP (· = x) := List.countP_pos_iff.2 ⟨x, hx, by simp⟩
  have hle := h (· = x) (by simpa using Ne.symm hspace)
  obtain ⟨y, hy, hyx⟩ := List.countP_pos_iff.1 (Nat.lt_of_lt_of_le hpos hle)
  exact of_decide_eq_true hyx ▸ hy

theorem mem_of_mem_arrange {l l' : Text} (hspace : x ≠ CodePoint.scalar ' ')
    (hl : l' ∈ arrange width l) (hx : x ∈ l') : x ∈ l :=
  mem_of_countP_le (fun _ h => countP_arrange_le h width l) hspace (List.mem_flatten_of_mem hl hx)

theorem mem_of_mem_layOut (hspace : x ≠ CodePoint.scalar ' ') {l : Text}
    (hl : l ∈ layOut width t) (hx : x ∈ l) : x ∈ t :=
  mem_of_countP_le (fun _ h => countP_layOut_le h width t) hspace (List.mem_flatten_of_mem hl hx)

theorem inLine_of_mem_layOut {l : Text} (hl : l ∈ layOut width t) (hx : x ∈ l) : InLine x := by
  by_cases hspace : x = CodePoint.scalar ' '
  · subst hspace
    decide
  obtain ⟨line, hline, hl⟩ := List.mem_flatMap.1 hl
  exact inLine_of_mem_lines hline (mem_of_mem_arrange hspace hl hx)

theorem arrange_ne_nil {l : Text} : arrange width l ≠ [] := by
  unfold arrange
  simpa using fillLines_ne_nil

/-- A line that is no longer and no wider than the console stays as it is. -/
theorem arrange_eq_singleton {l : Text} (hwidth : l.width ≤ width) (hlength : l.length ≤ width) :
    arrange width l = [l] := by
  unfold arrange
  rw [fillLines_chunks true hwidth, List.map_singleton, cutBlanks_eq_self_of_length hlength, crop,
    if_pos hwidth]

theorem eq_singleton_of_flatMap_eq {f : Text → List Text} {ls : List Text}
    (hne : ∀ l, f l ≠ []) (h : ls.flatMap f = ls) : ∀ l ∈ ls, f l = [l] := by
  have hlength : ∀ ls : List Text, ls.length ≤ (ls.flatMap f).length := by
    intro ls
    induction ls with
    | nil => simp
    | cons l ls ih =>
      have hpos := List.length_pos_iff.2 (hne l)
      rw [List.flatMap_cons, List.length_append, List.length_cons]
      omega
  induction ls with
  | nil => simp
  | cons l ls ih =>
    rw [List.flatMap_cons] at h
    obtain ⟨first, rest, hfirst⟩ := List.exists_cons_of_ne_nil (hne l)
    rw [hfirst, List.cons_append, List.cons.injEq] at h
    obtain ⟨rfl, h⟩ := h
    have hrest : rest = [] := by
      have heq := congrArg List.length h
      have hle := hlength ls
      rw [List.length_append] at heq
      exact List.length_eq_zero_iff.1 (by omega)
    subst hrest
    exact List.forall_mem_cons.2 ⟨hfirst, ih h⟩

theorem unlines_inj {ls ls' : List Text} (h : ∀ l ∈ ls, CodePoint.scalar '\n' ∉ l)
    (h' : ∀ l ∈ ls', CodePoint.scalar '\n' ∉ l) : unlines ls = unlines ls' ↔ ls = ls' := by
  refine ⟨fun heq => ?_, congrArg _⟩
  have hlines : ∀ ls : List Text, (∀ l ∈ ls, CodePoint.scalar '\n' ∉ l) →
      (unlines ls).splitOnP (· = CodePoint.scalar '\n') = ls ++ [[]] := by
    intro ls hls
    induction ls with
    | nil => rfl
    | cons l ls ih =>
      obtain ⟨hl, hls⟩ := List.forall_mem_cons.1 hls
      have hcons : unlines (l :: ls) = l ++ CodePoint.scalar '\n' :: unlines ls := by
        simp [unlines]
      have hfree : ∀ x ∈ l, decide (x = CodePoint.scalar '\n') = false :=
        fun x hx => decide_eq_false fun hfeed => hl (hfeed ▸ hx)
      rw [hcons, List.splitOnP_append_cons_of_forall_mem hfree _ (by simp), ih hls]
      rfl
  exact List.append_cancel_right ((hlines ls h).symm.trans (heq ▸ hlines ls' h'))

/-- A console shows a text as it is just when nothing in it is altered and every line of it stays as
it is. -/
theorem unlines_layOut_eq_iff : unlines (layOut width t) = t ++ [CodePoint.scalar '\n'] ↔
    Unaltered t ∧ ∀ l ∈ t.lines, arrange width l = [l] := by
  have hfree : ∀ l ∈ layOut width t, CodePoint.scalar '\n' ∉ l :=
    fun l hl hfeed => (inLine_of_mem_layOut hl hfeed).2 rfl
  have hlines : ∀ l ∈ t.lines, CodePoint.scalar '\n' ∉ l := by
    intro l hl hfeed
    have hmem := List.mem_flatten_of_mem hl hfeed
    unfold Text.lines at hmem
    rw [splitAt, flatten_splitWhere] at hmem
    simpa using List.of_mem_filter hmem
  have hiff (h : Unaltered t) : unlines (layOut width t) = t ++ [CodePoint.scalar '\n'] ↔
      t.lines.flatMap (arrange width) = t.lines := by
    have hlayOut : layOut width t = t.lines.flatMap (arrange width) := by
      rw [layOut, lines_of_unaltered h]
    rw [← unlines_textLines, unlines_inj hfree hlines, hlayOut]
  constructor
  · intro h
    have hall : Unaltered t := by
      intro x hx
      have hmem : x ∈ unlines (layOut width t) := h ▸ List.mem_append_left _ hx
      by_cases hfeed : x = CodePoint.scalar '\n'
      · subst hfeed
        decide
      obtain ⟨l, hl, hxl⟩ := (mem_unlines hfeed).1 hmem
      exact (inLine_of_mem_layOut hl hxl).1
    exact ⟨hall, eq_singleton_of_flatMap_eq (fun _ => arrange_ne_nil) ((hiff hall).1 h)⟩
  · intro h
    rw [hiff h.1]
    calc t.lines.flatMap (arrange width) = t.lines.flatMap fun l => [l] := by
          exact List.flatMap_congr h.2
      _ = t.lines := List.flatMap_singleton' t.lines

theorem wrap_eq_padded (h : Unaltered t) (hfeed : CodePoint.scalar '\n' ∉ t)
    (htrim : t.trimEnd = t) (hwidth : t.width ≤ width) : wrap .left width t = [padded width t] := by
  unfold wrap
  rw [lines_eq_singleton h hfeed, List.flatMap_singleton, fillLines_chunks false hwidth,
    List.map_singleton, cutBlanks_eq_self htrim, fit, shorten, if_pos hwidth, padded]

theorem wrap_ne_nil {side : Side} : wrap side width t ≠ [] := by
  have hlines : lines t ≠ [] := by
    unfold lines Text.lines splitAt
    simpa using splitWhere_ne_nil _ (printed t)
  obtain ⟨line, hline⟩ := List.exists_mem_of_ne_nil _ hlines
  intro h
  unfold wrap at h
  rw [List.flatMap_eq_nil_iff] at h
  exact fillLines_ne_nil (List.map_eq_nil_iff.1 (h line hline))

theorem inLine_of_mem_wrap {side : Side} {l : Text} (hl : l ∈ wrap side width t) (hx : x ∈ l) :
    InLine x := by
  by_cases hspace : x = CodePoint.scalar ' '
  · subst hspace
    decide
  by_cases hellipsis : x = CodePoint.scalar '…'
  · subst hellipsis
    decide
  obtain ⟨line, hline, hl⟩ := List.mem_flatMap.1 hl
  have hle := countP_fillLines_le (p := (· = x)) (fun part =>
    (countP_fit_le (by simpa using Ne.symm hspace) (by simpa using Ne.symm hellipsis) side width
      _).trans (countP_cutBlanks_le width part)) false width line
  have hpos := List.countP_pos_iff (p := (· = x)).2
    ⟨x, List.mem_flatten_of_mem hl hx, decide_eq_true rfl⟩
  obtain ⟨y, hy, hyx⟩ := List.countP_pos_iff.1 (Nat.lt_of_lt_of_le hpos hle)
  exact inLine_of_mem_lines hline (of_decide_eq_true hyx ▸ hy)

/-- A text that ends neither in white space nor in an ellipsis is shown in full on the first line of
a column only if the column has room for it. -/
theorem eq_of_wrap_eq_cons (hlast : t.getLast? = some x) (hx : ¬x.isBlank)
    (hellipsis : x ≠ CodePoint.scalar '…') {ls : List Text}
    (hwrap : wrap .left width t = padded width t :: ls) :
    Unaltered t ∧ CodePoint.scalar '\n' ∉ t ∧ t.width ≤ width := by
  have ht : ∀ d ∈ t, InLine d := by
    intro d hd
    have hmem : padded width t ∈ wrap .left width t := by simp [hwrap]
    exact inLine_of_mem_wrap hmem (List.mem_append_left _ hd)
  have hfeed : CodePoint.scalar '\n' ∉ t := fun h => (ht _ h).2 rfl
  have hunaltered : Unaltered t := fun d hd => (ht d hd).1
  refine ⟨hunaltered, hfeed, ?_⟩
  unfold wrap at hwrap
  rw [lines_eq_singleton hunaltered hfeed, List.flatMap_singleton] at hwrap
  obtain ⟨part, parts, hparts, hpart, -⟩ := List.map_eq_cons_iff.1 hwrap
  have hprefix : part <+: t := by
    have hflatten := flatten_fillLines false width [] 0 (chunks t)
    rw [hparts, flatten_chunks, List.flatten_cons, List.nil_append] at hflatten
    exact ⟨_, hflatten⟩
  have htrim := congrArg Text.trimEnd hpart
  rw [padded, trimEnd_append_spaces, trimEnd_eq_self hlast hx, fit, trimEnd_append_spaces,
    shorten] at htrim
  split at htrim
  · rename_i hwidth
    have hcut : (cutBlanks width part).Sublist part := List.take_sublist _ _
    have hle := (trimEnd_isPrefix (cutBlanks width part)).sublist.length_le
    rw [htrim] at hle
    obtain rfl : part = t := hprefix.eq_of_length_le (hle.trans hcut.length_le)
    rwa [hcut.eq_of_length_le hle] at hwidth
  · rw [trimEnd_eq_self (by simp) (by decide : ¬CodePoint.isBlank (CodePoint.scalar '…'))] at htrim
    rw [← htrim, List.getLast?_concat, Option.some.injEq] at hlast
    exact absurd hlast.symm hellipsis

end Console

end BundleGraph
