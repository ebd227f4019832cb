import BundleGraph.Console.Table
import BundleGraph.Proofs.Console.Wrap

/-!
# Tables

A table has lines if all its cells can be rendered, and its lines are those of the texts that the
cells show. They hold no more of these texts than there is, and besides only spaces, ellipses and
the strokes of the frame. A last cell stands in one line just when its column has room for it.
-/
namespace BundleGraph.Console

open Text

theorem mapM_eq_ok_iff {α β ε : Type} {f : α → Except ε β} {xs : List α} {ys : List β} :
    xs.mapM f = .ok ys ↔ List.Forall₂ (fun x y => f x = .ok y) xs ys := by
  induction xs generalizing ys with
  | nil =>
    simp only [List.mapM_nil, List.forall₂_nil_left_iff]
    exact ⟨fun h => (Except.ok.inj h).symm, fun h => h ▸ rfl⟩
  | cons x xs ih =>
    rw [List.mapM_cons, List.forall₂_cons_left_iff]
    cases hx : f x with
    | error e => simp [bind, Except.bind]
    | ok y =>
      cases hxs : xs.mapM f with
      | error e => simp [bind, Except.bind, ← ih, hxs]
      | ok zs =>
        simp only [bind, Except.bind, pure, Except.pure, ← ih, hxs, Except.ok.injEq]
        constructor
        · rintro rfl
          exact ⟨y, zs, rfl, rfl, rfl⟩
        · intro h
          obtain ⟨_, _, rfl, rfl, rfl⟩ := h
          rfl

theorem exists_mapM_eq_ok {α β ε : Type} {f : α → Except ε β} {xs : List α} {p : β → Prop}
    (h : ∀ x ∈ xs, ∃ y, f x = .ok y ∧ p y) : ∃ ys, xs.mapM f = .ok ys ∧ ∀ y ∈ ys, p y := by
  induction xs with
  | nil => exact ⟨[], rfl, by simp⟩
  | cons x xs ih =>
    obtain ⟨⟨y, hy, hpy⟩, hxs⟩ := List.forall_mem_cons.1 h
    obtain ⟨ys, hys, hps⟩ := ih hxs
    exact ⟨y :: ys, mapM_eq_ok_iff.2 (.cons hy (mapM_eq_ok_iff.1 hys)),
      List.forall_mem_cons.2 ⟨hpy, hps⟩⟩

namespace Table

theorem lines_eq {c : Terminal} {t : Table} {heading : List Text}
    (hheading : t.columns.mapM (fun column => Markup.render c column.heading) = .ok heading) :
    t.lines c = (t.rows.mapM fun r : List Text => r.mapM (Markup.render c)).map
      (framed c.width (t.columns.map Column.side) heading) := by
  unfold lines
  rw [hheading]
  cases t.rows.mapM fun r : List Text => r.mapM (Markup.render c) <;> rfl

def ornaments : Text := " …┏━┳┓┃┡╇┩│└─┴┘"

section Count

variable {p : CodePoint → Bool} (hp : ∀ x ∈ ornaments, p x = false)

theorem countP_joinWith {sep : Text} (hsep : sep.countP p = 0) (parts : List Text) :
    (joinWith sep parts).countP p = (parts.map fun part => part.countP p).sum := by
  unfold joinWith
  induction parts with
  | nil => rfl
  | cons part parts ih =>
    cases parts with
    | nil => simp
    | cons next parts =>
      rw [List.intercalate_cons_cons, List.countP_append, List.countP_append, ih, hsep]
      simp

theorem countP_rowLine {stroke : CodePoint} (hstroke : p stroke = false) (parts : List Text) :
    (rowLine stroke parts).countP p = (parts.map fun part => part.countP p).sum := by
  have hone : [stroke].countP p = 0 := by simp [hstroke]
  simp [rowLine, Text.concat, countP_joinWith hone, hstroke]

theorem countP_horizontal {r : Strokes} (hleft : p r.left = false) (hline : p r.line = false)
    (hcrossing : p r.crossing = false) (hright : p r.right = false) (widths : List Nat) :
    (horizontal r widths).countP p = 0 := by
  have hone : [r.crossing].countP p = 0 := by simp [hcrossing]
  have hparts : (widths.map fun w => List.replicate w r.line).map (fun part => part.countP p) =
      widths.map fun _ => 0 := by
    rw [List.map_map]
    exact List.map_congr_left fun w _ => by simp [List.countP_replicate, hline]
  simp [horizontal, Text.concat, countP_joinWith hone, hleft, hright, hparts]

theorem sum_getD_le (ls : List Text) (height : Nat) :
    ((List.range height).map fun k => (ls.getD k []).countP p).sum ≤ ls.flatten.countP p := by
  induction ls generalizing height with
  | nil => simp
  | cons l ls ih =>
    cases height with
    | zero => simp
    | succ height =>
      rw [List.range_succ_eq_map, List.map_cons, List.sum_cons, List.map_map, List.flatten_cons,
        List.countP_append]
      exact Nat.add_le_add_left (ih height) _

theorem sum_sum_comm {α β : Type} (f : α → β → Nat) (xs : List α) (ys : List β) :
    (xs.map fun a => (ys.map (f a)).sum).sum =
      (ys.map fun b => (xs.map fun a => f a b).sum).sum := by
  induction ys with
  | nil => simp
  | cons b ys ih => simp only [List.map_cons, List.sum_cons, List.sum_map_add, ih]

include hp

theorem countP_filled (above : Bool) (height : Nat) (cell : Cell) :
    (Cell.filled above height cell).flatten.countP p = cell.lines.flatten.countP p := by
  have hspace : p (CodePoint.scalar ' ') = false := hp _ (by decide)
  have hblanks : (List.replicate (height - cell.lines.length)
      (List.replicate cell.width (CodePoint.scalar ' '))).flatten.countP p = 0 := by
    simp [List.countP_replicate, hspace]
  unfold Cell.filled
  dsimp only
  split <;> rw [List.flatten_append, List.countP_append, hblanks] <;> simp

theorem countP_rowLines_le (stroke : CodePoint) (hstroke : p stroke = false) (above : Bool)
    (row : List Cell) : (rowLines stroke above row).flatten.countP p ≤
      (row.map fun cell => cell.lines.flatten.countP p).sum := by
  unfold rowLines
  simp only [List.countP_flatten, List.map_map, Function.comp_def, countP_rowLine hstroke]
  rw [sum_sum_comm]
  refine List.sum_le_sum fun cell _ => ?_
  calc _ ≤ (Cell.filled above _ cell).flatten.countP p := sum_getD_le _ _
    _ = cell.lines.flatten.countP p := countP_filled hp _ _ _
    _ = _ := by rw [List.countP_flatten]

theorem countP_drawn_le (widths : List Nat) (heading : List Cell) (rows : List (List Cell)) :
    (drawn widths heading rows).flatten.countP p ≤
      ((heading :: rows).map fun row =>
        (row.map fun cell => cell.lines.flatten.countP p).sum).sum := by
  have hrow := fun row => countP_rowLines_le hp '│' (hp _ (by decide)) false row
  have hrows : (rows.flatMap (rowLines '│' false)).flatten.countP p ≤
      (rows.map fun row => (row.map fun cell => cell.lines.flatten.countP p).sum).sum := by
    induction rows with
    | nil => simp
    | cons row rows ih =>
      rw [List.flatMap_cons, List.flatten_append, List.countP_append, List.map_cons, List.sum_cons]
      exact Nat.add_le_add (hrow row) ih
  have hheading := countP_rowLines_le hp '┃' (hp _ (by decide)) true heading
  have htop := countP_horizontal (r := ⟨'┏', '━', '┳', '┓'⟩) (hp _ (by decide)) (hp _ (by decide))
    (hp _ (by decide)) (hp _ (by decide)) widths
  have hmiddle := countP_horizontal (r := ⟨'┡', '━', '╇', '┩'⟩) (hp _ (by decide))
    (hp _ (by decide)) (hp _ (by decide)) (hp _ (by decide)) widths
  have hbottom := countP_horizontal (r := ⟨'└', '─', '┴', '┘'⟩) (hp _ (by decide))
    (hp _ (by decide)) (hp _ (by decide)) (hp _ (by decide)) widths
  simp only [drawn, List.flatten_cons, List.flatten_nil, List.append_nil, List.flatten_append,
    List.countP_append, htop, hmiddle, hbottom, List.map_cons, List.sum_cons]
  omega

theorem countP_cell_le (side : Side) (width : Nat) (t : Text) :
    (cell side width t).lines.flatten.countP p ≤ t.countP p := by
  have hspace : p (CodePoint.scalar ' ') = false := hp _ (by decide)
  have hframe (l : Text) : (Text.concat [" ", l, " "]).countP p ≤ l.countP p := by
    have hone : (Text.ofString " ").countP p = 0 := countP_spaces hspace 1
    simp [Text.concat, hone]
  unfold cell
  dsimp only
  split
  · simp
  · exact (countP_flatten_map_le hframe _).trans
      (countP_wrap_le hspace (hp _ (by decide)) side (width - 2) t)

theorem countP_cells_le (sides : List Side) (widths : List Nat) (row : List Text) :
    ((cells sides widths row).map fun cell => cell.lines.flatten.countP p).sum ≤
      (row.map fun t => t.countP p).sum := by
  unfold cells
  generalize sides.zip widths = columns
  induction columns generalizing row with
  | nil => simp
  | cons column columns ih =>
    cases row with
    | nil => simp
    | cons t row =>
      rw [List.zipWith_cons_cons, List.map_cons, List.sum_cons, List.map_cons, List.sum_cons]
      exact Nat.add_le_add (countP_cell_le hp _ _ t) (ih row)

theorem countP_framed_le_drawn (width : Nat) (sides : List Side) (heading : List Text)
    (rows : List (List Text)) :
    let ws := widths width sides.length (heading :: rows)
    (framed width sides heading rows).flatten.countP p ≤
      (drawn ws (cells sides ws heading) (rows.map (cells sides ws))).flatten.countP p := by
  intro ws
  unfold framed
  dsimp only
  split
  · exact countP_flatten_map_le (countP_crop_le (hp _ (by decide)) width) _
  · exact le_rfl

/-- A table shows no more of a code point than its texts hold, ornaments apart. -/
theorem countP_framed_le (width : Nat) (sides : List Side) (heading : List Text)
    (rows : List (List Text)) : (framed width sides heading rows).flatten.countP p ≤
      ((heading :: rows).map fun row => (row.map fun t => t.countP p).sum).sum := by
  refine (countP_framed_le_drawn hp width sides heading rows).trans
    ((countP_drawn_le hp _ _ _).trans ?_)
  rw [← List.map_cons (f := cells sides _), List.map_map]
  exact List.sum_le_sum fun row _ => countP_cells_le hp _ _ row

end Count

section Widths

@[simp] theorem length_narrow (widest most excess count : Nat) (ws : List Nat) :
    (narrow widest most excess count ws).length = ws.length := by
  induction ws generalizing excess count with
  | nil => rfl
  | cons w ws ih =>
    rw [narrow]
    split <;> simp [ih]

theorem forall_mem_narrow_le {bound : Nat} {widest most excess count : Nat} {ws : List Nat}
    (h : ∀ w ∈ ws, w ≤ bound) : ∀ w ∈ narrow widest most excess count ws, w ≤ bound := by
  induction ws generalizing excess count with
  | nil => simp [narrow]
  | cons w ws ih =>
    obtain ⟨hw, hws⟩ := List.forall_mem_cons.1 h
    rw [narrow]
    split
    · exact List.forall_mem_cons.2 ⟨(Nat.sub_le _ _).trans hw, ih hws⟩
    · exact List.forall_mem_cons.2 ⟨hw, ih hws⟩

theorem length_collapse (room : Nat) (ws : List Nat) : (collapse room ws).length = ws.length := by
  induction ws using collapse.induct room with
  | case1 ws h ih =>
    rw [collapse, dif_pos h, ih]
    exact length_narrow _ _ _ _ ws
  | case2 ws h => rw [collapse, dif_neg h]

theorem forall_mem_collapse_le {bound room : Nat} {ws : List Nat} (h : ∀ w ∈ ws, w ≤ bound) :
    ∀ w ∈ collapse room ws, w ≤ bound := by
  induction ws using collapse.induct room with
  | case1 ws hnarrow ih =>
    rw [collapse, dif_pos hnarrow]
    exact ih (forall_mem_narrow_le h)
  | case2 ws hnarrow => rwa [collapse, dif_neg hnarrow]

theorem length_widths (width columns : Nat) (rows : List (List Text)) :
    (widths width columns rows).length = columns := by
  simp [widths, length_collapse]

theorem le_room_of_mem_widths {width columns : Nat} {rows : List (List Text)} {w : Nat}
    (hw : w ∈ widths width columns rows) : w ≤ width - (columns + 1) := by
  refine forall_mem_collapse_le (fun v hv => ?_) w hw
  obtain ⟨i, -, rfl⟩ := List.mem_map.1 hv
  exact Nat.min_le_left _ _

end Widths

section LastCell

variable {width k : Nat} {stroke x : CodePoint} {heading row : List Text} {m u v : Text}

/-- The width of the last column of a table that has one row, which ends in a text. -/
def lastWidth (width : Nat) (heading row : List Text) (m : Text) : Nat :=
  (widths width heading.length [heading, row ++ [m]]).getLastD 0

/-- The lines of a table that has one row, which ends in a text in one line. -/
def inOneLine (width : Nat) (heading row : List Text) (m : Text) : List Text :=
  let ws := widths width heading.length [heading, row ++ [m]]
  let sides := heading.map fun _ => Side.left
  let w := lastWidth width heading row m
  drawn ws (cells sides ws heading)
    [cells sides ws row ++ [⟨w, [Text.concat [" ", padded (w - 2) m, " "]]⟩]]

theorem le_foldl_max (n : Nat) (ns : List Nat) : n ≤ ns.foldl max n := by
  induction ns generalizing n with
  | nil => exact le_rfl
  | cons m ns ih => exact (Nat.le_max_left n m).trans (ih _)

theorem exists_rowLines_eq (stroke : CodePoint) (above : Bool) (row : List Cell) :
    ∃ ls, rowLines stroke above row = rowLine stroke (row.map fun cell =>
      (Cell.filled above (ls.length + 1) cell).getD 0 []) :: ls := by
  have hpos := le_foldl_max 1 (row.map fun cell => cell.lines.length)
  obtain ⟨height, hheight⟩ := Nat.exists_eq_add_of_lt hpos
  rw [Nat.zero_add] at hheight
  unfold rowLines
  dsimp only
  refine ⟨(List.range height).map fun k => rowLine stroke (row.map fun cell =>
    (Cell.filled above (height + 1) cell).getD (k + 1) []), ?_⟩
  rw [hheight, List.range_succ_eq_map, List.map_cons, List.map_map, List.length_map,
    List.length_range]
  rfl

theorem rowLine_concat_inj {parts : List Text} (h : rowLine stroke (parts ++ [u]) =
    rowLine stroke (parts ++ [v])) : u = v := by
  have hjoined : joinWith [stroke] (parts ++ [u]) = joinWith [stroke] (parts ++ [v]) := by
    simpa [rowLine, Text.concat] using h
  unfold joinWith at hjoined
  clear h
  induction parts with
  | nil => simpa using hjoined
  | cons part parts ih =>
    obtain ⟨first, rest, hrest⟩ := List.exists_cons_of_ne_nil (l := parts ++ [u]) (by simp)
    obtain ⟨first', rest', hrest'⟩ := List.exists_cons_of_ne_nil (l := parts ++ [v]) (by simp)
    rw [List.cons_append, List.cons_append, hrest, hrest', List.intercalate_cons_cons,
      List.intercalate_cons_cons, List.append_cancel_left_eq, ← hrest, ← hrest'] at hjoined
    exact ih hjoined

theorem drawn_inj (ws : List Nat) (heading : List Cell) {row row' : List Cell} :
    drawn ws heading [row] = drawn ws heading [row'] ↔
      rowLines '│' false row = rowLines '│' false row' := by
  simp [drawn]

/-- Rows that differ in their last cells only have the same lines only if these start alike. -/
theorem getD_lines_of_rowLines_eq {front : List Cell} {last last' : Cell}
    (h : rowLines stroke false (front ++ [last]) = rowLines stroke false (front ++ [last']))
    (hlines : last.lines ≠ []) (hlines' : last'.lines ≠ []) :
    last.lines.getD 0 [] = last'.lines.getD 0 [] := by
  obtain ⟨ls, hls⟩ := exists_rowLines_eq stroke false (front ++ [last])
  obtain ⟨ls', hls'⟩ := exists_rowLines_eq stroke false (front ++ [last'])
  rw [hls, hls', List.cons.injEq] at h
  obtain ⟨hfirst, rfl⟩ := h
  rw [List.map_append, List.map_append, List.map_singleton, List.map_singleton] at hfirst
  have hcell := rowLine_concat_inj hfirst
  obtain ⟨l, rest, hl⟩ := List.exists_cons_of_ne_nil hlines
  obtain ⟨l', rest', hl'⟩ := List.exists_cons_of_ne_nil hlines'
  simp only [Cell.filled, hl, hl', Bool.false_eq_true, if_false, List.cons_append,
    List.getD_cons_zero] at hcell ⊢
  exact hcell

theorem frame_inj {l l' : Text} :
    Text.concat [" ", l, " "] = Text.concat [" ", l', " "] ↔ l = l' := by
  simp [Text.concat]

variable {a b c a' b' : Text}

theorem exists_widths_three (width : Nat) (a b c a' b' m : Text) : ∃ i j k,
    widths width 3 [[a, b, c], [a', b', m]] = [i, j, k] ∧
      lastWidth width [a, b, c] [a', b'] m = k := by
  obtain ⟨i, j, k, h⟩ := List.length_eq_three.1 (length_widths width 3 [[a, b, c], [a', b', m]])
  exact ⟨i, j, k, h, by simp [lastWidth, h]⟩

/-- A last column without room for more than the spaces leaves nothing of its text in the table. -/
theorem not_mem_framed (hnarrow : lastWidth width [a, b, c] [a', b'] m ≤ 2)
    (hornament : x ∉ ornaments) (hothers : ∀ t ∈ [a, b, c, a', b'], x ∉ t) :
    x ∉ (framed width [.left, .left, .left] [a, b, c] [[a', b', m]]).flatten := by
  obtain ⟨i, j, k, hws, hk⟩ := exists_widths_three width a b c a' b' m
  have hp : ∀ y ∈ ornaments, decide (y = x) = false :=
    fun y hy => decide_eq_false fun heq => hornament (heq ▸ hy)
  have hcell (side : Side) (n : Nat) (t : Text) (ht : t ∈ [a, b, c, a', b']) :
      (cell side n t).lines.flatten.countP (· = x) = 0 := by
    have hzero : t.countP (· = x) = 0 :=
      List.countP_eq_zero.2 fun y hy heq => hothers t ht (of_decide_eq_true heq ▸ hy)
    exact Nat.eq_zero_of_le_zero ((countP_cell_le hp side n t).trans hzero.le)
  have hlast : (cell .left k m).lines = [] := by simp [cell, ← hk, hnarrow]
  have hle := (countP_framed_le_drawn hp width [.left, .left, .left] [a, b, c]
    [[a', b', m]]).trans (countP_drawn_le hp _ _ _)
  simp only [List.length_cons, List.length_nil, Nat.reduceAdd, hws, cells, List.zip_cons_cons,
    List.zip_nil_right, List.zipWith_cons_cons, List.zipWith_nil_right, List.map_cons,
    List.map_nil, List.sum_cons, List.sum_nil, hlast, hcell _ _ a (by simp),
    hcell _ _ b (by simp), hcell _ _ c (by simp), hcell _ _ a' (by simp),
    hcell _ _ b' (by simp), List.flatten_nil, List.countP_nil, Nat.add_zero] at hle
  intro hmem
  exact List.countP_eq_zero.1 (Nat.eq_zero_of_le_zero hle) x hmem (decide_eq_true rfl)

theorem exists_mem_inOneLine (width : Nat) (a b c a' b' m : Text) :
    ∃ l ∈ inOneLine width [a, b, c] [a', b'] m, m <:+: l := by
  obtain ⟨i, j, k, hws, hk⟩ := exists_widths_three width a b c a' b' m
  let told : Text := Text.concat [" ", padded (k - 2) m, " "]
  let row : List Cell := [cell .left i a', cell .left j b', ⟨k, [told]⟩]
  obtain ⟨ls, hls⟩ := exists_rowLines_eq '│' false row
  refine ⟨rowLine '│' (row.map fun cell => (Cell.filled false (ls.length + 1) cell).getD 0 []),
    ?_, ?_⟩
  · have hfirst : rowLine '│' (row.map fun cell =>
        (Cell.filled false (ls.length + 1) cell).getD 0 []) ∈ rowLines '│' false row := by
      rw [hls]
      exact List.mem_cons_self
    have htold : inOneLine width [a, b, c] [a', b'] m =
        drawn [i, j, k] [cell .left i a, cell .left j b, cell .left k c] [row] := by
      simp [inOneLine, hws, hk, cells, row, told]
    rw [htold]
    exact List.mem_flatten.2 ⟨rowLines '│' false row, by simp, hfirst⟩
  · have hcell : told ∈ row.map fun cell => (Cell.filled false (ls.length + 1) cell).getD 0 [] :=
      List.mem_map.2 ⟨⟨k, [told]⟩, by simp [row], rfl⟩
    have htold : m <:+: told :=
      List.infix_append_of_infix_right (List.infix_append_of_infix_left List.infix_append_left)
    exact List.infix_append_of_infix_right
      (List.infix_append_of_infix_left (htold.trans (infix_joinWith hcell)))

/-- A last cell stands in one line just when its column has room for it, on both sides of which
there is a space. -/
theorem framed_eq_inOneLine_iff (width : Nat) (hlast : m.getLast? = some x) (hx : ¬x.isBlank)
    (hornament : x ∉ ornaments) (hothers : ∀ t ∈ [a, b, c, a', b'], x ∉ t) :
    framed width [.left, .left, .left] [a, b, c] [[a', b', m]] =
        inOneLine width [a, b, c] [a', b'] m ↔
      2 < lastWidth width [a, b, c] [a', b'] m ∧ Unaltered m ∧ CodePoint.scalar '\n' ∉ m ∧
        m.width ≤ lastWidth width [a, b, c] [a', b'] m - 2 := by
  obtain ⟨i, j, k, hws, hk⟩ := exists_widths_three width a b c a' b' m
  let front : List Cell := [cell .left i a', cell .left j b']
  let told : Cell := ⟨k, [Text.concat [" ", padded (k - 2) m, " "]]⟩
  have hcells (hwide : 2 < k) : framed width [.left, .left, .left] [a, b, c] [[a', b', m]] =
      inOneLine width [a, b, c] [a', b'] m ↔
        rowLines '│' false (front ++ [cell .left k m]) = rowLines '│' false (front ++ [told]) := by
    have hmem : k ∈ widths width 3 [[a, b, c], [a', b', m]] := by simp [hws]
    have hroom : k ≤ width - 4 := le_room_of_mem_widths hmem
    have hfits : ¬width < 4 := by omega
    rw [← drawn_inj [i, j, k] [cell .left i a, cell .left j b, cell .left k c]]
    simp [framed, inOneLine, hws, hk, cells, front, told, hfits]
  rw [hk]
  constructor
  · intro h
    have hwide : 2 < k := by
      by_contra hnarrow
      have hnot : x ∉ (framed width [.left, .left, .left] [a, b, c] [[a', b', m]]).flatten :=
        not_mem_framed (hk ▸ Nat.not_lt.1 hnarrow) hornament hothers
      rw [h] at hnot
      obtain ⟨l, hl, hm⟩ := exists_mem_inOneLine width a b c a' b' m
      exact hnot (List.mem_flatten_of_mem hl (hm.subset (List.mem_of_getLast? hlast)))
    have hne : wrap .left (k - 2) m ≠ [] := wrap_ne_nil
    obtain ⟨l, ls, hwrap⟩ := List.exists_cons_of_ne_nil hne
    have hlines : (cell .left k m).lines =
        Text.concat [" ", l, " "] :: ls.map fun l => Text.concat [" ", l, " "] := by
      simp [cell, Nat.not_le.2 hwide, hwrap]
    have hfirst := getD_lines_of_rowLines_eq ((hcells hwide).1 h) (by simp [hlines])
      (by simp [told])
    rw [hlines, List.getD_cons_zero, List.getD_cons_zero, frame_inj] at hfirst
    subst hfirst
    exact ⟨hwide, eq_of_wrap_eq_cons hlast hx (fun heq => hornament (heq ▸ by decide)) hwrap⟩
  · intro h
    obtain ⟨hwide, hunaltered, hfeed, hroom⟩ := h
    have hcell : cell .left k m = told := by
      have hwrap := wrap_eq_padded hunaltered hfeed (trimEnd_eq_self hlast hx) hroom
      simp [cell, told, Nat.not_le.2 hwide, hwrap]
    rw [hcells hwide, hcell]

end LastCell

end Table

end BundleGraph.Console
