import BundleGraph.Console.Output
import BundleGraph.Proofs.Console.Markup
import BundleGraph.Proofs.Console.Table

/-!
# What is printed

A marked-up text can be printed if its tags match, no style in it is at fault and the terminal can
write what it shows, and a table if its cells can. A list of blocks is printed to its end just when
each of them can be printed.
-/
namespace BundleGraph.Console

open Text
open Markup (Shows Untagged)
open Emoji (Settled Codeless)

variable {c : Terminal} {b : Block} {bs cs : List Block} {p t u v : Text}

def Writes (c : Terminal) (t : Text) : Prop := ∀ x ∈ t, c.writes x

theorem writes_append : Writes c (t ++ u) ↔ Writes c t ∧ Writes c u := List.forall_mem_append

theorem writes_of_wellFormed (h : WellFormed t) : Writes c t := by
  intro x hx
  simp [Terminal.writes, h x hx]

theorem writes_unlines {ls : List Text} (h : ∀ l ∈ ls, Writes c l) : Writes c (unlines ls) := by
  intro x hx
  by_cases hfeed : x = CodePoint.scalar '\n'
  · subst hfeed
    rfl
  · obtain ⟨l, hl, hx⟩ := (mem_unlines hfeed).1 hx
    exact h l hl x hx

theorem writes_layOut (h : Writes c t) {width : Nat} : Writes c (unlines (layOut width t)) := by
  refine writes_unlines fun l hl x hx => ?_
  by_cases hspace : x = CodePoint.scalar ' '
  · subst hspace
    rfl
  · exact h x (mem_of_mem_layOut hspace hl hx)

/-- A marked-up text that can be printed in any line, whichever of its styles are used. -/
structure Printable (c : Terminal) (t : Text) : Prop where
  readable : ∃ u, Markup.read c t = .ok u ∧ Writes c u
  legible : Markup.Legible c t

/-- A line whose tags match and of which the terminal can write what it shows. -/
def Drawn (c : Terminal) (line : Text) : Prop :=
  ∃ u, Markup.read c line = .ok u ∧ Writes c (unlines (layOut c.width u))

def Block.Prints (c : Terminal) (b : Block) : Prop := ∃ u, b.render c = .ok u

/-- A text that is printed as it stands, whatever stands behind it. -/
structure Plain (t : Text) : Prop where
  untagged : Untagged t
  settled : Settled t
  unaltered : Unaltered t
  wellFormed : WellFormed t

instance (t : Text) : Decidable (Plain t) :=
  decidable_of_iff (Untagged t ∧ Settled t ∧ Unaltered t ∧ WellFormed t)
    ⟨fun ⟨h₁, h₂, h₃, h₄⟩ => ⟨h₁, h₂, h₃, h₄⟩, fun ⟨h₁, h₂, h₃, h₄⟩ => ⟨h₁, h₂, h₃, h₄⟩⟩

theorem emitted_eq_ok_iff : emitted c t = .ok u ↔ Writes c t ∧ t = u := by
  unfold emitted
  cases h : t.findIdx? fun x => !c.writes x with
  | none =>
    have ht : Writes c t := fun x hx => by simpa using List.findIdx?_eq_none_iff.1 h x hx
    simp [ht]
  | some i =>
    have ht : ¬Writes c t := by
      intro ht
      have hnone : t.findIdx? (fun x => !c.writes x) = none :=
        List.findIdx?_eq_none_iff.2 fun x hx => by simpa using ht x hx
      simp [hnone] at h
    simp [ht]

theorem render_marked_eq_ok_iff : (Block.marked t).render c = .ok u ↔
    ∃ v, Markup.render c t = .ok v ∧ Writes c (unlines (layOut c.width v)) ∧
      unlines (layOut c.width v) = u := by
  cases h : Markup.render c t with
  | error f => simp [Block.render, h, Except.bind]
  | ok v => simp [Block.render, h, Except.bind, emitted_eq_ok_iff]

theorem drawn_of_prints (h : (Block.marked t).Prints c) : Drawn c t := by
  obtain ⟨_, h⟩ := h
  obtain ⟨v, hv, hwrites, -⟩ := render_marked_eq_ok_iff.1 h
  exact ⟨v, Markup.read_of_render hv, hwrites⟩

theorem Printable.prints (h : Printable c t) : (Block.marked t).Prints c := by
  obtain ⟨u, hu, hwrites⟩ := h.readable
  exact ⟨_, render_marked_eq_ok_iff.2 ⟨u, (Markup.render_of_legible h.legible).trans hu,
    writes_layOut hwrites, rfl⟩⟩

theorem printable_of_shows (h : Shows c t u) (hu : Writes c u) : Printable c t :=
  ⟨⟨u, h.read_eq, hu⟩, h.legible⟩

theorem Plain.shows (h : Plain t) : Shows c t t := Markup.shows_of_untagged h.untagged h.settled

theorem Plain.printable (h : Plain t) : Printable c t :=
  printable_of_shows h.shows (writes_of_wellFormed h.wellFormed)

theorem Plain.append (ht : Plain t) (hu : Plain u) : Plain (t ++ u) :=
  ⟨Markup.untagged_append.2 ⟨ht.untagged, hu.untagged⟩, ht.settled.append hu.settled,
    unaltered_append.2 ⟨ht.unaltered, hu.unaltered⟩,
    wellFormed_append.2 ⟨ht.wellFormed, hu.wellFormed⟩⟩

theorem printable_append_iff (h : Shows c p u) (hu : Writes c u) :
    Printable c (p ++ t) ↔ Printable c t := by
  have hread : (∃ w, Markup.read c (p ++ t) = .ok w ∧ Writes c w) ↔
      ∃ w, Markup.read c t = .ok w ∧ Writes c w := by
    rw [h.read_append]
    cases Markup.read c t with
    | error f => simp [Except.map]
    | ok v => simp [Except.map, writes_append, hu]
  exact ⟨fun hp => ⟨hread.1 hp.readable, (h.legible_append_iff t).1 hp.legible⟩,
    fun ht => ⟨hread.2 ht.readable, (h.legible_append_iff t).2 ht.legible⟩⟩

theorem render_table_eq_ok_iff {t : Table} : (Block.table t).render c = .ok u ↔
    ∃ ls, t.lines c = .ok ls ∧ Writes c (unlines ls) ∧ unlines ls = u := by
  cases h : t.lines c with
  | error f => simp [Block.render, h, Except.bind]
  | ok ls => simp [Block.render, h, Except.bind, emitted_eq_ok_iff]

theorem writes_framed {sides : List Side} {heading : List Text} {rows : List (List Text)}
    (h : ∀ row ∈ heading :: rows, ∀ t ∈ row, Writes c t) :
    Writes c (unlines (Table.framed c.width sides heading rows)) := by
  refine writes_unlines fun l hl x hx => ?_
  have hp : ∀ y ∈ Table.ornaments, (!c.writes y) = false := by
    have hall : WellFormed Table.ornaments := by decide
    intro y hy
    simp [writes_of_wellFormed (c := c) hall y hy]
  have hzero : ((heading :: rows).map fun row =>
      (row.map fun t => t.countP fun y => !c.writes y).sum).sum = 0 := by
    refine List.sum_eq_zero fun n hn => ?_
    obtain ⟨row, hrow, rfl⟩ := List.mem_map.1 hn
    refine List.sum_eq_zero fun k hk => ?_
    obtain ⟨t, ht, rfl⟩ := List.mem_map.1 hk
    exact List.countP_eq_zero.2 fun y hy => by simp [h row hrow t ht y hy]
  have hle := Table.countP_framed_le hp c.width sides heading rows
  rw [hzero] at hle
  simpa using List.countP_eq_zero.1 (Nat.eq_zero_of_le_zero hle) x (List.mem_flatten_of_mem hl hx)

theorem prints_table {t : Table} (hheading : ∀ column ∈ t.columns, Printable c column.heading)
    (hrows : ∀ r ∈ t.rows, ∀ cell ∈ r, Printable c cell) : (Block.table t).Prints c := by
  have hrender : ∀ t, Printable c t → ∃ u, Markup.render c t = .ok u ∧ Writes c u := by
    intro t ht
    obtain ⟨u, hu, hwrites⟩ := ht.readable
    exact ⟨u, (Markup.render_of_legible ht.legible).trans hu, hwrites⟩
  obtain ⟨heading, hheading, hheading'⟩ :=
    exists_mapM_eq_ok fun column hcolumn => hrender _ (hheading column hcolumn)
  obtain ⟨rows, hrows, hrows'⟩ := exists_mapM_eq_ok fun r hr =>
    exists_mapM_eq_ok fun cell hcell => hrender _ (hrows r hr cell hcell)
  have hls := Table.lines_eq hheading
  rw [hrows] at hls
  exact ⟨_, render_table_eq_ok_iff.2 ⟨_, hls,
    writes_framed (List.forall_mem_cons.2 ⟨hheading', hrows'⟩), rfl⟩⟩

theorem print_of_forall (h : ∀ b ∈ bs, b.Prints c) : (print c bs).2 = none := by
  induction bs with
  | nil => rfl
  | cons b bs ih =>
    obtain ⟨⟨u, hu⟩, hbs⟩ := List.forall_mem_cons.1 h
    simpa [print, hu] using ih hbs

theorem forall_of_print (h : (print c bs).2 = none) : ∀ b ∈ bs, b.Prints c := by
  induction bs with
  | nil => simp
  | cons b bs ih =>
    cases hb : b.render c with
    | error f => simp [print, hb] at h
    | ok u => exact List.forall_mem_cons.2 ⟨⟨u, hb⟩, ih (by simpa [print, hb] using h)⟩

theorem print_append (h : (print c bs).2 = none) :
    print c (bs ++ cs) = ((print c bs).1 ++ (print c cs).1, (print c cs).2) := by
  induction bs with
  | nil => rfl
  | cons b bs ih =>
    cases hb : b.render c with
    | error f => simp [print, hb] at h
    | ok u =>
      have ih := ih (by simpa [print, hb] using h)
      simp [print, hb, ih]

theorem print_append_of_fault {f : Fault} (h : (print c bs).2 = some f) :
    print c (bs ++ cs) = print c bs := by
  induction bs with
  | nil => simp [print] at h
  | cons b bs ih =>
    cases hb : b.render c with
    | error f => simp [print, hb]
    | ok u =>
      have ih := ih (by simpa [print, hb] using h)
      simp [print, hb, ih]

/-- A last block adds a text just when all blocks before it are printed and it shows that text. -/
theorem print_concat_eq_iff (ht : t ≠ []) :
    (print c (bs ++ [b])).1 = (print c bs).1 ++ t ↔ (print c bs).2 = none ∧ b.render c = .ok t := by
  cases h : (print c bs).2 with
  | none =>
    rw [print_append h, List.append_cancel_left_eq]
    cases hb : b.render c with
    | error f => simp [print, hb, Ne.symm ht]
    | ok u => simp [print, hb]
  | some f =>
    rw [print_append_of_fault h]
    simp [ht]

theorem not_mem_print {x : CodePoint} (h : ∀ b ∈ bs, ∀ u, b.render c = .ok u → x ∉ u) :
    x ∉ (print c bs).1 := by
  induction bs with
  | nil => simp [print]
  | cons b bs ih =>
    obtain ⟨hb, hbs⟩ := List.forall_mem_cons.1 h
    cases hrender : b.render c with
    | error f => simp [print, hrender]
    | ok u =>
      rw [print, hrender]
      simp [hb u hrender, ih hbs]

/-- A marked-up text brings nothing to the console but what it shows and line feeds and spaces. -/
theorem not_mem_of_render_marked {x : CodePoint} (hspace : x ≠ CodePoint.scalar ' ')
    (hfeed : x ≠ CodePoint.scalar '\n') (h : ∀ v, Markup.read c t = .ok v → x ∉ v)
    (hu : (Block.marked t).render c = .ok u) : x ∉ u := by
  obtain ⟨v, hv, -, rfl⟩ := render_marked_eq_ok_iff.1 hu
  intro hx
  obtain ⟨l, hl, hx⟩ := (mem_unlines hfeed).1 hx
  exact h v (Markup.read_of_render hv) (mem_of_mem_layOut hspace hl hx)

theorem Plain.bracket_not_mem (ht : Plain t) (hu : (Block.marked t).render c = .ok u) :
    CodePoint.scalar '[' ∉ u := by
  refine not_mem_of_render_marked (by decide) (by decide) ?_ hu
  intro v hv hmem
  rw [ht.shows.read_eq] at hv
  obtain rfl := Except.ok.inj hv
  exact (ht.untagged _ hmem).1 rfl

end BundleGraph.Console
