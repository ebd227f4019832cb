import Mathlib.Tactic

/-!
# The first of a list

A diagnostic names the first element with a property, or the first place where an element does not
go with those before it; where a name stands for several things, the last one counts. These notions
say how the list splits there, so none depends on the way in which a list is searched. A list
without its repetitions keeps each element where it stands first.
-/
namespace BundleGraph

variable {α β : Type*}

/-- `x` is the first element of `l` that has the property `p`. -/
def IsFirst (p : α → Prop) (l : List α) (x : α) : Prop :=
  ∃ before after, l = before ++ x :: after ∧ p x ∧ ∀ y ∈ before, ¬p y

/-- `x` is the last element of `l` that has the property `p`. -/
def IsLast (p : α → Prop) (l : List α) (x : α) : Prop :=
  ∃ before after, l = before ++ x :: after ∧ p x ∧ ∀ y ∈ after, ¬p y

/-- `x`, with `before` in front of it, stands at the first place of `l` where `p` holds. -/
def IsFirstAt (p : List α → α → Prop) (l before : List α) (x : α) : Prop :=
  (∃ after, l = before ++ x :: after) ∧ p before x ∧
    ∀ before' y after', before = before' ++ y :: after' → ¬p before' y

namespace IsFirst

variable {p q : α → Prop} {l : List α} {x y : α}

theorem mem (h : IsFirst p l x) : x ∈ l := by
  obtain ⟨before, after, rfl, _⟩ := h
  simp

theorem holds (h : IsFirst p l x) : p x := by
  obtain ⟨_, _, _, hx, _⟩ := h
  exact hx

end IsFirst

theorem not_isFirst_nil (p : α → Prop) (x : α) : ¬IsFirst p [] x := by
  intro h
  obtain ⟨before, after, h, _⟩ := h
  simp at h

theorem isFirst_cons {p : α → Prop} {a : α} {l : List α} {x : α} :
    IsFirst p (a :: l) x ↔ p a ∧ x = a ∨ ¬p a ∧ IsFirst p l x := by
  constructor
  · intro h
    obtain ⟨before, after, hl, hx, hbefore⟩ := h
    cases before with
    | nil =>
      simp only [List.nil_append, List.cons.injEq] at hl
      obtain ⟨rfl, -⟩ := hl
      exact .inl ⟨hx, rfl⟩
    | cons b before =>
      simp only [List.cons_append, List.cons.injEq] at hl
      obtain ⟨rfl, rfl⟩ := hl
      exact .inr ⟨hbefore a (by simp), before, after, rfl, hx,
        fun y hy => hbefore y (by simp [hy])⟩
  · rintro (⟨ha, rfl⟩ | ⟨ha, before, after, rfl, hx, hbefore⟩)
    · exact ⟨[], l, rfl, ha, by simp⟩
    · refine ⟨a :: before, after, rfl, hx, ?_⟩
      rintro y (_ | ⟨_, hy⟩)
      · exact ha
      · exact hbefore y hy

theorem IsFirst.unique {p : α → Prop} {l : List α} {x y : α} (hx : IsFirst p l x)
    (hy : IsFirst p l y) : x = y := by
  induction l with
  | nil => exact absurd hx (not_isFirst_nil p x)
  | cons a l ih =>
    rcases isFirst_cons.1 hx with ⟨ha, rfl⟩ | ⟨ha, hx⟩
    · rcases isFirst_cons.1 hy with ⟨_, rfl⟩ | ⟨hna, _⟩
      · rfl
      · exact absurd ha hna
    · rcases isFirst_cons.1 hy with ⟨hpa, _⟩ | ⟨_, hy⟩
      · exact absurd hpa ha
      · exact ih hx hy

theorem exists_isFirst_iff {p : α → Prop} {l : List α} :
    (∃ x, IsFirst p l x) ↔ ∃ x ∈ l, p x := by
  constructor
  · intro h
    obtain ⟨x, hx⟩ := h
    exact ⟨x, hx.mem, hx.holds⟩
  · intro h
    obtain ⟨x, hx, hp⟩ := h
    induction l with
    | nil => simp at hx
    | cons a l ih =>
      by_cases ha : p a
      · exact ⟨a, isFirst_cons.2 (.inl ⟨ha, rfl⟩)⟩
      · have hxl : x ∈ l := by
          rcases List.mem_cons.1 hx with rfl | hx
          · exact absurd hp ha
          · exact hx
        obtain ⟨y, hy⟩ := ih hxl
        exact ⟨y, isFirst_cons.2 (.inr ⟨ha, hy⟩)⟩

theorem isFirst_congr {p q : α → Prop} {l : List α} {x : α} (h : ∀ y ∈ l, (p y ↔ q y)) :
    IsFirst p l x ↔ IsFirst q l x := by
  induction l with
  | nil => simp [not_isFirst_nil]
  | cons a l ih =>
    rw [isFirst_cons, isFirst_cons, h a (by simp), ih fun y hy => h y (by simp [hy])]

theorem isFirst_map {p : β → Prop} {f : α → β} {l : List α} {y : β} :
    IsFirst p (l.map f) y ↔ ∃ x, IsFirst (fun x => p (f x)) l x ∧ y = f x := by
  induction l with
  | nil => simp [not_isFirst_nil]
  | cons a l ih =>
    simp only [List.map_cons, isFirst_cons, ih]
    constructor
    · rintro (⟨ha, rfl⟩ | ⟨ha, x, hx, rfl⟩)
      · exact ⟨a, .inl ⟨ha, rfl⟩, rfl⟩
      · exact ⟨x, .inr ⟨ha, hx⟩, rfl⟩
    · rintro ⟨x, ⟨ha, rfl⟩ | ⟨ha, hx⟩, rfl⟩
      · exact .inl ⟨ha, rfl⟩
      · exact .inr ⟨ha, x, hx, rfl⟩

theorem isFirst_filter {p : α → Prop} {q : α → Bool} {l : List α} {x : α}
    (h : ∀ y ∈ l, p y → q y) : IsFirst p (l.filter q) x ↔ IsFirst p l x := by
  induction l with
  | nil => simp
  | cons a l ih =>
    have ih := ih fun y hy => h y (by simp [hy])
    by_cases ha : q a
    · rw [List.filter_cons_of_pos ha, isFirst_cons, isFirst_cons, ih]
    · have hpa : ¬p a := fun hp => ha (h a (by simp) hp)
      rw [List.filter_cons_of_neg (by simpa using ha), isFirst_cons, ih]
      simp [hpa]

theorem isFirst_reverse {p : α → Prop} {l : List α} {x : α} :
    IsFirst p l.reverse x ↔ IsLast p l x := by
  constructor
  · intro h
    obtain ⟨before, after, hl, hx, hbefore⟩ := h
    refine ⟨after.reverse, before.reverse, ?_, hx, fun y hy => hbefore y (List.mem_reverse.1 hy)⟩
    rw [← List.reverse_reverse l, hl]
    simp
  · intro h
    obtain ⟨before, after, rfl, hx, hafter⟩ := h
    exact ⟨after.reverse, before.reverse, by simp, hx, fun y hy => hafter y (List.mem_reverse.1 hy)⟩

theorem find?_eq_some_iff_isFirst {p : α → Bool} {l : List α} {x : α} :
    l.find? p = some x ↔ IsFirst (fun y => p y) l x := by
  rw [List.find?_eq_some_iff_append]
  constructor
  · intro h
    obtain ⟨hx, before, after, rfl, hbefore⟩ := h
    exact ⟨before, after, rfl, hx, fun y hy => by simpa using hbefore y hy⟩
  · intro h
    obtain ⟨before, after, rfl, hx, hbefore⟩ := h
    exact ⟨hx, before, after, rfl, fun y hy => by simpa using hbefore y hy⟩

theorem map_find?_eq_some_iff {p : α → Bool} {f : α → β} {l : List α} {b : β} :
    (l.find? p).map f = some b ↔ ∃ x, IsFirst (fun y => p y) l x ∧ b = f x := by
  simp only [Option.map_eq_some_iff, find?_eq_some_iff_isFirst, eq_comm (a := b)]

theorem findSome?_eq_some_iff_isFirst {f : α → Option β} {l : List α} {b : β} :
    l.findSome? f = some b ↔ ∃ x, IsFirst (fun y => (f y).isSome) l x ∧ f x = some b := by
  rw [List.findSome?_eq_some_iff]
  constructor
  · intro h
    obtain ⟨before, x, after, rfl, hx, hbefore⟩ := h
    exact ⟨x, ⟨before, after, rfl, by simp [hx], fun y hy => by simp [hbefore y hy]⟩, hx⟩
  · intro h
    obtain ⟨x, ⟨before, after, rfl, _, hbefore⟩, hx⟩ := h
    exact ⟨before, x, after, rfl, hx, fun y hy => by simpa using hbefore y hy⟩

/-- Something is found just if an element of `l` has the property `p`, and then the first one of
them is told. -/
structure TellsFirst (p : α → Prop) (l : List α) (told : α → β → Prop) (found : Option β) :
    Prop where
  none_iff : found = none ↔ ∀ x ∈ l, ¬p x
  some_iff : ∀ b, found = some b ↔ ∃ x, IsFirst p l x ∧ told x b

theorem tellsFirst_of_some_iff {p : α → Prop} {l : List α} {told : α → β → Prop}
    {found : Option β} (h : ∀ b, found = some b ↔ ∃ x, IsFirst p l x ∧ told x b)
    (htold : ∀ x ∈ l, p x → ∃ b, told x b) : TellsFirst p l told found where
  none_iff := by
    constructor
    · intro hnone x hx hp
      obtain ⟨y, hy⟩ := exists_isFirst_iff.2 ⟨x, hx, hp⟩
      obtain ⟨b, hb⟩ := htold y hy.mem hy.holds
      simpa [hnone] using (h b).2 ⟨y, hy, hb⟩
    · intro hkept
      rw [Option.eq_none_iff_forall_ne_some]
      intro b hb
      obtain ⟨x, hx, -⟩ := (h b).1 hb
      exact hkept x hx.mem hx.holds
  some_iff := h

theorem not_isFirstAt_nil (p : List α → α → Prop) (before : List α) (x : α) :
    ¬IsFirstAt p [] before x := by
  intro h
  obtain ⟨⟨after, h⟩, _⟩ := h
  simp at h

theorem isFirstAt_cons {p : List α → α → Prop} {a : α} {l before : List α} {x : α} :
    IsFirstAt p (a :: l) before x ↔ p [] a ∧ before = [] ∧ x = a ∨
      ¬p [] a ∧ ∃ before', before = a :: before' ∧
        IsFirstAt (fun b y => p (a :: b) y) l before' x := by
  constructor
  · intro h
    obtain ⟨⟨after, hl⟩, hx, hbefore⟩ := h
    cases before with
    | nil =>
      simp only [List.nil_append, List.cons.injEq] at hl
      obtain ⟨rfl, -⟩ := hl
      exact .inl ⟨hx, rfl, rfl⟩
    | cons b before =>
      simp only [List.cons_append, List.cons.injEq] at hl
      obtain ⟨rfl, rfl⟩ := hl
      refine .inr ⟨hbefore [] a before rfl, before, rfl, ⟨after, rfl⟩, hx, ?_⟩
      rintro before' y after' rfl
      exact hbefore (a :: before') y after' rfl
  · rintro (⟨ha, rfl, rfl⟩ | ⟨ha, before', rfl, ⟨after, rfl⟩, hx, hbefore⟩)
    · exact ⟨⟨l, rfl⟩, ha, by simp⟩
    · refine ⟨⟨after, rfl⟩, hx, ?_⟩
      rintro (_ | ⟨b, before''⟩) y after' h
      · simp only [List.nil_append, List.cons.injEq] at h
        exact h.1 ▸ ha
      · simp only [List.cons_append, List.cons.injEq] at h
        obtain ⟨rfl, rfl⟩ := h
        exact hbefore before'' y after' rfl

theorem IsFirstAt.unique {p : List α → α → Prop} {l before before' : List α} {x y : α}
    (hx : IsFirstAt p l before x) (hy : IsFirstAt p l before' y) : before = before' ∧ x = y := by
  induction l generalizing p before before' with
  | nil => exact absurd hx (not_isFirstAt_nil p before x)
  | cons a l ih =>
    rcases isFirstAt_cons.1 hx with ⟨ha, rfl, rfl⟩ | ⟨ha, b, rfl, hxl⟩
    · rcases isFirstAt_cons.1 hy with ⟨_, rfl, rfl⟩ | ⟨hna, _⟩
      · exact ⟨rfl, rfl⟩
      · exact absurd ha hna
    · rcases isFirstAt_cons.1 hy with ⟨hpa, _⟩ | ⟨_, b', rfl, hyl⟩
      · exact absurd hpa ha
      · obtain ⟨rfl, rfl⟩ := ih hxl hyl
        exact ⟨rfl, rfl⟩

theorem exists_isFirstAt {p : List α → α → Prop} {before : List α} {x : α} (after : List α)
    (h : p before x) : ∃ b y, IsFirstAt p (before ++ x :: after) b y := by
  induction before generalizing p with
  | nil => exact ⟨[], x, isFirstAt_cons.2 (.inl ⟨h, rfl, rfl⟩)⟩
  | cons a before ih =>
    by_cases ha : p [] a
    · exact ⟨[], a, isFirstAt_cons.2 (.inl ⟨ha, rfl, rfl⟩)⟩
    · obtain ⟨b, y, hy⟩ := ih (p := fun b y => p (a :: b) y) h
      exact ⟨a :: b, y, isFirstAt_cons.2 (.inr ⟨ha, b, rfl, hy⟩)⟩

theorem isFirstAt_append_singleton {p : List α → α → Prop} {l before : List α} {a x : α}
    (h : ¬p l a) : IsFirstAt p (l ++ [a]) before x ↔ IsFirstAt p l before x := by
  induction l generalizing p before with
  | nil =>
    simp only [List.nil_append, isFirstAt_cons, h, not_isFirstAt_nil]
    simp
  | cons b l ih =>
    simp only [List.cons_append, isFirstAt_cons, ih (p := fun b' y => p (b :: b') y) h]

theorem isFirstAt_congr {p q : List α → α → Prop} {l before : List α} {x : α}
    (h : ∀ b y, (p b y ↔ q b y)) : IsFirstAt p l before x ↔ IsFirstAt q l before x := by
  simp only [IsFirstAt, h]

section EraseDups

variable [BEq α] [LawfulBEq α]

/-- Without repetitions an element stands where it comes first. -/
theorem eraseDups_concat (l : List α) (x : α) :
    (l ++ [x]).eraseDups = if x ∈ l then l.eraseDups else l.eraseDups ++ [x] := by
  rw [List.eraseDups_append]
  split_ifs with h
  · simp [List.removeAll, h]
  · simp [List.removeAll, h, List.eraseDups_cons]

theorem nodup_eraseDups (l : List α) : l.eraseDups.Nodup := by
  induction l using List.reverseRecOn with
  | nil => exact List.nodup_nil
  | append_singleton l x ih =>
    rw [eraseDups_concat]
    split_ifs with h
    · exact ih
    · rw [← List.concat_eq_append]
      exact ih.concat (List.mem_eraseDups.not.2 h)

theorem eraseDups_of_nodup {l : List α} (h : l.Nodup) : l.eraseDups = l := by
  induction l using List.reverseRecOn with
  | nil => rfl
  | append_singleton l x ih =>
    have hx : x ∉ l ∧ l.Nodup := List.nodup_cons.1 (List.nodup_append_comm.1 h)
    rw [eraseDups_concat, if_neg hx.1, ih hx.2]

end EraseDups

end BundleGraph
