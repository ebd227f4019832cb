import BundleGraph.Files.Tree
import Mathlib.Tactic

/-!
# Lookups

A lookup finds an entry or none, unless the path leads through a closed directory or is too long, or
one of its names is. A name counts only if the names before it lead to a directory. A search upwards
is decided at the nearest place where the lookup does not find none.
-/
namespace BundleGraph.FileTree

/-- The names of a path before `name` lead to a directory. -/
def Reaches (t : FileTree) (p : Path) (l : Location) (name : Text) : Prop :=
  ∃ before after, p.parts = before ++ name :: after ∧ t.walk (t.start p) before = .ok l ∧
    t.entry? l = some .directory

/-- A path with too many bytes, or with a name of too many bytes in an open directory on the way. -/
def TooLong (t : FileTree) (p : Path) : Prop :=
  p.fault? = none ∧ (maxPathBytes < p.toText.nameSize ∨
    ∃ l name, t.Reaches p l name ∧ l ∉ t.closed ∧ name ≠ Path.up ∧ maxNameBytes < name.nameSize)

/-- A path that leads through a closed directory. -/
def Barred (t : FileTree) (p : Path) : Prop :=
  p.fault? = none ∧ p.toText.nameSize ≤ maxPathBytes ∧ ∃ l name, t.Reaches p l name ∧ l ∈ t.closed

variable {t : FileTree} {l : Location} {p : Path} {name : Text} {names rest : List Text} {f : Fault}
variable {e : LookupError}

theorem walk_cons (t : FileTree) (l : Location) (name : Text) (rest : List Text) :
    t.walk l (name :: rest) = (t.walk l [name]).bind fun l' => t.walk l' rest := by
  rw [walk, walk]
  cases t.entry? l with
  | none => rfl
  | some entry =>
    cases entry with
    | file bytes => rfl
    | directory =>
      simp only
      split_ifs <;> rfl

theorem walk_singleton_eq_nameTooLong_iff : t.walk l [name] = .error .nameTooLong ↔
    t.entry? l = some .directory ∧ l ∉ t.closed ∧ name ≠ Path.up ∧
      maxNameBytes < name.nameSize := by
  rw [walk]
  cases t.entry? l with
  | none => simp
  | some entry =>
    cases entry with
    | file bytes => simp
    | directory =>
      simp only [walk]
      split_ifs <;> simp_all

theorem walk_singleton_eq_forbidden_iff :
    t.walk l [name] = .error .forbidden ↔ t.entry? l = some .directory ∧ l ∈ t.closed := by
  rw [walk]
  cases t.entry? l with
  | none => simp
  | some entry =>
    cases entry with
    | file bytes => simp
    | directory =>
      simp only [walk]
      split_ifs <;> simp_all

theorem walk_cons_of_ok {l' : Location} (h : t.walk l [name] = .ok l') :
    t.walk l (name :: rest) = t.walk l' rest := by
  rw [walk_cons, h]
  rfl

theorem walk_cons_of_error (h : t.walk l [name] = .error e) :
    t.walk l (name :: rest) = .error e := by
  rw [walk_cons, h]
  rfl

/-- A walk fails at the first name that a place does not lead on from. -/
theorem walk_eq_error_iff : t.walk l names = .error e ↔
    ∃ before name after l', names = before ++ name :: after ∧ t.walk l before = .ok l' ∧
      t.walk l' [name] = .error e := by
  induction names generalizing l with
  | nil => simp [walk]
  | cons name names ih =>
    constructor
    · intro h
      cases hstep : t.walk l [name] with
      | ok l' =>
        rw [walk_cons_of_ok hstep, ih] at h
        obtain ⟨before, last, after, l'', rfl, hbefore, hlast⟩ := h
        exact ⟨name :: before, last, after, l'', rfl, by rwa [walk_cons_of_ok hstep], hlast⟩
      | error e' =>
        rw [walk_cons_of_error hstep] at h
        obtain rfl := Except.error.inj h
        exact ⟨[], name, names, l, rfl, by rw [walk], hstep⟩
    · rintro ⟨before, last, after, l', heq, hbefore, hlast⟩
      cases before with
      | nil =>
        obtain ⟨rfl, rfl⟩ := List.cons.inj heq
        rw [walk] at hbefore
        obtain rfl := Except.ok.inj hbefore
        exact walk_cons_of_error hlast
      | cons first before =>
        obtain ⟨rfl, rfl⟩ := List.cons.inj heq
        cases hstep : t.walk l [name] with
        | ok l'' =>
          rw [walk_cons_of_ok hstep] at hbefore ⊢
          exact ih.2 ⟨before, last, after, l', rfl, hbefore, hlast⟩
        | error e' =>
          rw [walk_cons_of_error hstep] at hbefore
          exact nomatch hbefore

/-- A walk along a path that fails in a directory fails there with what `q` says of a place and a
name. -/
theorem walk_parts_eq_error_iff {q : Location → Text → Prop}
    (h : ∀ l name, t.walk l [name] = .error e ↔ t.entry? l = some .directory ∧ q l name) :
    t.walk (t.start p) p.parts = .error e ↔ ∃ l name, t.Reaches p l name ∧ q l name := by
  rw [walk_eq_error_iff]
  constructor
  · rintro ⟨before, name, after, l, hparts, hbefore, hname⟩
    obtain ⟨hdirectory, hq⟩ := (h l name).1 hname
    exact ⟨l, name, ⟨before, after, hparts, hbefore, hdirectory⟩, hq⟩
  · rintro ⟨l, name, ⟨before, after, hparts, hbefore, hdirectory⟩, hq⟩
    exact ⟨before, name, after, l, hparts, hbefore, (h l name).2 ⟨hdirectory, hq⟩⟩

theorem locate_eq_nameTooLong_iff : t.locate p = .error .nameTooLong ↔ t.TooLong p := by
  unfold locate TooLong
  cases p.fault? with
  | some g => simp
  | none =>
    by_cases hbytes : maxPathBytes < p.toText.nameSize
    · simp [hbytes]
    · simp [hbytes, walk_parts_eq_error_iff fun _ _ => walk_singleton_eq_nameTooLong_iff]

theorem locate_eq_forbidden_iff : t.locate p = .error .forbidden ↔ t.Barred p := by
  unfold locate Barred
  cases p.fault? with
  | some g => simp
  | none =>
    by_cases hbytes : maxPathBytes < p.toText.nameSize
    · simp [hbytes]
    · have hwalk := walk_parts_eq_error_iff (t := t) (p := p) (q := fun l _ => l ∈ t.closed)
        fun _ _ => walk_singleton_eq_forbidden_iff
      simp [hbytes, hwalk, Nat.le_of_not_lt hbytes]

theorem lookup_eq_error_iff : t.lookup p = .error f ↔
    t.TooLong p ∧ f = .nameTooLong p ∨ t.Barred p ∧ f = .forbidden p := by
  rw [← locate_eq_nameTooLong_iff, ← locate_eq_forbidden_iff, lookup]
  cases t.locate p with
  | ok l => simp
  | error e => cases e <;> simp [eq_comm]

section Search

abbrev candidate (name : Text) (l : Location) : Path := pathOf (l ++ [name])

/-- The nearest place around `l` where the lookup of a name does not find none. -/
structure Nearest (t : FileTree) (name : Text) (l near : Location) : Prop where
  around : near <+: l
  found : t.lookup (candidate name near) ≠ .ok none
  nearest : ∀ l', near <+: l' → l' <+: l → l' ≠ near → t.lookup (candidate name l') = .ok none

theorem nearest_self (h : t.lookup (candidate name l) ≠ .ok none) : t.Nearest name l l where
  around := List.prefix_refl l
  found := h
  nearest _ hinside houtside hne :=
    absurd (hinside.eq_of_length_le houtside.length_le).symm hne

theorem eq_or_prefix_dropLast {l' : Location} (h : l' <+: l) : l' = l ∨ l' <+: l.dropLast := by
  rcases List.eq_nil_or_concat l with rfl | ⟨before, last, rfl⟩
  · exact .inl (List.prefix_nil.1 h)
  · rw [List.concat_eq_append] at h ⊢
    rwa [List.dropLast_concat, ← List.prefix_concat_iff]

theorem Nearest.of_dropLast {near : Location} (h : t.Nearest name l.dropLast near)
    (hl : t.lookup (candidate name l) = .ok none) : t.Nearest name l near where
  around := h.around.trans (List.dropLast_prefix l)
  found := h.found
  nearest l' hinside houtside hne := by
    rcases eq_or_prefix_dropLast houtside with rfl | houtside
    · exact hl
    · exact h.nearest l' hinside houtside hne

/-- A search comes to what the lookup at the nearest place comes to, or finds none anywhere. -/
theorem searchUpward_cases (t : FileTree) (name : Text) (l : Location) :
    (t.searchUpward name l = .ok none ∧
      ∀ l', l' <+: l → t.lookup (candidate name l') = .ok none) ∨
    ∃ near, t.Nearest name l near ∧ t.searchUpward name l =
      (t.lookup (candidate name near)).map fun found => found.map fun _ => candidate name near := by
  fun_induction searchUpward t name l with
  | case1 l here f h =>
    have hl : t.lookup (candidate name l) = .error f := h
    exact .inr ⟨l, nearest_self (by simp [hl]), by rw [hl]; rfl⟩
  | case2 l here entry h =>
    have hl : t.lookup (candidate name l) = .ok (some entry) := h
    exact .inr ⟨l, nearest_self (by simp [hl]), by rw [hl]; rfl⟩
  | case3 here h => exact .inl ⟨rfl, fun l' hl' => List.prefix_nil.1 hl' ▸ h⟩
  | case4 l here h hne ih =>
    rcases ih with ⟨hnone, hall⟩ | ⟨near, hnear, hsearch⟩
    · refine .inl ⟨hnone, fun l' hl' => ?_⟩
      rcases eq_or_prefix_dropLast hl' with rfl | hl'
      · exact h
      · exact hall l' hl'
    · exact .inr ⟨near, hnear.of_dropLast h, hsearch⟩

end Search

end BundleGraph.FileTree
