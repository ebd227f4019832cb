import BundleGraph.Assoc
import Mathlib.Tactic

/-!
# Lookups among distinct keys

Where the keys are distinct, a lookup finds what stands beside a key, and a list is determined by
its keys and its lookups.
-/
namespace BundleGraph.Assoc

variable {κ ν : Type} [BEq κ] [LawfulBEq κ] {rows rows' : List (κ × ν)} {k : κ} {v : ν}

theorem lookup_eq_some_iff (h : (keys rows).Nodup) :
    rows.lookup k = some v ↔ (k, v) ∈ rows := by
  induction rows with
  | nil => simp
  | cons row rows ih =>
    obtain ⟨k', v'⟩ := row
    rw [keys, List.map_cons, List.nodup_cons] at h
    by_cases hk : k = k'
    · subst hk
      have hfresh : (k, v) ∉ rows := by
        intro hmem
        apply h.1
        exact List.mem_map.2 ⟨(k, v), hmem, rfl⟩
      simp [hfresh, eq_comm]
    · rw [List.lookup_cons, beq_eq_false_iff_ne.2 hk]
      simp [ih h.2, hk]

theorem lookup_eq_none_iff : rows.lookup k = none ↔ k ∉ keys rows := by
  simp only [List.lookup_eq_none_iff, keys, List.mem_map, not_exists, not_and, bne_iff_ne, ne_eq]
  exact forall₂_congr fun p _ => not_congr eq_comm

theorem isSome_lookup_iff : (rows.lookup k).isSome ↔ k ∈ keys rows := by
  rw [← not_iff_not, ← lookup_eq_none_iff, Bool.not_eq_true, Option.isSome_eq_false_iff,
    Option.isNone_iff_eq_none]

theorem mem_keys_of_lookup (h : rows.lookup k = some v) : k ∈ keys rows :=
  isSome_lookup_iff.1 (Option.isSome_of_eq_some h)

theorem mem_of_lookup (h : rows.lookup k = some v) : (k, v) ∈ rows := by
  obtain ⟨before, after, rfl, -⟩ := List.lookup_eq_some_iff.1 h
  simp

theorem ext_of_nodup (hkeys : keys rows = keys rows') (h : (keys rows).Nodup)
    (hlookup : ∀ k, rows.lookup k = rows'.lookup k) : rows = rows' := by
  induction rows generalizing rows' with
  | nil =>
    have hnil : rows' = [] := List.map_eq_nil_iff.1 hkeys.symm
    exact hnil.symm
  | cons row rows ih =>
    obtain ⟨k, v⟩ := row
    obtain ⟨⟨k', v'⟩, rest, rfl, hfirst, hrest⟩ := List.map_eq_cons_iff.1 hkeys.symm
    obtain rfl : k' = k := hfirst
    obtain rfl : v = v' := by simpa using hlookup k'
    rw [keys, List.map_cons, List.nodup_cons] at h
    have hrestKeys : keys rest = keys rows := hrest
    rw [ih hrestKeys.symm h.2 fun x => ?_]
    by_cases hx : x = k'
    · subst hx
      rw [lookup_eq_none_iff.2 h.1, lookup_eq_none_iff.2 (hrestKeys ▸ h.1)]
    · simpa [List.lookup_cons, beq_eq_false_iff_ne.2 hx] using hlookup x

end BundleGraph.Assoc
