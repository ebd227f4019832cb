/-!
# Association lists in order of insertion

A key keeps the place where it was first put and the value that was last put there. `keys_insert`
and `lookup_insert` say what insertion does to the two views of a list, its keys and its lookups.
-/
namespace BundleGraph.Assoc

variable {κ ν : Type} [DecidableEq κ]

def keys (m : List (κ × ν)) : List κ := m.map Prod.fst

/-- `m` with the value `v` at `k`, in the place of `k` or at the end. -/
def insert (k : κ) (v : ν) : List (κ × ν) → List (κ × ν)
  | [] => [(k, v)]
  | (k', v') :: rest => if k' = k then (k, v) :: rest else (k', v') :: insert k v rest

def ofPairs (pairs : List (κ × ν)) : List (κ × ν) :=
  pairs.foldl (fun m p => insert p.1 p.2 m) []

theorem keys_insert (k : κ) (v : ν) (m : List (κ × ν)) :
    keys (insert k v m) = if k ∈ keys m then keys m else keys m ++ [k] := by
  induction m with
  | nil => simp [keys, insert]
  | cons p rest ih =>
    obtain ⟨k', v'⟩ := p
    by_cases h : k' = k
    · simp [insert, keys, h]
    · have h' : ¬k = k' := fun e => h e.symm
      rw [insert, if_neg h]
      simp only [keys, List.map_cons, List.mem_cons, h', false_or] at ih ⊢
      rw [ih]
      split <;> simp_all

theorem nodup_keys_insert {k : κ} {v : ν} {m : List (κ × ν)} (h : (keys m).Nodup) :
    (keys (insert k v m)).Nodup := by
  rw [keys_insert]
  split
  · exact h
  · rename_i hk
    simp only [List.nodup_append, h, List.nodup_cons, List.not_mem_nil, not_false_eq_true,
      List.nodup_nil, and_self, List.mem_singleton, ne_eq, true_and]
    rintro a ha _ rfl rfl
    exact hk ha

theorem nodup_keys_ofPairs (pairs : List (κ × ν)) : (keys (ofPairs pairs)).Nodup := by
  suffices h : ∀ m : List (κ × ν), (keys m).Nodup →
      (keys (pairs.foldl (fun m p => insert p.1 p.2 m) m)).Nodup from h [] (by simp [keys])
  induction pairs with
  | nil => exact fun _ h => h
  | cons p rest ih => exact fun m h => ih _ (nodup_keys_insert h)

theorem mem_insert {k : κ} {v : ν} {m : List (κ × ν)} {p : κ × ν} (h : p ∈ insert k v m) :
    p = (k, v) ∨ p ∈ m := by
  induction m with
  | nil => simpa [insert] using h
  | cons q rest ih =>
    obtain ⟨k', v'⟩ := q
    rw [insert] at h
    split at h
    · exact (List.mem_cons.1 h).imp_right (List.mem_cons_of_mem _)
    · rcases List.mem_cons.1 h with rfl | h
      · exact .inr List.mem_cons_self
      · exact (ih h).imp_right (List.mem_cons_of_mem _)

theorem forall_mem_insert {P : κ × ν → Prop} {k : κ} {v : ν} {m : List (κ × ν)} (hv : P (k, v))
    (hm : ∀ p ∈ m, P p) : ∀ p ∈ insert k v m, P p := by
  intro p hp
  rcases mem_insert hp with rfl | hp
  · exact hv
  · exact hm p hp

theorem lookup_insert [BEq κ] [LawfulBEq κ] (k k' : κ) (v : ν) (m : List (κ × ν)) :
    (insert k v m).lookup k' = if k' = k then some v else m.lookup k' := by
  induction m with
  | nil =>
    by_cases h : k' = k
    · simp [insert, h]
    · simp [insert, List.lookup_cons, h, beq_eq_false_iff_ne.2 h]
  | cons p rest ih =>
    obtain ⟨k₀, v₀⟩ := p
    by_cases h₀ : k₀ = k
    · subst h₀
      by_cases h : k' = k₀
      · simp [insert, h]
      · simp [insert, List.lookup_cons, h, beq_eq_false_iff_ne.2 h]
    · by_cases h : k' = k₀
      · subst h
        simp [insert, h₀]
      · simp [insert, h₀, List.lookup_cons, beq_eq_false_iff_ne.2 h, ih]

end BundleGraph.Assoc
