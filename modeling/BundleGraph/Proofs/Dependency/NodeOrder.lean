import BundleGraph.Proofs.Dependency.Inventory
import BundleGraph.Proofs.Dependency.NodeId

/-!
# Identifiers in the order of the names

Identifiers are given name by name. The one of a name depends on those that the names before it
have, and so on these names alone: two maps that begin with the same names give them the same
identifiers, whatever follows. A name has the plain identifier unless an earlier name holds it, as
its plain or as its numbered one. Else a loop tries one number after the other. It has no bound of
its own, but it ends: every identifier that it passes over is held by an earlier name.
-/
namespace BundleGraph.Diagram

/-- The loop that looks for a free identifier, from the identifier `id` on and with `k` as the next
number: it ends at one that is not taken, and a taken one gives way to the one with the number. -/
inductive Finds (taken : List Text) (plain : Text) : Text → ℕ → Text → Prop
  | free (id : Text) (k : ℕ) (free : id ∉ taken) : Finds taken plain id k id
  | held (id : Text) (k : ℕ) (found : Text) (held : id ∈ taken)
      (next : Finds taken plain (numberedId plain k) (k + 1) found) : Finds taken plain id k found

variable {plain id : Text} {taken : List Text} {ids : List (Name × Text)} {name : Name}
variable {names earlier : List Name} {m : DependencyMap} {k n : ℕ}

section Loop

theorem numberedId_ne (plain : Text) (k : ℕ) : numberedId plain k ≠ plain := by
  intro h
  simpa [numberedId, Text.concat, Text.ofString] using congrArg List.length h

theorem finds_of_taken (hk : k ≤ n) (htaken : ∀ j, k ≤ j → j < n → numberedId plain j ∈ taken)
    (hfree : numberedId plain n ∉ taken) :
    Finds taken plain (numberedId plain k) (k + 1) (numberedId plain n) := by
  induction hk using Nat.decreasingInduction with
  | self => exact .free _ _ hfree
  | of_succ k hk ih =>
    exact .held _ _ _ (htaken k le_rfl hk) (ih fun j hj => htaken j (Nat.le_of_succ_le hj))

/-- The plain identifier if it is free, and else the one with the least number that makes it so. Of
the numbers before that one and the plain identifier each is taken by a name of its own. -/
theorem freeId_cases (taken : List Text) (plain : Text) :
    plain ∉ taken ∧ freeId taken plain = plain ∨
      plain ∈ taken ∧ ∃ k ≤ taken.length + 1,
        IsLeast {k | 2 ≤ k ∧ numberedId plain k ∉ taken} k ∧
          freeId taken plain = numberedId plain k := by
  by_cases hplain : plain ∈ taken
  · obtain ⟨n, -, hfree, htaken, -⟩ := freeNumbered_eq taken plain 2 taken.length
    have hid : freeId taken plain = numberedId plain (2 + n) := (if_pos hplain).trans hfree
    have hbound : n ≤ (taken.erase plain).length :=
      le_length_of_taken fun i hi => (List.mem_erase_of_ne (numberedId_ne plain _)).2 (htaken i hi)
    have hpos := List.length_pos_of_mem hplain
    rw [List.length_erase_of_mem hplain] at hbound
    refine .inr ⟨hplain, 2 + n, by omega, ⟨⟨by omega, ?_⟩, ?_⟩, hid⟩
    · rw [← hid]
      exact freeId_not_mem taken plain
    · rintro k ⟨hk, hfree⟩
      by_contra hlt
      obtain ⟨i, rfl⟩ := Nat.exists_eq_add_of_le hk
      exact hfree (htaken i (by omega))
  · exact .inl ⟨hplain, if_neg hplain⟩

theorem finds_freeId (taken : List Text) (plain : Text) :
    Finds taken plain plain 2 (freeId taken plain) := by
  rcases freeId_cases taken plain with ⟨hfree, hid⟩ | ⟨hheld, k, -, hk, hid⟩
  · rw [hid]
    exact .free plain 2 hfree
  · obtain ⟨⟨hk2, hfree⟩, hleast⟩ := hk
    rw [hid]
    refine .held plain 2 _ hheld (finds_of_taken hk2 (fun j hj hjk => ?_) hfree)
    by_contra hj'
    exact absurd (hleast ⟨hj, hj'⟩) hjk.not_ge

end Loop

section Order

theorem names_addId (ids : List (Name × Text)) (name : Name) : (addId ids name).map Prod.fst =
    if name ∈ ids.map Prod.fst then ids.map Prod.fst else ids.map Prod.fst ++ [name] := by
  unfold addId
  split_ifs
  · rfl
  · simp

theorem addId_of_mem (h : name ∈ ids.map Prod.fst) : addId ids name = ids := if_pos h

theorem addId_of_not_mem (h : name ∉ ids.map Prod.fst) :
    addId ids name = ids ++ [(name, freeId (ids.map Prod.snd) (cleanId name))] := if_neg h

theorem names_foldl_addId (names : List Name) :
    (names.foldl addId []).map Prod.fst = names.eraseDups := by
  induction names using List.reverseRecOn with
  | nil => rfl
  | append_singleton names name ih =>
    rw [List.foldl_concat, names_addId, ih, eraseDups_concat]
    simp only [List.mem_eraseDups]

theorem foldl_addId_eraseDups (names : List Name) :
    names.eraseDups.foldl addId [] = names.foldl addId [] := by
  induction names using List.reverseRecOn with
  | nil => rfl
  | append_singleton names name ih =>
    rw [eraseDups_concat, List.foldl_concat]
    split_ifs with h
    · have hname : name ∈ (names.foldl addId []).map Prod.fst := by
        rwa [names_foldl_addId, List.mem_eraseDups]
      rw [ih, addId_of_mem hname]
    · rw [List.foldl_concat, ih]

theorem prefix_addId (ids : List (Name × Text)) (name : Name) : ids <+: addId ids name := by
  unfold addId
  split_ifs
  · exact List.prefix_rfl
  · exact List.prefix_append _ _

theorem prefix_foldl_addId (ids : List (Name × Text)) (names : List Name) :
    ids <+: names.foldl addId ids := by
  induction names generalizing ids with
  | nil => exact List.prefix_rfl
  | cons name names ih => exact (prefix_addId ids name).trans (ih _)

theorem nodeIds_eq (m : DependencyMap) : nodeIds m = m.names.foldl addId [] :=
  (foldl_addId_eraseDups _).symm

theorem keys_nodeIds (m : DependencyMap) : Assoc.keys (nodeIds m) = m.names :=
  names_foldl_addId _

theorem lookup_nodeIds_iff : (nodeIds m).lookup name = some id ↔ (name, id) ∈ nodeIds m :=
  Assoc.lookup_eq_some_iff (keys_nodeIds m ▸ m.nodup_names)

theorem idOf_of_mem (h : (name, id) ∈ nodeIds m) : idOf (nodeIds m) name = id := by
  rw [idOf, lookup_nodeIds_iff.2 h]
  rfl

theorem nodup_earlier (h : earlier ++ [name] <+: m.names) : earlier.Nodup ∧ name ∉ earlier := by
  have hnodup := m.nodup_names.sublist h.sublist
  exact (List.nodup_cons.1 (List.nodup_append_comm.1 hnodup)).symm

/-- The identifiers of the names with which a map begins, and the one of the next name. -/
theorem prefix_nodeIds (h : earlier ++ [name] <+: m.names) :
    earlier.foldl addId [] ++
      [(name, freeId ((earlier.foldl addId []).map Prod.snd) (cleanId name))] <+: nodeIds m := by
  have hfresh : name ∉ (earlier.foldl addId []).map Prod.fst := by
    rw [names_foldl_addId, List.mem_eraseDups]
    exact (nodup_earlier h).2
  obtain ⟨later, hnames⟩ := h
  rw [nodeIds_eq, ← hnames, List.foldl_append, List.foldl_concat, addId_of_not_mem hfresh]
  exact prefix_foldl_addId _ later

theorem map_idOf_eq (h : earlier ++ [name] <+: m.names) :
    earlier.map (idOf (nodeIds m)) = (earlier.foldl addId []).map Prod.snd := by
  have hbegins := (List.prefix_append _ _).trans (prefix_nodeIds h)
  have hearlier : earlier = (earlier.foldl addId []).map Prod.fst := by
    rw [names_foldl_addId, eraseDups_of_nodup (nodup_earlier h).1]
  conv_lhs => rw [hearlier]
  rw [List.map_map]
  exact List.map_congr_left fun p hp => idOf_of_mem (hbegins.subset hp)

/-- The identifier of a name is told by the names before it. -/
theorem lookup_nodeIds (h : earlier ++ [name] <+: m.names) : (nodeIds m).lookup name =
    some (freeId ((earlier.foldl addId []).map Prod.snd) (cleanId name)) :=
  lookup_nodeIds_iff.2 ((prefix_nodeIds h).subset (by simp))

end Order

/-- Exactly the keys and the targets of a map have identifiers, and no two have the same one. A name
has the plain identifier unless an earlier name holds it, and else the one with the least number
from two on that no earlier name holds. The loop ends there, and no number beyond one more than the
earlier names is tried. A map that begins with the same names gives the name the same identifier. -/
theorem nodeIds_by_order (m : DependencyMap) :
    (∀ name, (∃ id, (nodeIds m).lookup name = some id) ↔ name ∈ m.keys ∨ name ∈ m.targets) ∧
    (∀ name name' id, (nodeIds m).lookup name = some id →
      (nodeIds m).lookup name' = some id → name = name') ∧
    ∀ earlier name, earlier ++ [name] <+: m.names →
      let taken := earlier.map (idOf (nodeIds m))
      let plain := cleanId name
      IsId plain ∧ ∃ id, (nodeIds m).lookup name = some id ∧ Finds taken plain plain 2 id ∧
        (plain ∉ taken ∧ id = plain ∨ plain ∈ taken ∧ ∃ k ≤ earlier.length + 1,
          IsLeast {k | 2 ≤ k ∧ numberedId plain k ∉ taken} k ∧ id = numberedId plain k) ∧
        ∀ m' : DependencyMap, earlier ++ [name] <+: m'.names →
          (nodeIds m').lookup name = some id := by
  refine ⟨fun name => ?_, fun name name' id hid hid' => ?_, fun earlier name h => ?_⟩
  · rw [← Option.isSome_iff_exists, Assoc.isSome_lookup_iff, keys_nodeIds, DependencyMap.mem_names]
  · have heq := List.inj_on_of_nodup_map (nodup_nodeIds m) (lookup_nodeIds_iff.1 hid)
      (lookup_nodeIds_iff.1 hid') rfl
    exact congrArg Prod.fst heq
  · intro taken plain
    have htaken : taken = (earlier.foldl addId []).map Prod.snd := map_idOf_eq h
    refine ⟨isId_cleanId name, freeId taken plain, ?_, finds_freeId taken plain, ?_, ?_⟩
    · rw [htaken]
      exact lookup_nodeIds h
    · simpa [taken] using freeId_cases taken plain
    · rw [htaken]
      exact fun m' => lookup_nodeIds

/-- An earlier name holds the plain identifier of a name as its numbered one. -/
theorem nodeIds_by_order_numbered :
    let m : DependencyMap := .ofPairs "base"
      [("a b", ["base"]), ("a.b", ["a-b"]), ("a_b_2", ["a.b", "base"])]
    let m' : DependencyMap := .ofPairs "base" [("a b", ["a.b", "a_b_2", "base"])]
    let earlier : List Name := ["a b", "a.b"]
    let name : Name := "a_b_2"
    earlier ++ [name] <+: m.names ∧ earlier ++ [name] <+: m'.names ∧
      cleanId name = "m_a_b_2" ∧ earlier.map (idOf (nodeIds m)) = ["m_a_b", "m_a_b_2"] ∧
      (nodeIds m).lookup name = some "m_a_b_2_2" ∧ (nodeIds m').lookup name = some "m_a_b_2_2" := by
  intro m m' earlier name
  have h : earlier ++ [name] <+: m.names := by decide
  have h' : earlier ++ [name] <+: m'.names := by decide
  have hlookup : (nodeIds m).lookup name = some "m_a_b_2_2" := rfl
  obtain ⟨-, id, hid, -, -, hsame⟩ := (nodeIds_by_order m).2.2 earlier name h
  obtain rfl := Option.some.inj (hid.symm.trans hlookup)
  exact ⟨h, h', rfl, rfl, hlookup, hsame m' h'⟩

end BundleGraph.Diagram
