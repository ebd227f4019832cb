import BundleGraph.Dependency.Diagram
import BundleGraph.Proofs.Text.Word

/-!
# Identifiers of nodes

Every name of a map has an identifier, a dangling target included, and no other name has. An
identifier consists of letters, digits and underscores of ASCII, whatever the name is. Names that
look alike after cleaning are told apart by a number: only so many numbers can be taken, so one of
those that are tried is free, and no two names have the same identifier.
-/
namespace BundleGraph.Diagram

def IsId (id : Text) : Prop := ∃ rest : Text, id = "m_" ++ rest ∧ ∀ c ∈ rest, c.isWord

variable {id : Text} {ids : List (Name × Text)} {name : Name} {names : List Name}
variable {m : DependencyMap}

theorem isId_cleanId (name : Name) : IsId (cleanId name) := by
  refine ⟨_, rfl, fun c hc => ?_⟩
  obtain ⟨d, -, rfl⟩ := List.mem_map.1 hc
  split
  · assumption
  · decide

theorem IsId.numberedId (h : IsId id) (k : Nat) : IsId (numberedId id k) := by
  obtain ⟨rest, rfl, hrest⟩ := h
  refine ⟨rest ++ ("_" ++ Text.ofNat k), by simp [Diagram.numberedId, Text.concat], ?_⟩
  have hunderscore : ∀ c ∈ Text.ofString "_", c.isWord := by decide
  have hnumber : ∀ c ∈ Text.ofNat k, c.isWord := fun c hc =>
    CodePoint.isWord_of_isDigit (isDigit_of_mem_ofNat hc)
  exact List.forall_mem_append.2 ⟨hrest, List.forall_mem_append.2 ⟨hunderscore, hnumber⟩⟩

theorem IsId.freeNumbered (h : IsId id) (taken : List Text) (k trials : Nat) :
    IsId (freeNumbered taken id k trials) := by
  induction trials generalizing k with
  | zero => exact h.numberedId k
  | succ trials ih =>
    rw [Diagram.freeNumbered]
    split
    · exact ih (k + 1)
    · exact h.numberedId k

theorem IsId.freeId (h : IsId id) (taken : List Text) : IsId (freeId taken id) := by
  unfold Diagram.freeId
  split
  · exact h.freeNumbered taken 2 taken.length
  · exact h

theorem IsId.isWord (h : IsId id) {c : CodePoint} (hc : c ∈ id) : c.isWord := by
  obtain ⟨rest, rfl, hrest⟩ := h
  rcases List.mem_append.1 hc with hc | hc
  · exact (by decide : ∀ c ∈ Text.ofString "m_", c.isWord) c hc
  · exact hrest c hc

theorem IsId.ne_nil (h : IsId id) : id ≠ [] := by
  obtain ⟨rest, rfl, -⟩ := h
  simp [Text.ofString]

theorem isId_of_mem_addId (h : ∀ p ∈ ids, IsId p.2) : ∀ p ∈ addId ids name, IsId p.2 := by
  unfold addId
  split
  · exact h
  · refine List.forall_mem_append.2 ⟨h, List.forall_mem_singleton.2 ?_⟩
    exact (isId_cleanId name).freeId _

theorem isId_of_mem_nodeIds : ∀ p ∈ nodeIds m, IsId p.2 := by
  unfold nodeIds
  suffices h : ∀ names : List Name, ∀ p ∈ names.foldl addId [], IsId p.2 from h _
  intro names
  induction names using List.reverseRecOn with
  | nil => simp
  | append_singleton names name ih =>
    rw [List.foldl_concat]
    exact isId_of_mem_addId ih

theorem mem_names_addId {other : Name} :
    other ∈ (addId ids name).map Prod.fst ↔ other ∈ ids.map Prod.fst ∨ other = name := by
  unfold addId
  split
  · rename_i hname
    exact (or_iff_left_of_imp fun h => h ▸ hname).symm
  · simp

theorem mem_names_nodeIds : name ∈ (nodeIds m).map Prod.fst ↔ name ∈ m.keys ++ m.targets := by
  unfold nodeIds
  suffices h : ∀ names : List Name, name ∈ (names.foldl addId []).map Prod.fst ↔ name ∈ names from
    h _
  intro names
  induction names using List.reverseRecOn with
  | nil => simp
  | append_singleton names other ih =>
    rw [List.foldl_concat, mem_names_addId, ih, List.mem_append, List.mem_singleton]

theorem exists_lookup_nodeIds (h : name ∈ m.keys ++ m.targets) :
    ∃ id, (nodeIds m).lookup name = some id := by
  rw [← Option.isSome_iff_exists, Option.isSome_iff_ne_none]
  intro hnone
  obtain ⟨p, hp, rfl⟩ := List.mem_map.1 (mem_names_nodeIds.2 h)
  exact bne_iff_ne.1 (List.lookup_eq_none_iff.1 hnone p hp) rfl

theorem isId_idOf (m : DependencyMap) (name : Name) : IsId (idOf (nodeIds m) name) := by
  unfold idOf
  cases h : (nodeIds m).lookup name with
  | none => exact isId_cleanId name
  | some id =>
    obtain ⟨before, after, hsplit, -⟩ := List.lookup_eq_some_iff.1 h
    have hmem : (name, id) ∈ nodeIds m := by simp [hsplit]
    exact isId_of_mem_nodeIds _ hmem

section Distinct

variable {taken : List Text} {k : Nat}

theorem numberedId_injective (id : Text) : Function.Injective (numberedId id) := by
  intro i j h
  apply Text.ofNat_injective
  simpa [numberedId, Text.concat] using h

/-- The trials end at a number all numbers before which are taken, and early only at a free one. -/
theorem freeNumbered_eq (taken : List Text) (id : Text) (k trials : Nat) :
    ∃ n ≤ trials, freeNumbered taken id k trials = numberedId id (k + n) ∧
      (∀ i < n, numberedId id (k + i) ∈ taken) ∧
      (n < trials → numberedId id (k + n) ∉ taken) := by
  induction trials generalizing k with
  | zero => exact ⟨0, le_rfl, rfl, by simp, by simp⟩
  | succ trials ih =>
    rw [freeNumbered]
    split_ifs with hk
    · obtain ⟨n, hn, hfree, htaken, hend⟩ := ih (k + 1)
      have shift (i : Nat) : k + 1 + i = k + (i + 1) := by omega
      simp only [shift] at hfree htaken hend
      refine ⟨n + 1, Nat.succ_le_succ hn, hfree, fun i hi => ?_, fun h => hend (by omega)⟩
      cases i with
      | zero => exact hk
      | succ i => exact htaken i (by omega)
    · exact ⟨0, Nat.zero_le _, rfl, by simp, fun _ => hk⟩

/-- So many identifiers with different numbers are taken only if so many are taken. -/
theorem le_length_of_taken {n : Nat} (h : ∀ i < n, numberedId id (k + i) ∈ taken) :
    n ≤ taken.length := by
  have hnodup : ((List.range n).map fun i => numberedId id (k + i)).Nodup :=
    List.nodup_range.map fun i j hij => Nat.add_left_cancel (numberedId_injective id hij)
  have hsub : (List.range n).map (fun i => numberedId id (k + i)) ⊆ taken := by
    intro t ht
    obtain ⟨i, hi, rfl⟩ := List.mem_map.1 ht
    exact h i (List.mem_range.1 hi)
  simpa using (hnodup.subperm hsub).length_le

theorem freeId_not_mem (taken : List Text) (id : Text) : freeId taken id ∉ taken := by
  unfold freeId
  split_ifs with hid
  · obtain ⟨n, hn, hfree, htaken, hend⟩ := freeNumbered_eq taken id 2 taken.length
    rw [hfree]
    intro hmem
    have hall : ∀ i < n + 1, numberedId id (2 + i) ∈ taken := by
      intro i hi
      rcases Nat.lt_succ_iff_lt_or_eq.1 hi with hi | rfl
      · exact htaken i hi
      · exact hmem
    exact hend (le_length_of_taken hall) hmem
  · exact hid

theorem nodup_addId (h : (ids.map Prod.snd).Nodup) (name : Name) :
    ((addId ids name).map Prod.snd).Nodup := by
  unfold addId
  split_ifs with hname
  · exact h
  · rw [List.map_append, List.nodup_append_comm]
    exact List.nodup_cons.2 ⟨freeId_not_mem _ _, h⟩

theorem nodup_nodeIds (m : DependencyMap) : ((nodeIds m).map Prod.snd).Nodup :=
  List.foldlRecOn (motive := fun ids => (ids.map Prod.snd).Nodup) (m.keys ++ m.targets) addId
    List.nodup_nil fun _ h name _ => nodup_addId h name

theorem mem_nodeIds (h : name ∈ m.keys ++ m.targets) :
    (name, idOf (nodeIds m) name) ∈ nodeIds m := by
  obtain ⟨id, hid⟩ := exists_lookup_nodeIds h
  obtain ⟨before, after, hsplit, -⟩ := List.lookup_eq_some_iff.1 hid
  have hmem : (name, id) ∈ nodeIds m := by simp [hsplit]
  rwa [idOf, hid]

theorem injOn_idOf (m : DependencyMap) :
    Set.InjOn (idOf (nodeIds m)) {name | name ∈ m.keys ++ m.targets} := by
  intro name hname name' hname' h
  have heq := List.inj_on_of_nodup_map (nodup_nodeIds m) (mem_nodeIds hname) (mem_nodeIds hname') h
  exact congrArg Prod.fst heq

end Distinct

end BundleGraph.Diagram
