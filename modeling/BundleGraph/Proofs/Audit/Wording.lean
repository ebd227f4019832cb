import BundleGraph.Proofs.Audit.Report
import BundleGraph.Proofs.Bundle.Descriptor
import BundleGraph.Proofs.Text.Surrogate

/-!
# What violations are about

A violation tells nothing that is not in the modules, save the name that is expected of the base
module. Its wording sets words between any two texts, so no halves of a surrogate pair meet in it
that were apart.
-/
namespace BundleGraph

variable {modules : List Manifest} {expected root : Name} {v : Violation} {t : Text}

def Violation.texts : Violation → List Text
  | missingBase expected => [expected]
  | onDemandBase m => [m]
  | baseSplitId m splitId => [m, splitId]
  | foreignSplitId m splitId => [m, splitId]
  | duplicateModule m => [m]
  | explicitBase m base => [m, base]
  | selfDependency m => [m]
  | repeatedDependency m d => [m, d]
  | unknownModule m => [m]
  | cycle path => path
  | onDemandDependency m d => [m, d]

def textsOf (modules : List Manifest) : List Text := modules.flatMap Manifest.texts

namespace Violation

theorem modules_subset_texts (v : Violation) : v.modules ⊆ v.texts := by
  cases v <;> simp [modules, texts]

/-- The wording holds no halves of a pair side by side, if the texts that it is about hold none. -/
theorem unpaired_message (h : ∀ t ∈ v.texts, t.Unpaired) : v.message.Unpaired := by
  cases v with
  | missingBase expected => exact Text.unpaired_between (h _ (by simp [texts])) (by decide)
  | onDemandBase m => exact Text.unpaired_between (h _ (by simp [texts])) (by decide)
  | baseSplitId m splitId => exact Text.unpaired_between (h _ (by simp [texts])) (by decide)
  | foreignSplitId m splitId =>
    exact Text.unpaired_between_two (h _ (by simp [texts])) (h _ (by simp [texts])) (by decide)
      (by decide)
  | duplicateModule m => exact Text.unpaired_between (h _ (by simp [texts])) (by decide)
  | explicitBase m base =>
    exact Text.unpaired_between_two (h _ (by simp [texts])) (h _ (by simp [texts])) (by decide)
      (by decide)
  | selfDependency m => exact Text.unpaired_between (h _ (by simp [texts])) (by decide)
  | repeatedDependency m d =>
    exact Text.unpaired_between_two (h _ (by simp [texts])) (h _ (by simp [texts])) (by decide)
      (by decide)
  | unknownModule m => exact Text.unpaired_between (h _ (by simp [texts])) (by decide)
  | cycle path =>
    have hpath : (Text.joinWith (Text.ofString ", ") path).Unpaired :=
      Text.unpaired_joinWith (by decide) (by decide) h
    exact Text.unpaired_between hpath (by decide)
  | onDemandDependency m d =>
    exact Text.unpaired_between_two (h _ (by simp [texts])) (h _ (by simp [texts])) (by decide)
      (by decide)

end Violation

namespace Clause

theorem name_mem_textsOf {x : Manifest} (hx : x ∈ modules) : x.name ∈ textsOf modules :=
  List.mem_flatMap_of_mem hx List.mem_cons_self

theorem splitId_mem_textsOf {x : Manifest} (hx : x ∈ modules) (hid : x.splitId = some t) :
    t ∈ textsOf modules :=
  List.mem_flatMap_of_mem hx (by simp [Manifest.texts, hid])

theorem usesSplits_subset_textsOf {x : Manifest} (hx : x ∈ modules) :
    x.usesSplits ⊆ textsOf modules := by
  intro d hd
  exact List.mem_flatMap_of_mem hx (by simp [Manifest.texts, hd])

theorem root_mem_textsOf (hroot : root ∈ baseName? modules) : root ∈ textsOf modules := by
  obtain ⟨x, hx, rfl⟩ := baseName?_eq_some_iff.1 hroot
  exact name_mem_textsOf hx.mem

theorem path_subset_textsOf {path : List Name}
    (h : IsCyclePath (dependenciesIn root modules) (modules.map Manifest.name) path) :
    path ⊆ textsOf modules := by
  intro x hx
  obtain ⟨d, -, hd⟩ := h.exists_followedBy hx
  have hname : x ∈ modules.map Manifest.name := by
    by_contra hnone
    have hmem := hd.mem
    simp [dependenciesIn_eq_nil hnone] at hmem
  obtain ⟨y, hy, rfl⟩ := List.mem_map.1 hname
  exact name_mem_textsOf hy

theorem texts_subset {c : Clause} (hc : c ∈ all expected modules) (hv : c v) :
    v.texts ⊆ expected :: textsOf modules := by
  simp only [all, List.mem_cons, List.not_mem_nil, or_false] at hc
  rcases hc with rfl | rfl | rfl | rfl | rfl | rfl | rfl | rfl | rfl
  · obtain ⟨-, rfl⟩ := hv
    simp [Violation.texts]
  · obtain ⟨x, hx, rfl⟩ := hv
    simp [Violation.texts, name_mem_textsOf hx.mem]
  · obtain ⟨x, id, hx, hid, rfl⟩ := hv
    split_ifs <;> simp [Violation.texts, name_mem_textsOf hx.mem, splitId_mem_textsOf hx.mem hid]
  · obtain ⟨root, hroot, before, x, ⟨⟨after, rfl⟩, -, -⟩, rfl⟩ := hv
    have hx : x ∈ before ++ x :: after := by simp
    rw [misplacement]
    split_ifs <;> simp [Violation.texts, name_mem_textsOf hx, root_mem_textsOf hroot]
  · obtain ⟨x, hx, rfl⟩ := hv
    simp [Violation.texts, name_mem_textsOf hx.mem]
  · obtain ⟨x, d, hx, ⟨before, ⟨after, hsplits⟩, -, -⟩, rfl⟩ := hv
    have hd : d ∈ textsOf modules := by
      apply usesSplits_subset_textsOf hx.mem
      simp [hsplits]
    simp [Violation.texts, name_mem_textsOf hx.mem, hd]
  · obtain ⟨d, hd, rfl⟩ := hv
    obtain ⟨x, hx, hdx⟩ := List.mem_flatMap.1 hd.mem
    simp [Violation.texts, usesSplits_subset_textsOf hx hdx]
  · obtain ⟨root, -, path, hpath, rfl⟩ := hv
    exact fun t ht => List.mem_cons_of_mem _ (path_subset_textsOf hpath ht)
  · obtain ⟨x, d, hxd, rfl⟩ := hv
    obtain ⟨y, hy, hdeclared⟩ := List.mem_flatMap.1 hxd.mem
    obtain ⟨d', hd, heq⟩ := List.mem_map.1 hdeclared
    obtain ⟨rfl, rfl⟩ := Prod.mk.inj heq
    simp [Violation.texts, name_mem_textsOf hy, usesSplits_subset_textsOf hy hd]

end Clause

theorem Verdict.exists_clause {clauses : List Clause}
    (h : Verdict clauses (.error (.violation v))) : ∃ c ∈ clauses, c v := by
  generalize ho : (Except.error (Failure.violation v) : Except Failure Unit) = o at h
  induction h with
  | accepted => simp at ho
  | violated hc =>
    obtain rfl : v = _ := by simpa using ho
    exact ⟨_, List.mem_cons_self, hc⟩
  | kept _ _ ih =>
    obtain ⟨c, hc, hv⟩ := ih ho
    exact ⟨c, List.mem_cons_of_mem _ hc, hv⟩

/-- A violation is about texts of the modules and the expected name. -/
theorem texts_subset_of_validate (h : validate modules expected = .error (.violation v)) :
    v.texts ⊆ expected :: textsOf modules := by
  rw [Rule.validate_eq_outcome, outcome_defaults_iff] at h
  obtain ⟨c, hc, hv⟩ := h.exists_clause
  exact Clause.texts_subset hc hv

end BundleGraph
