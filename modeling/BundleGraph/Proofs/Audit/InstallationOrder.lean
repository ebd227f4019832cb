import Mathlib
import BundleGraph.Proofs.Audit.Clause

/-!
# Installation orders

An accepted bundle can be installed module by module. The order sorts the modules by their delivery
and then by their dependencies; both together have no descending chain, so a least module can be
taken from any list of modules. The dependency on the root, which no module declares, puts the root
first.
-/
namespace BundleGraph

open Relation (ReflTransGen)

/-- A well-founded relation sorts every list. -/
theorem exists_perm_pairwise {α : Type} {r : α → α → Prop} (hr : WellFounded r) (l : List α) :
    ∃ l' : List α, l'.Perm l ∧ l'.Pairwise fun x y => ¬r y x := by
  induction h : l.length generalizing l with
  | zero => exact ⟨[], by rw [List.length_eq_zero_iff.1 h], .nil⟩
  | succ n ih =>
    have hne : ∃ x, x ∈ l := List.exists_mem_of_length_pos (by omega)
    obtain ⟨x, hx, hleast⟩ := hr.has_min {x | x ∈ l} hne
    obtain ⟨before, after, rfl⟩ := List.append_of_mem hx
    obtain ⟨l', hperm, hsorted⟩ := ih (before ++ after) (by simp at h ⊢; omega)
    have hmiddle : (before ++ x :: after).Perm (x :: (before ++ after)) := List.perm_middle
    refine ⟨x :: l', (hperm.cons x).trans hmiddle.symm, List.pairwise_cons.2 ⟨?_, hsorted⟩⟩
    intro y hy
    apply hleast
    rw [Set.mem_ofPred_eq, hmiddle.mem_iff]
    exact List.mem_cons_of_mem x (hperm.mem_iff.1 hy)

def Declares (modules : List Manifest) (x y : Manifest) : Prop :=
  y ∈ modules ∧ y.name ∈ x.usesSplits

/-- An order in which the modules of a bundle can be installed, beginning with the root. -/
structure InstallationOrder (modules : List Manifest) (root : Manifest) (order : List Manifest) :
    Prop where
  perm : order.Perm modules
  starts : order.head? = some root
  known : ∀ x ∈ order, ∀ d ∈ x.usesSplits, ∃ y ∈ modules, y.name = d
  after : ∀ before x later, order = before ++ x :: later → ∀ y, Declares modules x y → y ∈ before
  delivery : order.Pairwise fun x y => x.onDemand → y.onDemand

/-- Delivered earlier, or at the same time and needed by the other module. -/
def Precedes (root : Name) (modules : List Manifest) (y x : Manifest) : Prop :=
  Prod.Lex (· < ·) (fun d e => DependsOn (dependenciesIn root modules) e d)
    (y.onDemand, y.name) (x.onDemand, x.name)

/-- What holds of a bundle that violates no clause. -/
structure Consistent (modules : List Manifest) (root : Manifest) : Prop where
  first : IsFirst (fun x => x.isBase) modules root
  installTime : ¬root.onDemand
  nodup : (modules.map Manifest.name).Nodup
  implicit : ∀ x ∈ modules, root.name ∉ x.usesSplits
  known : ∀ x ∈ modules, ∀ d ∈ x.usesSplits, ∃ y ∈ modules, y.name = d
  other : ∀ x ∈ modules, x.name ∉ x.usesSplits
  acyclic : WellFounded fun y x => DependsOn (dependenciesIn root.name modules) x y
  delivery : ∀ x ∈ modules, ∀ y, Declares modules x y → y.onDemand → x.onDemand

section Accepted

variable {modules : List Manifest} {expected : Name} {root : Manifest}

theorem Sound.wellFounded {root : Name} (h : Sound root modules)
    (hroot : baseName? modules = some root) :
    WellFounded fun y x => DependsOn (dependenciesIn root modules) x y := by
  obtain ⟨m, -, hm⟩ := h.exists_describes hroot
  cases hsearch : m.searchCycle with
  | ok safe =>
    rw [← hm.get_eq]
    exact ⟨DependencyMap.acc_of_searchCycle hsearch⟩
  | error path =>
    have hpath := DependencyMap.searchCycle_eq_error_iff.1 hsearch
    rw [hm.get_eq] at hpath
    obtain ⟨x, -, hx⟩ := hpath.start
    obtain ⟨y, -, hy⟩ := hx.holds
    exact absurd hy (h.acyclic y)

theorem Sound.consistent (h : Sound root.name modules)
    (hroot : IsFirst (fun x => x.isBase) modules root) : Consistent modules root where
  first := hroot
  installTime := h.installTime root hroot.mem hroot.holds
  nodup := h.nodup
  implicit := h.implicit
  known x hx d hd := by simpa using h.known x hx d hd
  other := h.other
  acyclic := h.wellFounded (baseName?_eq_some_iff.2 ⟨root, hroot, rfl⟩)
  delivery x hx y hxy hydemand := by
    by_contra hxdemand
    exact h.delivery x hx y.name hxy.2 hxdemand y hxy.1 rfl hydemand

theorem exists_consistent (h : ∀ c ∈ Clause.all expected modules, ∀ v, ¬c v) :
    ∃ root, Consistent modules root := by
  obtain ⟨name, hname, hsound⟩ := kept_iff_sound.1 h
  obtain ⟨root, hroot, rfl⟩ := baseName?_eq_some_iff.1 hname
  exact ⟨root, hsound.consistent hroot⟩

namespace Consistent

variable (h : Consistent modules root)

include h

theorem dependenciesIn_eq {x : Manifest} (hx : x ∈ modules) :
    dependenciesIn root.name modules x.name = x.usesSplits ++ [root.name] := by
  simp [dependenciesIn, find?_name_eq h.nodup hx]

theorem dependsOn_of_mem {x : Manifest} {d : Name} (hx : x ∈ modules) (hd : d ∈ x.usesSplits) :
    DependsOn (dependenciesIn root.name modules) x.name d := by
  refine ⟨by simp [h.dependenciesIn_eq hx, hd], ?_⟩
  rintro rfl
  exact h.other x hx hd

theorem dependsOn_root {x : Manifest} (hx : x ∈ modules) (hne : x ≠ root) :
    DependsOn (dependenciesIn root.name modules) x.name root.name := by
  refine ⟨by simp [h.dependenciesIn_eq hx], fun hname => hne ?_⟩
  exact List.inj_on_of_nodup_map h.nodup hx h.first.mem hname.symm

/-- What the root declared would depend on the root. -/
theorem usesSplits_root : root.usesSplits = [] := by
  refine List.eq_nil_iff_forall_not_mem.2 fun d hd => ?_
  obtain ⟨y, hy, rfl⟩ := h.known root h.first.mem d hd
  have hne : y ≠ root := by
    rintro rfl
    exact h.other y hy hd
  exact h.acyclic.asymmetric _ _ (h.dependsOn_of_mem h.first.mem hd) (h.dependsOn_root hy hne)

theorem wellFounded_precedes : WellFounded (Precedes root.name modules) :=
  InvImage.wf (fun x : Manifest => (x.onDemand, x.name))
    (WellFounded.prod_lex wellFounded_lt h.acyclic)

theorem root_precedes {x : Manifest} (hx : x ∈ modules) (hne : x ≠ root) :
    Precedes root.name modules root x := by
  by_cases hdemand : x.onDemand
  · exact .left _ _ (by simp [h.installTime, hdemand])
  · have heq : root.onDemand = x.onDemand := by simp [h.installTime, hdemand]
    unfold Precedes
    rw [heq]
    exact .right _ (h.dependsOn_root hx hne)

theorem precedes_of_declares {x y : Manifest} (hx : x ∈ modules) (hxy : Declares modules x y) :
    Precedes root.name modules y x := by
  have hdemand := h.delivery x hx y hxy
  by_cases heq : y.onDemand = x.onDemand
  · unfold Precedes
    rw [heq]
    exact .right _ (h.dependsOn_of_mem hx hxy.2)
  · refine .left _ _ ?_
    revert hdemand heq
    cases x.onDemand <;> cases y.onDemand <;> simp

theorem installTime_of_reachable {x y : Manifest} (hx : x ∈ modules) (hdemand : ¬x.onDemand)
    (hxy : ReflTransGen (Declares modules) x y) : y ∈ modules ∧ ¬y.onDemand := by
  induction hxy with
  | refl => exact ⟨hx, hdemand⟩
  | tail _ hyz ih => exact ⟨hyz.1, fun hz => ih.2 (h.delivery _ ih.1 _ hyz hz)⟩

/-- Sorting by `Precedes` gives an installation order. -/
theorem exists_order : ∃ order, InstallationOrder modules root order := by
  obtain ⟨order, hperm, hsorted⟩ := exists_perm_pairwise h.wellFounded_precedes modules
  have hnodup : order.Nodup := hperm.nodup_iff.2 h.nodup.of_map
  refine ⟨order, hperm, ?_, ?_, ?_, ?_⟩
  · obtain ⟨before, later, rfl⟩ := List.append_of_mem (hperm.mem_iff.2 h.first.mem)
    cases before with
    | nil => rfl
    | cons x before =>
      have hx : x ∈ modules := hperm.mem_iff.1 (by simp)
      have hne : x ≠ root := by
        rintro rfl
        simp at hnodup
      have hlate := (List.pairwise_cons.1 hsorted).1 root (by simp)
      exact absurd (h.root_precedes hx hne) hlate
  · intro x hx
    exact h.known x (hperm.mem_iff.1 hx)
  · rintro before x later rfl y hxy
    have hx : x ∈ modules := hperm.mem_iff.1 (by simp)
    rcases List.mem_append.1 (hperm.mem_iff.2 hxy.1) with hy | hy
    · exact hy
    rcases List.mem_cons.1 hy with rfl | hy
    · exact absurd hxy.2 (h.other y hx)
    · have hlate := (List.pairwise_cons.1 (List.pairwise_append.1 hsorted).2.1).1 y hy
      exact absurd (h.precedes_of_declares hx hxy) hlate
  · refine hsorted.imp fun {x y} hxy hx => ?_
    by_contra hy
    exact hxy (.left _ _ (by simp [hx, hy]))

end Consistent

end Accepted

/-- An accepted bundle can be installed beginning with the root, which declares nothing; and what an
install-time module reaches is delivered at install time. -/
theorem exists_installationOrder {modules : List Manifest} {expected : Name}
    (h : validate modules expected = .ok ()) :
    ∃ root, IsFirst (fun x => x.isBase) modules root ∧
      (∃ order, InstallationOrder modules root order) ∧ root.usesSplits = [] ∧
      ∀ x ∈ modules, ¬x.onDemand → ∀ y, ReflTransGen (Declares modules) x y → ¬y.onDemand := by
  rw [Rule.validate_eq_outcome, outcome_defaults_iff, verdict_ok_iff] at h
  obtain ⟨root, hroot⟩ := exists_consistent h
  exact ⟨root, hroot.first, hroot.exists_order, hroot.usesSplits_root,
    fun x hx hdemand y hxy => (hroot.installTime_of_reachable hx hdemand hxy).2⟩

/-- The root stands second here, behind a module on demand. -/
theorem exists_installationOrder_maps :
    let modules : List Manifest := [⟨"maps", false, true, none, ["net"]⟩,
      ⟨"base", true, false, none, []⟩, ⟨"net", false, false, some "net", []⟩]
    validate modules "base" = .ok () ∧
      ∃ root, IsFirst (fun x => x.isBase) modules root ∧
        (∃ order, InstallationOrder modules root order) ∧ root.usesSplits = [] ∧
        ∀ x ∈ modules, ¬x.onDemand →
          ∀ y, ReflTransGen (Declares modules) x y → ¬y.onDemand := by
  intro modules
  have h : validate modules "base" = .ok () := by cbv
  exact ⟨h, exists_installationOrder h⟩

end BundleGraph
