import BundleGraph.Proofs.Assoc
import BundleGraph.Proofs.Dependency.Search

/-!
# Edges and the cycles they make

Cycles said of the edges of a map alone: edges lead from a name to another one and back. An edge
from a name to itself never makes one, so these are the cycles that a search finds which passes over
such edges, and the path that it shows goes along edges and comes back to an earlier name.
-/
namespace BundleGraph

namespace DependencyMap

open Relation (ReflTransGen TransGen)

variable {m : DependencyMap} {x y : Name}

def Edge (m : DependencyMap) (x y : Name) : Prop := (x, y) ∈ m.edges

/-- Edges lead from `x` to another name and from there back. -/
def OnCycle (m : DependencyMap) (x : Name) : Prop :=
  ∃ y, y ≠ x ∧ TransGen m.Edge x y ∧ TransGen m.Edge y x

/-- Edges lead from `x` to a name on a cycle, unless it is on one itself. -/
def ReachesCycle (m : DependencyMap) (x : Name) : Prop := ∃ y, ReflTransGen m.Edge x y ∧ m.OnCycle y

theorem edge_iff : m.Edge x y ↔ y ∈ m.get x := by
  unfold Edge edges get get?
  simp only [List.mem_flatMap, List.mem_map, Prod.mk.injEq]
  constructor
  · rintro ⟨⟨x', ds⟩, hrow, d, hd, rfl, rfl⟩
    simpa [(Assoc.lookup_eq_some_iff m.nodup).2 hrow] using hd
  · intro hy
    cases hrow : m.rows.lookup x with
    | none => simp [hrow] at hy
    | some ds =>
      rw [hrow] at hy
      exact ⟨(x, ds), (Assoc.lookup_eq_some_iff m.nodup).1 hrow, y, hy, rfl, rfl⟩

theorem dependsOn_get_iff : DependsOn m.get x y ↔ m.Edge x y ∧ y ≠ x := by
  rw [DependsOn, edge_iff]

/-- Edges from a name to itself lead nowhere. -/
theorem reflTransGen_dependsOn_iff :
    ReflTransGen (DependsOn m.get) x y ↔ ReflTransGen m.Edge x y := by
  constructor
  · apply ReflTransGen.mono
    intro a b hab
    exact (dependsOn_get_iff.1 hab).1
  · intro h
    induction h with
    | refl => exact .refl
    | @tail a b _ hab ih =>
      by_cases hba : b = a
      · exact hba ▸ ih
      · exact ih.tail (dependsOn_get_iff.2 ⟨hab, hba⟩)

theorem onCycle_iff : m.OnCycle x ↔ TransGen (DependsOn m.get) x x := by
  constructor
  · rintro ⟨y, hyx, hxy, hback⟩
    have hout := reflTransGen_dependsOn_iff.2 hxy.to_reflTransGen
    have hin := reflTransGen_dependsOn_iff.2 hback.to_reflTransGen
    rcases Relation.reflTransGen_iff_eq_or_transGen.1 hout with heq | hout
    · exact absurd heq hyx
    · exact hout.trans_left hin
  · intro h
    obtain ⟨y, hxy, hyx⟩ := TransGen.head'_iff.1 h
    have hedge := dependsOn_get_iff.1 hxy
    refine ⟨y, hedge.2, .single hedge.1, ?_⟩
    rcases Relation.reflTransGen_iff_eq_or_transGen.1 (reflTransGen_dependsOn_iff.1 hyx) with
      heq | hback
    · exact absurd heq.symm hedge.2
    · exact hback

theorem reachesCycle_iff : m.ReachesCycle x ↔ LeadsToCycle m.get x := by
  simp only [ReachesCycle, LeadsToCycle, onCycle_iff, reflTransGen_dependsOn_iff]

/-- A cycle is reached from a key, since only keys have edges. -/
theorem exists_reachesCycle_iff : (∃ x ∈ m.keys, m.ReachesCycle x) ↔ ∃ x, m.OnCycle x := by
  simp only [reachesCycle_iff, onCycle_iff]
  exact exists_leadsToCycle_iff fun _ => get_eq_nil

end DependencyMap

theorem FollowedBy.edge {m : DependencyMap} {x y : Name} (h : FollowedBy m.get x y) :
    m.Edge x y :=
  DependencyMap.edge_iff.2 h.mem

theorem IsCyclePath.exists_back_edge {m : DependencyMap} {keys path : List Name}
    (h : IsCyclePath m.get keys path) : ∃ front d middle last,
      path = front ++ d :: (middle ++ [last]) ∧ m.Edge last d := by
  obtain ⟨last, hlast, d, hd, hfollow⟩ := h.closed
  obtain ⟨init, rfl⟩ := List.getLast?_eq_some_iff.1 hlast
  have hinit : d ∈ init := by
    rcases List.mem_append.1 hd with hd | hd
    · exact hd
    · exact absurd (List.mem_singleton.1 hd) hfollow.holds.1
  obtain ⟨front, middle, rfl⟩ := List.append_of_mem hinit
  exact ⟨front, d, middle, last, by simp, hfollow.edge⟩

end BundleGraph
