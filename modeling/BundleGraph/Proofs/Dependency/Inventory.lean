import BundleGraph.Dependency.Map
import BundleGraph.Proofs.Assoc
import BundleGraph.Proofs.First

/-!
# Names and positions of a map

What there is to be named, and what there is to be read, in a dependency map. A name is listed once,
where it comes first, though it may be a key and the target of many edges. A position is a place in
the dependency list of a key; there are as many of them as edges.
-/
namespace BundleGraph.DependencyMap

variable {m : DependencyMap} {name x : Name} {i : ℕ}

/-- The names of a map, each once: the keys in order, and then the targets that are no keys. -/
def names (m : DependencyMap) : List Name := (m.keys ++ m.targets).eraseDups

theorem mem_names : name ∈ m.names ↔ name ∈ m.keys ∨ name ∈ m.targets := by
  rw [names, List.mem_eraseDups, List.mem_append]

theorem nodup_names (m : DependencyMap) : m.names.Nodup := nodup_eraseDups _

/-- The positions of the dependency lists: a key and a place in its list, from zero on. -/
def positions (m : DependencyMap) : List (Name × ℕ) :=
  m.rows.flatMap fun row => (List.range row.2.length).map (row.1, ·)

theorem length_positions (m : DependencyMap) : m.positions.length = m.edgeCount := by
  simp [positions, edgeCount, List.length_flatMap]

theorem mem_positions : (x, i) ∈ m.positions ↔ i < (m.get x).length := by
  simp only [positions, List.mem_flatMap, List.mem_map, List.mem_range, Prod.mk.injEq]
  constructor
  · rintro ⟨⟨x', ds⟩, hrow, i', hi, rfl, rfl⟩
    simpa [get, get?, (Assoc.lookup_eq_some_iff m.nodup).2 hrow] using hi
  · intro hi
    cases hrow : m.rows.lookup x with
    | none => simp [get, get?, hrow] at hi
    | some ds =>
      have hi : i < ds.length := by simpa [get, get?, hrow] using hi
      exact ⟨(x, ds), (Assoc.lookup_eq_some_iff m.nodup).1 hrow, i, hi, rfl, rfl⟩

end BundleGraph.DependencyMap
