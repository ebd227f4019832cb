import Mathlib.Data.List.SplitBy
import BundleGraph.Proofs.Dependency.Construction

/-!
# Rows found again from edges

The keys of a map are distinct and every row of a map that was built ends with the root, so no row
is empty: neighbouring edges with one key are a row. Without the root at its end it is what the
module of the key declares. So the edges alone tell the modules in their order, each with its
declared dependencies, repetitions included.
-/
namespace BundleGraph.DependencyMap

variable {m : DependencyMap} {root : Name} {modules : List Manifest}

/-- The rows of which some edges come: neighbours with one key belong together. -/
def rowsOf (edges : List (Name × Name)) : List (Name × List Name) :=
  (edges.splitBy fun e e' => e.1 == e'.1).filterMap fun run =>
    run.head?.map fun e => (e.1, run.map Prod.snd)

/-- What the modules declare, by the edges of their map: the rows without their ends. -/
def declarationsOf (edges : List (Name × Name)) : List (Name × List Name) :=
  (rowsOf edges).map fun row => (row.1, row.2.dropLast)

theorem splitBy_edges (h : ∀ row ∈ m.rows, row.2 ≠ []) :
    (m.edges.splitBy fun e e' => e.1 == e'.1) = m.rows.map fun row => row.2.map (row.1, ·) := by
  have hflat : m.edges = (m.rows.map fun row => row.2.map (row.1, ·)).flatten := rfl
  have hkeys : m.rows.Pairwise fun row row' => row.1 ≠ row'.1 := List.pairwise_map.1 m.nodup
  rw [hflat]
  refine List.splitBy_flatten ?_ ?_ ?_
  · intro hnil
    obtain ⟨row, hrow, hempty⟩ := List.mem_map.1 hnil
    exact h row hrow (List.map_eq_nil_iff.1 hempty)
  · rw [List.forall_mem_map]
    intro row _
    rw [List.isChain_map]
    exact (List.pairwise_of_forall fun _ _ => beq_self_eq_true row.1).isChain
  · refine (List.isChain_map _).2 (hkeys.imp_of_mem fun hrow hrow' hne => ?_).isChain
    refine ⟨by simpa using h _ hrow, by simpa using h _ hrow', ?_⟩
    simpa using hne

theorem rowsOf_edges (h : ∀ row ∈ m.rows, row.2 ≠ []) : rowsOf m.edges = m.rows := by
  have hrow : ∀ row ∈ m.rows, ((row.2.map (row.1, ·)).head?.map fun e =>
      (e.1, (row.2.map (row.1, ·)).map Prod.snd)) = some (id row) := by
    rintro ⟨key, targets⟩ hmem
    obtain ⟨d, ds, rfl⟩ := List.exists_cons_of_ne_nil (h _ hmem)
    simp [Function.comp_def]
  rw [rowsOf, splitBy_edges h, List.filterMap_map]
  exact (List.filterMap_eq_map_iff_forall_eq_some.2 hrow).trans (List.map_id _)

namespace Describes

variable (h : m.Describes root modules)

include h

theorem get?_name {x : Manifest} (hx : x ∈ modules) :
    m.get? x.name = some (x.usesSplits ++ [root]) := by
  rw [get?, h.rows_eq, lookup_map_row, find?_name_eq h.nodup_names hx]
  rfl

theorem hasEdge_root {key : Name} (hkey : key ∈ m.keys) : m.hasEdge key root := by
  rw [h.keys_eq] at hkey
  obtain ⟨x, hx, rfl⟩ := List.mem_map.1 hkey
  simp [hasEdge, get, h.get?_name hx]

theorem edgeCount_eq :
    m.edgeCount = modules.length + (modules.map fun x => x.usesSplits.length).sum := by
  rw [edgeCount, h.rows_eq, List.flatMap_map, List.length_flatMap]
  simp [Manifest.row, List.sum_map_add, Nat.add_comm]

theorem declarationsOf_edges :
    declarationsOf m.edges = modules.map fun x => (x.name, x.usesSplits) := by
  have hrows : ∀ row ∈ m.rows, row.2 ≠ [] := by
    rw [h.rows_eq, List.forall_mem_map]
    exact fun x _ => List.concat_ne_nil root x.usesSplits
  rw [declarationsOf, rowsOf_edges hrows, h.rows_eq, List.map_map]
  simp [Manifest.row, Function.comp_def]

end Describes

/-- Without a base module there is no map. With one, its name is the root, and the first module that
repeats a name or declares the root is told, the repeated name first. If there is none, the map
keeps all that the modules declare: each has its own row in its place, with the root once behind its
dependencies, and the edges alone tell the modules again. -/
theorem ofModules_keeps_declarations (modules : List Manifest) :
    (ofModules modules = .error (.fault .noBaseModule) ↔ ∀ x ∈ modules, ¬x.isBase) ∧
      ∀ base, IsFirst (fun x => x.isBase) modules base →
        let root := base.name
        (∀ before x, IsFirstAt (Misplaced root) modules before x →
          ofModules modules = .error (.violation (misplacement root before x))) ∧
        ((∀ before x, ¬IsFirstAt (Misplaced root) modules before x) →
          ∃ m, ofModules modules = .ok m ∧ m.base = root ∧
            m.keys = modules.map Manifest.name ∧ m.keys.Nodup ∧
            (∀ x ∈ modules, m.get? x.name = some (x.usesSplits ++ [root]) ∧ root ∉ x.usesSplits) ∧
            (∀ key ∈ m.keys, m.hasEdge key root) ∧
            m.edgeCount = modules.length + (modules.map fun x => x.usesSplits.length).sum ∧
            declarationsOf m.edges = modules.map fun x => (x.name, x.usesSplits)) := by
  refine ⟨?_, fun base hbase => ?_⟩
  · rw [ofModules_eq_fault_iff, baseName?_eq_none_iff]
    exact and_iff_left rfl
  have hroot : baseName? modules = some base.name := baseName?_eq_some_iff.2 ⟨base, hbase, rfl⟩
  rcases ofModules_cases hroot with ⟨m, hm, hdesc, hnone⟩ | ⟨before, x, hm, hfirst⟩
  · refine ⟨fun before x hx => absurd hx (hnone before x), fun _ => ⟨m, hm, hdesc.base_eq,
      hdesc.keys_eq, m.nodup, fun x hx => ⟨hdesc.get?_name hx, hdesc.implicit x hx⟩,
      fun key => hdesc.hasEdge_root, hdesc.edgeCount_eq, hdesc.declarationsOf_edges⟩⟩
  · refine ⟨fun before' x' hx' => ?_, fun hnone => absurd hfirst (hnone before x)⟩
    obtain ⟨rfl, rfl⟩ := hfirst.unique hx'
    exact hm

/-- A dependency that is declared twice is found twice. -/
example : declarationsOf [("base", "base"), ("a", "b"), ("a", "b"), ("a", "base")] =
    ([("base", []), ("a", ["b", "b"])] : List (Name × List Name)) := by decide

end BundleGraph.DependencyMap
