import BundleGraph.Assoc
import BundleGraph.Bundle.Manifest

/-!
# Dependency maps

Which modules each module depends on. The keys are distinct and stand in the order of the modules,
and the targets of a key stand in the order of their declaration, repetitions included. A target
need not be a key.
-/
namespace BundleGraph

/-- The dependencies of the modules of a bundle, with the name of the base module. -/
structure DependencyMap where
  base : Name
  rows : List (Name × List Name)
  nodup : (Assoc.keys rows).Nodup

namespace DependencyMap

/-- The map of given rows. A repeated key keeps its first place and its last row. -/
def ofPairs (base : Name) (pairs : List (Name × List Name)) : DependencyMap :=
  ⟨base, Assoc.ofPairs pairs, Assoc.nodup_keys_ofPairs pairs⟩

def empty (base : Name) : DependencyMap := ⟨base, [], List.nodup_nil⟩

def keys (m : DependencyMap) : List Name := Assoc.keys m.rows

def push (m : DependencyMap) (key : Name) (targets : List Name) (fresh : key ∉ m.keys) :
    DependencyMap where
  base := m.base
  rows := m.rows ++ [(key, targets)]
  nodup := by
    have h : Assoc.keys (m.rows ++ [(key, targets)]) = m.keys ++ [key] := by
      simp [Assoc.keys, keys]
    rw [h, List.nodup_append]
    exact ⟨m.nodup, by simp, by rintro a ha b hb rfl; exact fresh (by simp_all)⟩

def get? (m : DependencyMap) (key : Name) : Option (List Name) := m.rows.lookup key

def get (m : DependencyMap) (key : Name) : List Name := (m.get? key).getD []

/-- The edges in order: a module and one of its dependencies. -/
def edges (m : DependencyMap) : List (Name × Name) :=
  m.rows.flatMap fun row => row.2.map (row.1, ·)

def targets (m : DependencyMap) : List Name := m.edges.map Prod.snd

def hasEdge (m : DependencyMap) (key target : Name) : Bool := target ∈ m.get key

def edgeCount (m : DependencyMap) : Nat := (m.rows.flatMap Prod.snd).length

/-- Whether two maps have the same keys with the same dependencies. The order of the keys and the
base module do not matter. -/
def sameRows (m m' : DependencyMap) : Bool :=
  m.rows.length = m'.rows.length && m.rows.all fun row => m'.get? row.1 = some row.2

/-- A sequence of names in parentheses; a comma marks a single name. -/
def shownTargets : List Name → Text
  | [] => "()"
  | [d] => Text.concat ["(", d.quoted, ",)"]
  | ds => Text.concat ["(", Text.joinWith ", " (ds.map Text.quoted), ")"]

def shown (m : DependencyMap) : Text :=
  Text.concat ["DependencyMap(\x7b",
    Text.joinWith ", " (m.rows.map fun row =>
      Text.concat [row.1.quoted, ": ", shownTargets row.2]),
    "\x7d)"]

@[simp] theorem keys_push (m : DependencyMap) (key : Name) (targets : List Name)
    (fresh : key ∉ m.keys) : (m.push key targets fresh).keys = m.keys ++ [key] := by
  simp [push, keys, Assoc.keys]

theorem edgeCount_eq_length (m : DependencyMap) : m.edgeCount = m.edges.length := by
  simp [edgeCount, edges, List.length_flatMap]

theorem get_eq_nil {m : DependencyMap} {key : Name} (h : key ∉ m.keys) : m.get key = [] := by
  have : m.rows.lookup key = none := by
    rw [List.lookup_eq_none_iff]
    intro p hp
    rw [bne_iff_ne]
    rintro rfl
    exact h (List.mem_map_of_mem hp)
  simp [get, get?, this]

end DependencyMap

end BundleGraph
