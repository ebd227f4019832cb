import BundleGraph.Dependency.Construction
import BundleGraph.Dependency.Cycle
import Mathlib.Logic.Embedding.Basic
import Mathlib.Data.List.Nodup

/-!
# Dependency maps under other names

An injective renaming of the modules commutes with the construction of the map and with the search
for cycles: each state of the search is the renamed state, so its path is the renamed path. Nothing
is compared but two names with each other, which an injective renaming neither joins nor separates.
-/
namespace BundleGraph

variable (f : Name ↪ Name)

theorem Assoc.keys_map_rename {ν ν' : Type} (g : ν → ν') (rows : List (Name × ν)) :
    keys (rows.map (Prod.map f g)) = (keys rows).map f := by
  simp [keys]

theorem Assoc.lookup_map_rename {ν ν' : Type} (g : ν → ν') (rows : List (Name × ν)) (x : Name) :
    (rows.map (Prod.map f g)).lookup (f x) = (rows.lookup x).map g := by
  induction rows with
  | nil => rfl
  | cons row rows ih =>
    obtain ⟨y, v⟩ := row
    by_cases h : x = y
    · simp [h]
    · have hf : f x ≠ f y := f.injective.ne h
      simp [List.lookup_cons, ih, beq_eq_false_iff_ne.2 h, beq_eq_false_iff_ne.2 hf]

def Manifest.rename (x : Manifest) : Manifest :=
  { x with name := f x.name, splitId := x.splitId.map f, usesSplits := x.usesSplits.map f }

theorem baseName?_rename (modules : List Manifest) :
    baseName? (modules.map (Manifest.rename f)) = (baseName? modules).map f := by
  rw [baseName?, baseName?, List.find?_map, Option.map_map, Option.map_map]
  rfl

namespace DependencyMap

def rename (m : DependencyMap) : DependencyMap where
  base := f m.base
  rows := m.rows.map (Prod.map f (List.map f))
  nodup := by
    rw [Assoc.keys_map_rename]
    exact List.Nodup.map f.injective m.nodup

variable (m : DependencyMap)

@[simp] theorem base_rename : (m.rename f).base = f m.base := rfl

@[simp] theorem keys_rename : (m.rename f).keys = m.keys.map f := Assoc.keys_map_rename f _ _

@[simp] theorem get_rename (x : Name) : (m.rename f).get (f x) = (m.get x).map f := by
  rw [get, get?, rename, Assoc.lookup_map_rename, get, get?]
  cases m.rows.lookup x <;> rfl

@[simp] theorem edges_rename : (m.rename f).edges = m.edges.map (Prod.map f f) := by
  simp [edges, rename, List.map_flatMap, List.flatMap_map, Function.comp_def]

@[simp] theorem targets_rename : (m.rename f).targets = m.targets.map f := by
  simp [targets]

theorem hasEdge_rename (x d : Name) : (m.rename f).hasEdge (f x) (f d) = m.hasEdge x d := by
  simp [hasEdge, List.mem_map_of_injective f.injective]

end DependencyMap

namespace CycleSearch

def Frame.rename (frame : Frame) : Frame := ⟨f frame.name, frame.remaining.map f⟩

def State.rename (s : State) : State :=
  ⟨s.stack.map (Frame.rename f), s.path.map f, s.visited.map f⟩

def Outcome.rename : Outcome → Outcome
  | .finished => .finished
  | .cycle path => .cycle (path.map f)
  | .next s => .next (s.rename f)

variable {m : DependencyMap} {safe : List Name} {s s' : State}

theorem start_rename (m : DependencyMap) (x : Name) :
    State.start (m.rename f) (f x) = (State.start m x).rename f := by
  simp [State.start, State.rename, Frame.rename]

/-- A step does under other names what it does under the given ones. -/
theorem step_rename (m : DependencyMap) (safe : List Name) (s : State) :
    (s.rename f).step (m.rename f) (safe.map f) = (s.step m safe).rename f := by
  obtain ⟨stack, path, visited⟩ := s
  match stack with
  | [] => rfl
  | ⟨x, []⟩ :: outer =>
    simp [State.step, State.rename, Frame.rename, Outcome.rename, List.map_erase f.injective]
  | ⟨x, d :: ds⟩ :: outer =>
    simp only [State.step, State.rename, Frame.rename, List.map_cons,
      List.mem_map_of_injective f.injective, f.injective.eq_iff, DependencyMap.get_rename]
    split_ifs <;> simp [Outcome.rename, State.rename, Frame.rename]

theorem run_rename (m : DependencyMap) (safe : List Name) (s : State) :
    (s.rename f).run (m.rename f) (safe.map f) =
      ((s.run m safe).map (List.map f)).mapError (List.map f) := by
  fun_induction State.run m safe s with
  | case1 s h =>
    apply run_of_finished
    rw [step_rename, h, Outcome.rename]
  | case2 s path h =>
    apply run_of_cycle
    rw [step_rename, h, Outcome.rename]
  | case3 s s' h ih =>
    rw [← ih]
    apply run_of_next
    rw [step_rename, h, Outcome.rename]

theorem runAll_rename (m : DependencyMap) (safe starts : List Name) :
    runAll (m.rename f) (safe.map f) (starts.map f) =
      ((runAll m safe starts).map (List.map f)).mapError (List.map f) := by
  induction starts generalizing safe with
  | nil => rfl
  | cons x rest ih =>
    simp only [runAll, List.map_cons, List.mem_map_of_injective f.injective]
    split_ifs
    · exact ih safe
    · rw [start_rename, run_rename]
      cases (State.start m x).run m safe with
      | error path => rfl
      | ok visited =>
        simpa [Except.map, Except.mapError, Except.bind] using ih (visited ++ safe)

end CycleSearch

theorem DependencyMap.searchCycle_rename (m : DependencyMap) :
    (m.rename f).searchCycle =
      ((m.searchCycle).map (List.map f)).mapError (List.map f) := by
  rw [searchCycle, keys_rename]
  exact CycleSearch.runAll_rename f m [] m.keys

end BundleGraph
