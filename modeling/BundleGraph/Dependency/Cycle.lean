import BundleGraph.Dependency.Map

/-!
# Cycles of a dependency map

A depth-first search with an explicit stack. From each key in turn it follows dependencies until
one stands on the current path. A module that was left without finding a cycle is visited, and the
visited modules of a finished start are safe; neither is entered again. A module that depends on
itself is no cycle.

A step either visits a key for the first time or uses up a dependency or a frame, so every search
ends: `next_decreases`.
-/
namespace BundleGraph.CycleSearch

/-- A module on the current path and its dependencies still to be followed. -/
structure Frame where
  name : Name
  remaining : List Name
deriving DecidableEq

/-- A search from one start: the frames with the innermost first, the current path from the start
on, and the modules reached so far. -/
structure State where
  stack : List Frame
  path : List Name
  visited : List Name
deriving DecidableEq

inductive Outcome where
  | finished
  | cycle (path : List Name)
  | next (s : State)

def State.start (m : DependencyMap) (x : Name) : State := ⟨[⟨x, m.get x⟩], [x], [x]⟩

/-- One step: follow or skip the next dependency of the innermost frame, or leave the frame. -/
def State.step (m : DependencyMap) (safe : List Name) (s : State) : Outcome :=
  match s.stack with
  | [] => .finished
  | ⟨x, []⟩ :: outer => .next ⟨outer, s.path.erase x, s.visited⟩
  | ⟨x, d :: ds⟩ :: outer =>
    if d = x ∨ d ∈ safe then .next ⟨⟨x, ds⟩ :: outer, s.path, s.visited⟩
    else if d ∈ s.path then .cycle s.path
    else if d ∈ s.visited then .next ⟨⟨x, ds⟩ :: outer, s.path, s.visited⟩
    else .next ⟨⟨d, m.get d⟩ :: ⟨x, ds⟩ :: outer, s.path ++ [d], d :: s.visited⟩

def State.unvisited (m : DependencyMap) (s : State) : List Name :=
  m.keys.filter (· ∉ s.visited)

/-- The frames and, twice each, the dependencies that are left on the stack. -/
def State.weight (s : State) : Nat := s.stack.foldr (fun f n => 2 * f.remaining.length + 1 + n) 0

theorem unvisited_cons (m : DependencyMap) (stack : List Frame) (path visited : List Name)
    (d : Name) :
    (State.mk stack path (d :: visited)).unvisited m =
      (m.keys.filter (· ∉ visited)).filter (· ≠ d) := by
  simp [State.unvisited, List.filter_filter]

theorem unvisited_cons_lt {m : DependencyMap} {visited : List Name} {d : Name}
    (key : d ∈ m.keys) (fresh : d ∉ visited) (stack : List Frame) (path : List Name) :
    ((State.mk stack path (d :: visited)).unvisited m).length <
      (m.keys.filter (· ∉ visited)).length := by
  rw [unvisited_cons, List.length_filter_lt_length_iff_exists]
  exact ⟨d, by simp [key, fresh]⟩

theorem unvisited_cons_le (m : DependencyMap) (stack : List Frame) (path visited : List Name)
    (d : Name) :
    ((State.mk stack path (d :: visited)).unvisited m).length ≤
      (m.keys.filter (· ∉ visited)).length := by
  rw [unvisited_cons]
  exact List.length_filter_le _ _

theorem next_decreases {m : DependencyMap} {safe : List Name} {s s' : State}
    (h : s.step m safe = .next s') :
    Prod.Lex (· < ·) (· < ·) ((s'.unvisited m).length, s'.weight)
      ((s.unvisited m).length, s.weight) := by
  obtain ⟨stack, path, visited⟩ := s
  match stack with
  | [] => simp [State.step] at h
  | ⟨x, []⟩ :: outer =>
    simp only [State.step, Outcome.next.injEq] at h
    subst h
    exact Prod.Lex.right _ (by simp [State.weight])
  | ⟨x, d :: ds⟩ :: outer =>
    simp only [State.step] at h
    split at h
    · simp only [Outcome.next.injEq] at h
      subst h
      exact Prod.Lex.right _ (by simp [State.weight])
    · split at h
      · simp at h
      · split at h
        · simp only [Outcome.next.injEq] at h
          subst h
          exact Prod.Lex.right _ (by simp [State.weight])
        · rename_i fresh
          simp only [Outcome.next.injEq] at h
          subst h
          by_cases key : d ∈ m.keys
          · exact Prod.Lex.left _ _ (unvisited_cons_lt key fresh _ _)
          · rcases Nat.lt_or_eq_of_le (unvisited_cons_le m _ _ visited d) with hlt | heq
            · exact Prod.Lex.left _ _ hlt
            · rw [heq]
              exact Prod.Lex.right _ (by
                simp [State.weight, DependencyMap.get_eq_nil key]
                omega)

/-- The modules visited from a state on, or the path on which a cycle was found. -/
def State.run (m : DependencyMap) (safe : List Name) (s : State) :
    Except (List Name) (List Name) :=
  match _h : s.step m safe with
  | .finished => .ok s.visited
  | .cycle path => .error path
  | .next s' => s'.run m safe
termination_by ((s.unvisited m).length, s.weight)
decreasing_by exact next_decreases _h

theorem run_of_finished {m : DependencyMap} {safe : List Name} {s : State}
    (h : s.step m safe = .finished) : s.run m safe = .ok s.visited := by
  rw [State.run]
  split <;> simp_all

theorem run_of_cycle {m : DependencyMap} {safe path : List Name} {s : State}
    (h : s.step m safe = .cycle path) : s.run m safe = .error path := by
  rw [State.run]
  split <;> simp_all

theorem run_of_next {m : DependencyMap} {safe : List Name} {s s' : State}
    (h : s.step m safe = .next s') : s.run m safe = s'.run m safe := by
  rw [State.run]
  split <;> simp_all

/-- The safe modules after a search from each of the starts that is not safe by then. -/
def runAll (m : DependencyMap) (safe : List Name) : List Name → Except (List Name) (List Name)
  | [] => .ok safe
  | x :: rest =>
    if x ∈ safe then runAll m safe rest
    else ((State.start m x).run m safe).bind fun visited => runAll m (visited ++ safe) rest

end BundleGraph.CycleSearch

namespace BundleGraph.DependencyMap

/-- The path that leads back into itself, or else all modules, which are then safe. -/
def searchCycle (m : DependencyMap) : Except (List Name) (List Name) :=
  CycleSearch.runAll m [] m.keys

end BundleGraph.DependencyMap
