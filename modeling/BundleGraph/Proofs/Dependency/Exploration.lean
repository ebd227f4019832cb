import BundleGraph.Proofs.Audit.Inspection

/-!
# The search without memory

The plain depth-first search knows the current path and nothing else: it explores a dependency anew
each time that it meets it. The search with safe and visited names and a stack of frames comes to
the same, path included. What it passes over is settled, and from a settled name neither a cycle nor
the path can be reached, so the plain search comes back from there with nothing. The frames hold
what the plain search has still to do, and no step changes what that comes to.
-/
namespace BundleGraph

open Relation (ReflTransGen TransGen)

namespace DependencyMap

variable {m : DependencyMap} {path : List Name} {x d : Name}

def offPath (m : DependencyMap) (path : List Name) : List Name := m.keys.filter (· ∉ path)

theorem offPath_concat (m : DependencyMap) (path : List Name) (d : Name) :
    m.offPath (path ++ [d]) = (m.offPath path).filter (· ≠ d) := by
  simp [offPath, List.filter_filter, and_comm]

/-- A path that goes on leaves fewer keys, or it ends there. -/
theorem offPath_concat_decreases (hd : d ∈ m.get x) (fresh : d ∉ path) :
    Prod.Lex (· < ·) (· < ·) ((m.offPath (path ++ [d])).length, (m.get d).length)
      ((m.offPath path).length, (m.get x).length) := by
  rw [offPath_concat]
  by_cases key : d ∈ m.keys
  · refine Prod.Lex.left _ _ (List.length_filter_lt_length_iff_exists.2 ⟨d, ?_⟩)
    simp [offPath, key, fresh]
  · rcases Nat.lt_or_eq_of_le (List.length_filter_le (· ≠ d) (m.offPath path)) with hlt | heq
    · exact Prod.Lex.left _ _ hlt
    · rw [heq, get_eq_nil key]
      exact Prod.Lex.right _ (List.length_pos_of_mem hd)

/-- The path on which the plain search meets a name again, from the last name `x` of `path` on. It
follows the dependencies in their order and explores each of them as often as it meets it. -/
def explore (m : DependencyMap) (path : List Name) (x : Name) : Option (List Name) :=
  (m.get x).attach.findSome? fun ⟨d, _⟩ =>
    if d = x then none else if d ∈ path then some path else m.explore (path ++ [d]) d
termination_by ((m.offPath path).length, (m.get x).length)
decreasing_by exact offPath_concat_decreases ‹_› ‹_›

def exploreAll (m : DependencyMap) : Option (List Name) := m.keys.findSome? fun x => m.explore [x] x

/-- What the plain search comes to along one dependency. -/
def follow (m : DependencyMap) (path : List Name) (x d : Name) : Option (List Name) :=
  if d = x then none else if d ∈ path then some path else m.explore (path ++ [d]) d

theorem explore_eq (m : DependencyMap) (path : List Name) (x : Name) :
    m.explore path x = (m.get x).findSome? (m.follow path x) := by
  rw [explore, List.findSome?_subtype (g := m.follow path x) fun _ _ => rfl,
    List.unattach_attach]

theorem follow_of_fresh (other : d ≠ x) (fresh : d ∉ path) :
    m.follow path x d = m.explore (path ++ [d]) d := by
  rw [follow, if_neg other, if_neg fresh]

/-- From a name at which no chain of dependencies goes on for ever or comes back to the path, there
is nothing to be met, however often it is explored. -/
theorem explore_eq_none (hends : Acc (fun y x => DependsOn m.get x y) x)
    (hoff : ∀ y, ReflTransGen (DependsOn m.get) x y → y ∉ path) :
    m.explore (path ++ [x]) x = none := by
  induction hends generalizing path with
  | intro x hends ih =>
    rw [explore_eq, List.findSome?_eq_none_iff]
    intro d hd
    by_cases hself : d = x
    · exact if_pos hself
    have hxd : DependsOn m.get x d := ⟨hd, hself⟩
    have hoff' : ∀ y, ReflTransGen (DependsOn m.get) d y → y ∉ path ++ [x] := by
      intro y hdy
      rw [List.mem_append, List.mem_singleton]
      rintro (hy | rfl)
      · exact hoff y (.head hxd hdy) hy
      · exact not_leadsToCycle_of_acc ⟨y, hends⟩ (.of_transGen (.head' hxd hdy))
    rw [follow_of_fresh hself (hoff' d .refl)]
    exact ih d hxd hoff'

end DependencyMap

namespace CycleSearch

open DependencyMap

variable {m : DependencyMap} {safe : List Name} {s s' : State} {start x d : Name}

/-- What the plain search comes to that has still to follow what the frames have left. -/
def pending (m : DependencyMap) : List Frame → Option (List Name)
  | [] => none
  | ⟨x, ds⟩ :: outer =>
    (ds.findSome? (m.follow ((outer.map Frame.name).reverse ++ [x]) x)).or (pending m outer)

theorem pending_cons_cons (m : DependencyMap) (x d : Name) (ds : List Name) (outer : List Frame) :
    pending m (⟨x, d :: ds⟩ :: outer) =
      (m.follow ((outer.map Frame.name).reverse ++ [x]) x d).or (pending m (⟨x, ds⟩ :: outer)) := by
  rw [pending, pending, List.findSome?_cons]
  cases m.follow ((outer.map Frame.name).reverse ++ [x]) x d <;> rfl

theorem Inv.not_mem_path (h : Inv m safe start s) (hx : Settled safe s.path s.visited x) :
    x ∉ s.path := by
  rcases hx with hx | hx
  · exact fun hpath => h.fresh x (h.visited x hpath) hx
  · exact hx.2

theorem Inv.follow_settled (h : Inv m safe start s) (hd : Settled safe s.path s.visited d)
    (x : Name) : m.follow s.path x d = none := by
  have hoff : ∀ y, ReflTransGen (DependsOn m.get) d y → y ∉ s.path := by
    intro y hdy
    apply h.not_mem_path
    induction hdy with
    | refl => exact hd
    | tail _ hyz ih => exact h.closed _ ih _ hyz
  rw [follow, if_neg (hoff d .refl), explore_eq_none (h.ends d hd) hoff, ite_self]

/-- No step changes what the plain search comes to. -/
theorem Inv.pending_eq (h : Inv m safe start s) (hs : s.step m safe = .next s') :
    pending m s'.stack = pending m s.stack := by
  have hpath := h.path_eq
  cases move_of_step hs with
  | leave x outer => rw [pending, List.findSome?_nil, Option.none_or]
  | skip x d ds outer path visited known =>
    obtain rfl : path = (outer.map Frame.name).reverse ++ [x] := by simpa using hpath
    have hfollow : m.follow ((outer.map Frame.name).reverse ++ [x]) x d = none := by
      rcases known with rfl | known
      · exact if_pos rfl
      · exact h.follow_settled known x
    rw [pending_cons_cons, hfollow, Option.none_or]
  | enter x d ds outer path visited other unsettled fresh =>
    obtain rfl : path = (outer.map Frame.name).reverse ++ [x] := by simpa using hpath
    have offPath : d ∉ (outer.map Frame.name).reverse ++ [x] := fun hd => fresh (h.visited d hd)
    rw [pending_cons_cons, follow_of_fresh other offPath, explore_eq]
    simp only [pending, List.map_cons, List.reverse_cons]

theorem run_start_cases (hsafe : Safe m safe) (hx : x ∉ safe) :
    (∃ visited, (State.start m x).run m safe = .ok visited ∧ m.explore [x] x = none ∧
      Safe m (visited ++ safe)) ∨
    ∃ path, (State.start m x).run m safe = .error path ∧ m.explore [x] x = some path := by
  have hstart : pending m (State.start m x).stack = m.explore [x] x := by
    rw [explore_eq]
    exact Option.or_none
  have keep : ∀ s s', Inv m safe x s ∧ pending m s.stack = m.explore [x] x →
      s.step m safe = .next s' → Inv m safe x s' ∧ pending m s'.stack = m.explore [x] x :=
    fun s s' h hs => ⟨h.1.step hs, (h.1.pending_eq hs).trans h.2⟩
  rcases run_cases keep _ ⟨inv_start hsafe hx, hstart⟩ with
    ⟨s, ⟨hinv, hpending⟩, hstep, hrun⟩ | ⟨s, path, ⟨hinv, hpending⟩, hstep, hrun⟩
  · rw [stack_eq_nil_of_step hstep] at hpending
    exact .inl ⟨s.visited, hrun, hpending.symm, (hinv.finished hstep).1⟩
  · obtain ⟨y, d, ds, outer, hstack, hdy, hd, rfl⟩ := cycle_of_step hstep
    have hpath : s.path = (outer.map Frame.name).reverse ++ [y] := by
      simpa [hstack] using hinv.path_eq
    rw [hstack, pending_cons_cons, ← hpath, follow, if_neg hdy, if_pos hd, Option.some_or]
      at hpending
    exact .inr ⟨s.path, hrun, hpending.symm⟩

theorem Safe.explore_eq_none (hsafe : Safe m safe) (hx : x ∈ safe) : m.explore [x] x = none :=
  DependencyMap.explore_eq_none (hsafe.ends x hx) fun _ _ => List.not_mem_nil

theorem runAll_cases (hsafe : Safe m safe) (keys : List Name) :
    (∃ safe', runAll m safe keys = .ok safe' ∧
      keys.findSome? (fun x => m.explore [x] x) = none) ∨
    ∃ path, runAll m safe keys = .error path ∧
      keys.findSome? (fun x => m.explore [x] x) = some path := by
  induction keys generalizing safe with
  | nil => exact .inl ⟨safe, rfl, rfl⟩
  | cons x keys ih =>
    rw [runAll, List.findSome?_cons]
    split_ifs with hx
    · rw [hsafe.explore_eq_none hx]
      exact ih hsafe
    · rcases run_start_cases hsafe hx with
        ⟨visited, hrun, hexplore, hsafe'⟩ | ⟨path, hrun, hexplore⟩
      · rw [hrun, hexplore]
        exact ih hsafe'
      · rw [hrun, hexplore]
        exact .inr ⟨path, rfl, rfl⟩

end CycleSearch

/-- The search finds a cycle just where the plain one does, and on the same path. -/
theorem Inspection.cycleViolation?_eq_exploreAll (m : DependencyMap) :
    cycleViolation? m = m.exploreAll.map .cycle := by
  have hsafe : CycleSearch.Safe m [] := ⟨by simp, by simp⟩
  unfold cycleViolation? DependencyMap.searchCycle DependencyMap.exploreAll
  rcases CycleSearch.runAll_cases hsafe m.keys with
    ⟨safe, hrun, hexplore⟩ | ⟨path, hrun, hexplore⟩
  · rw [hrun, hexplore]
    rfl
  · rw [hrun, hexplore]
    rfl

end BundleGraph
