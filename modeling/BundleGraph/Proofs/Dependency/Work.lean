import BundleGraph.Proofs.Dependency.Inventory
import BundleGraph.Proofs.Dependency.Sweep

/-!
# The work of a sweep

What a sweep does in its turns: it pushes frames on the stack and takes dependencies from the lists
that they go through, each of them once over the whole sweep. What has been pushed is visited or
safe, and such a name is not pushed again. What has been taken lies behind what the frame of its key
has left, and there is never another frame for the key. So there are no more pushes than names and
no more takes than positions, and this is why a sweep ends: every turn is paid for by a push, by a
take or by a key.
-/
namespace BundleGraph

namespace CycleSearch.Sweep

/-- The frames on the stack, none between two searches. -/
def stack : Sweep → List Frame
  | ⟨_, _, none⟩ => []
  | ⟨_, _, some s⟩ => s.stack

/-- The names that have been visited by this search or an earlier one, the last one first. -/
def reached : Sweep → List Name
  | ⟨safe, _, none⟩ => safe
  | ⟨safe, _, some s⟩ => s.visited ++ safe

/-- The name of the frame that has been pushed on the way from `w` to `w'`, if the stack has grown.
-/
def pushed? (w w' : Sweep) : Option Name :=
  if w.stack.length < w'.stack.length then w'.stack.head?.map Frame.name else none

/-- The position of the dependency that comes next in the innermost frame. -/
def taken? (m : DependencyMap) (w : Sweep) : Option (Name × ℕ) :=
  match w.stack with
  | ⟨x, d :: ds⟩ :: _ => some (x, (m.get x).length - (d :: ds).length)
  | _ => none

end CycleSearch.Sweep

namespace DependencyMap

open CycleSearch

def pushAt (m : DependencyMap) (n : ℕ) : Option Name :=
  (m.sweepAt n).bind fun w => (m.sweepAt (n + 1)).bind w.pushed?

/-- The position that a turn takes, if it takes one. The turn that finds a cycle takes one, too. -/
def takeAt (m : DependencyMap) (n : ℕ) : Option (Name × ℕ) := (m.sweepAt n).bind (Sweep.taken? m)

def pushes (m : DependencyMap) (n : ℕ) : List Name := (List.range n).filterMap m.pushAt

def takes (m : DependencyMap) (n : ℕ) : List (Name × ℕ) := (List.range n).filterMap m.takeAt

def stackAt (m : DependencyMap) (n : ℕ) : List Frame := ((m.sweepAt n).map Sweep.stack).getD []

end DependencyMap

namespace CycleSearch

variable {m : DependencyMap} {safe : List Name} {s s' : State} {w w' : Sweep} {n : ℕ}

section Record

variable {α : Type*} {f : ℕ → Option α}

theorem filterMap_range_succ (f : ℕ → Option α) (n : ℕ) :
    (List.range (n + 1)).filterMap f = (List.range n).filterMap f ++ (f n).toList := by
  rw [List.range_succ, List.filterMap_append]
  cases h : f n <;> simp [h]

/-- A record to which only new entries are added has each of them once. -/
theorem nodup_filterMap_range (h : ∀ n, ∀ x ∈ f n, x ∉ (List.range n).filterMap f) (n : ℕ) :
    ((List.range n).filterMap f).Nodup := by
  induction n with
  | zero => exact List.nodup_nil
  | succ n ih =>
    rw [filterMap_range_succ]
    cases hf : f n with
    | none => simpa using ih
    | some x =>
      rw [Option.toList_some, ← List.concat_eq_append]
      exact ih.concat (h n x hf)

theorem pushAt_eq (hw : m.sweepAt n = some w) (hw' : m.sweepAt (n + 1) = some w') :
    m.pushAt n = w.pushed? w' := by
  simp [DependencyMap.pushAt, hw, hw']

theorem takeAt_eq (hw : m.sweepAt n = some w) : m.takeAt n = w.taken? m := by
  simp [DependencyMap.takeAt, hw]

theorem pushes_succ (m : DependencyMap) (n : ℕ) :
    m.pushes (n + 1) = m.pushes n ++ (m.pushAt n).toList := filterMap_range_succ _ n

theorem takes_succ (m : DependencyMap) (n : ℕ) :
    m.takes (n + 1) = m.takes n ++ (m.takeAt n).toList := filterMap_range_succ _ n

end Record

section Pushes

variable {x : Name}

theorem Advance.reached_eq (h : Advance m w w') :
    w'.reached = (w.pushed? w').toList ++ w.reached := by
  cases h with
  | pass => rfl
  | begin => rfl
  | settle s safe starts finished => simp [Sweep.reached, Sweep.pushed?, Sweep.stack]
  | step s s' safe starts next =>
    cases move_of_step next with
    | leave => simp [Sweep.reached, Sweep.pushed?, Sweep.stack]
    | skip => simp [Sweep.reached, Sweep.pushed?, Sweep.stack]
    | enter => simp [Sweep.reached, Sweep.pushed?, Sweep.stack]

/-- A name is pushed if it is a start or a dependency, and only if it has not been reached. -/
theorem Advance.pushed_new (h : Advance m w w') (hkept : Kept m w)
    (hx : w.pushed? w' = some x) : x ∉ w.reached ∧ x ∈ m.names := by
  cases h with
  | pass => simp [Sweep.pushed?, Sweep.stack] at hx
  | begin y safe starts fresh =>
    obtain rfl : y = x := by simpa [Sweep.pushed?, Sweep.stack, State.start] using hx
    exact ⟨fresh, DependencyMap.mem_names.2 (.inl (hkept.starts (by simp)))⟩
  | settle s safe starts finished => simp [Sweep.pushed?, Sweep.stack] at hx
  | step s s' safe starts next =>
    cases move_of_step next with
    | leave => simp [Sweep.pushed?, Sweep.stack] at hx
    | skip => simp [Sweep.pushed?, Sweep.stack] at hx
    | enter y d ds outer path visited other unsettled fresh =>
      obtain rfl : d = x := by simpa [Sweep.pushed?, Sweep.stack] using hx
      obtain ⟨start, hinv⟩ := hkept.search _ rfl
      obtain ⟨⟨done, hdeps, -⟩, -⟩ := hinv.explored
      have hedge : m.Edge y d := DependencyMap.edge_iff.2 (by simp [hdeps])
      have htarget : d ∈ m.targets := List.mem_map_of_mem hedge
      exact ⟨by simp [Sweep.reached, fresh, unsettled], DependencyMap.mem_names.2 (.inr htarget)⟩

theorem pushes_eq (h : m.sweepAt n = some w) : m.pushes n = w.reached.reverse := by
  refine sweepAt_induction (p := fun n w => m.pushes n = w.reached.reverse) rfl ?_ h
  intro n w w' hw hw' hadvance ih
  rw [pushes_succ, ih, pushAt_eq hw hw', hadvance.reached_eq]
  cases w.pushed? w' <;> simp

theorem pushAt_new (h : m.pushAt n = some x) : x ∉ m.pushes n ∧ x ∈ m.names := by
  obtain ⟨w, hw, h⟩ := Option.bind_eq_some_iff.1 h
  obtain ⟨w', hw', hpush⟩ := Option.bind_eq_some_iff.1 h
  obtain ⟨w₀, hw₀, hturn⟩ := sweepAt_succ_eq_some_iff.1 hw'
  obtain rfl := Option.some.inj (hw.symm.trans hw₀)
  rw [pushes_eq hw, List.mem_reverse]
  exact (advance_of_turn hturn).pushed_new (kept_sweepAt hw) hpush

theorem nodup_pushes (m : DependencyMap) (n : ℕ) : (m.pushes n).Nodup :=
  nodup_filterMap_range (fun _ _ h => (pushAt_new h).1) n

theorem pushes_subset (m : DependencyMap) (n : ℕ) : m.pushes n ⊆ m.names := by
  intro x hx
  obtain ⟨i, -, hi⟩ := List.mem_filterMap.1 hx
  exact (pushAt_new hi).2

theorem length_stack_le (h : m.sweepAt n = some w) : w.stack.length ≤ (m.pushes n).length := by
  obtain ⟨safe, starts, search⟩ := w
  cases search with
  | none => exact Nat.zero_le _
  | some s =>
    obtain ⟨start, hinv⟩ := (kept_sweepAt h).search s rfl
    have hpath : s.path ⊆ m.pushes n := by
      rw [pushes_eq h]
      intro x hx
      simp [Sweep.reached, hinv.visited x hx]
    have hlength := (hinv.nodup.subperm hpath).length_le
    rwa [hinv.path_eq, List.length_reverse, List.length_map] at hlength

end Pushes

section Takes

variable {x d : Name} {ds : List Name} {outer : List Frame} {start : Name} {p : Name × ℕ}

/-- A position lies behind what the frame of its key has left. -/
def Behind (m : DependencyMap) (stack : List Frame) (p : Name × ℕ) : Prop :=
  ∀ f ∈ stack, f.name = p.1 → p.2 < (m.get p.1).length - f.remaining.length

/-- What the innermost frame has left is the end of the dependency list of its name, and no other
frame has this name. -/
theorem Inv.innermost (h : Inv m safe start s) (hstack : s.stack = ⟨x, ds⟩ :: outer) :
    ds <:+ m.get x ∧ (∀ f ∈ outer, f.name ≠ x) ∧ x ∈ s.visited := by
  have hexplored := h.explored
  have hpath := h.path_concat hstack
  have hnodup := h.nodup
  rw [hstack] at hexplored
  rw [hpath, List.nodup_append_comm] at hnodup
  obtain ⟨⟨done, hdeps, -⟩, -⟩ := hexplored
  have hx : x ∉ (outer.map Frame.name).reverse := (List.nodup_cons.1 hnodup).1
  refine ⟨⟨done, by simp [hdeps]⟩, fun f hf hname => hx ?_, h.visited x (by simp [hpath])⟩
  rw [List.mem_reverse, ← hname]
  exact List.mem_map_of_mem hf

theorem behind_of_take (hds : d :: ds <:+ m.get x) (houter : ∀ f ∈ outer, f.name ≠ x)
    (hp : Behind m (⟨x, d :: ds⟩ :: outer) p ∨ (x, (m.get x).length - (d :: ds).length) = p) :
    Behind m (⟨x, ds⟩ :: outer) p := by
  have hlength := hds.length_le
  rw [List.length_cons] at hlength hp
  rintro f (_ | ⟨_, hf⟩) hname
  · rcases hp with hp | rfl
    · have := hp _ List.mem_cons_self hname
      simp only [List.length_cons] at this ⊢
      omega
    · simp only
      omega
  · rcases hp with hp | rfl
    · exact hp f (.tail _ hf) hname
    · exact absurd hname (houter f hf)

theorem Behind.push (hp : Behind m outer p) (hx : p.1 ≠ x) (ds : List Name) :
    Behind m (⟨x, ds⟩ :: outer) p := by
  rintro f (_ | ⟨_, hf⟩) hname
  · exact absurd hname.symm hx
  · exact hp f hf hname

/-- Every turn leaves behind what has been taken before, and what it takes itself. -/
theorem Advance.behind (h : Advance m w w') (hkept : Kept m w) (hreached : p.1 ∈ w.reached)
    (hp : Behind m w.stack p ∨ w.taken? m = some p) : Behind m w'.stack p := by
  cases h with
  | pass => exact nofun
  | settle => exact nofun
  | begin x safe starts fresh =>
    -- a position is taken from the list of a reached name, and no search begins with such a name
    have hx : p.1 ≠ x := fun heq => fresh (heq ▸ hreached)
    have hnone : Behind m [] p := nofun
    exact hnone.push hx _
  | step s s' safe starts next =>
    obtain ⟨start, hinv⟩ := hkept.search s rfl
    cases move_of_step next with
    | leave x outer =>
      have hp : Behind m (⟨x, []⟩ :: outer) p := hp.resolve_right nofun
      exact fun f hf => hp f (.tail _ hf)
    | skip x d ds outer =>
      obtain ⟨hds, houter, -⟩ := hinv.innermost rfl
      exact behind_of_take hds houter (hp.imp_right Option.some.inj)
    | enter x d ds outer path visited other unsettled fresh =>
      obtain ⟨hds, houter, -⟩ := hinv.innermost rfl
      -- nor is it entered: only the frame of `x` moves on
      have hd : p.1 ≠ d := by
        rintro rfl
        simp [Sweep.reached, fresh, unsettled] at hreached
      exact (behind_of_take hds houter (hp.imp_right Option.some.inj)).push hd _

theorem taken?_eq_some (h : w.taken? m = some p) : ∃ d ds outer,
    w.stack = ⟨p.1, d :: ds⟩ :: outer ∧ p.2 = (m.get p.1).length - (d :: ds).length := by
  unfold Sweep.taken? at h
  split at h
  · rename_i x d ds outer hstack
    obtain rfl := Option.some.inj h
    exact ⟨d, ds, outer, hstack, rfl⟩
  · simp at h

theorem Kept.taken (h : Kept m w) (hp : w.taken? m = some p) :
    p.1 ∈ w.reached ∧ p ∈ m.positions := by
  obtain ⟨d, ds, outer, hstack, hpos⟩ := taken?_eq_some hp
  obtain ⟨safe, starts, search⟩ := w
  cases search with
  | none => simp [Sweep.stack] at hstack
  | some s =>
    obtain ⟨start, hinv⟩ := h.search s rfl
    obtain ⟨hds, -, hvisited⟩ := hinv.innermost hstack
    have hlength := hds.length_le
    refine ⟨by simp [Sweep.reached, hvisited], DependencyMap.mem_positions.2 ?_⟩
    rw [List.length_cons] at hlength hpos
    omega

theorem takes_behind (h : m.sweepAt n = some w) :
    ∀ p ∈ m.takes n, p.1 ∈ w.reached ∧ Behind m w.stack p := by
  refine sweepAt_induction
    (p := fun n w => ∀ p ∈ m.takes n, p.1 ∈ w.reached ∧ Behind m w.stack p) nofun ?_ h
  intro n w w' hw _ hadvance ih p hp
  have hkept := kept_sweepAt hw
  rw [takes_succ, takeAt_eq hw, List.mem_append, Option.mem_toList] at hp
  have hreached : p.1 ∈ w.reached := by
    rcases hp with hp | hp
    · exact (ih p hp).1
    · exact (hkept.taken hp).1
  refine ⟨?_, hadvance.behind hkept hreached (hp.imp_left fun hp => (ih p hp).2)⟩
  rw [hadvance.reached_eq]
  exact List.mem_append_right _ hreached

theorem takeAt_new (h : m.takeAt n = some p) : p ∉ m.takes n ∧ p ∈ m.positions := by
  obtain ⟨w, hw, htake⟩ := Option.bind_eq_some_iff.1 h
  obtain ⟨d, ds, outer, hstack, hpos⟩ := taken?_eq_some htake
  refine ⟨fun hp => ?_, ((kept_sweepAt hw).taken htake).2⟩
  have hbehind := (takes_behind hw p hp).2
  rw [hstack] at hbehind
  exact absurd (hbehind _ List.mem_cons_self rfl) hpos.not_lt

theorem nodup_takes (m : DependencyMap) (n : ℕ) : (m.takes n).Nodup :=
  nodup_filterMap_range (fun _ _ h => (takeAt_new h).1) n

theorem takes_subset (m : DependencyMap) (n : ℕ) : m.takes n ⊆ m.positions := by
  intro p hp
  obtain ⟨i, -, hi⟩ := List.mem_filterMap.1 hp
  exact (takeAt_new hi).2

end Takes

section Turns

/-- What is still to be paid for by turns to come: the frames are left, a search is settled, and a
start is passed over or searched from. -/
def Sweep.ahead : Sweep → ℕ
  | ⟨_, starts, none⟩ => 2 * starts.length
  | ⟨_, starts, some s⟩ => 2 * starts.length + s.stack.length + 1

theorem Advance.ahead (h : Advance m w w') : w'.ahead + 1 ≤
    w.ahead + (w.taken? m).toList.length + (w.pushed? w').toList.length := by
  cases h with
  | pass => simp [Sweep.ahead]; omega
  | begin => simp [Sweep.ahead, State.start, Sweep.pushed?, Sweep.stack]; omega
  | settle => simp [Sweep.ahead]; omega
  | step s s' safe starts next =>
    cases move_of_step next with
    | leave => simp [Sweep.ahead]; omega
    | skip => simp [Sweep.ahead, Sweep.taken?, Sweep.stack]
    | enter => simp [Sweep.ahead, Sweep.taken?, Sweep.pushed?, Sweep.stack]; omega

/-- Each turn so far was paid for by a push, by a take or by a key. -/
theorem turns_le (h : m.sweepAt n = some w) :
    n + w.ahead ≤ (m.takes n).length + (m.pushes n).length + 2 * m.keys.length := by
  refine sweepAt_induction (p := fun n w =>
    n + w.ahead ≤ (m.takes n).length + (m.pushes n).length + 2 * m.keys.length) ?_ ?_ h
  · simp [Sweep.ahead]
  · intro n w w' hw hw' hadvance ih
    have hahead := hadvance.ahead
    rw [takes_succ, pushes_succ, takeAt_eq hw, pushAt_eq hw hw', List.length_append,
      List.length_append]
    omega

theorem length_pushes_le (m : DependencyMap) (n : ℕ) : (m.pushes n).length ≤ m.names.length :=
  ((nodup_pushes m n).subperm (pushes_subset m n)).length_le

theorem length_takes_le (m : DependencyMap) (n : ℕ) : (m.takes n).length ≤ m.edgeCount :=
  m.length_positions ▸ ((nodup_takes m n).subperm (takes_subset m n)).length_le

theorem turns_le_of_sweepAt (h : m.sweepAt n = some w) :
    n ≤ m.edgeCount + m.names.length + 2 * m.keys.length := by
  have hturns := turns_le h
  have hpushes := length_pushes_le m n
  have htakes := length_takes_le m n
  omega

theorem exists_turn_eq_inl (m : DependencyMap) :
    ∃ n w, m.sweepAt n = some w ∧ w.turn m = .inl m.searchCycle := by
  by_contra hends
  have hgoes (n : ℕ) : ∃ w, m.sweepAt n = some w := by
    induction n with
    | zero => exact ⟨_, rfl⟩
    | succ n ih =>
      obtain ⟨w, hw⟩ := ih
      cases hturn : w.turn m with
      | inl r =>
        obtain rfl : m.searchCycle = r := (result_sweepAt hw).symm.trans (result_of_turn hturn)
        exact absurd ⟨n, w, hw, hturn⟩ hends
      | inr w' => exact ⟨w', sweepAt_succ_eq_some_iff.2 ⟨w, hw, hturn⟩⟩
  obtain ⟨w, hw⟩ := hgoes (m.edgeCount + m.names.length + 2 * m.keys.length + 1)
  exact absurd (turns_le_of_sweepAt hw) (Nat.not_succ_le_self _)

end Turns

/-- Over a whole sweep no name is pushed on the stack twice, and no position of a dependency list is
taken twice. So there are no more pushes than names, never more frames than pushes, and no more
takes than edges. Hence the sweep ends, and with what the search for cycles tells. -/
theorem sweep_pushes_and_takes_once (m : DependencyMap) :
    (∀ n, (m.pushes n).Nodup ∧ m.pushes n ⊆ m.names ∧ (m.takes n).Nodup ∧
      m.takes n ⊆ m.positions ∧ (m.pushes n).length ≤ m.names.length ∧
      (m.stackAt n).length ≤ (m.pushes n).length) ∧
    ∃ n ≤ m.edgeCount + m.names.length + 2 * m.keys.length, ∃ w, m.sweepAt n = some w ∧
      w.turn m = .inl m.searchCycle := by
  refine ⟨fun n => ⟨nodup_pushes m n, pushes_subset m n, nodup_takes m n, takes_subset m n,
    length_pushes_le m n, ?_⟩, ?_⟩
  · unfold DependencyMap.stackAt
    cases hw : m.sweepAt n with
    | none => exact Nat.zero_le _
    | some w => exact length_stack_le hw
  · obtain ⟨n, w, hw, hturn⟩ := exists_turn_eq_inl m
    exact ⟨n, turns_le_of_sweepAt hw, w, hw, hturn⟩

/-- Shared dependencies are pushed once, and without a cycle all positions are taken. -/
example :
    let m : DependencyMap := .ofPairs "base" [("base", ["base"]), ("a", ["b", "c", "base"]),
      ("c", ["base"]), ("b", ["c", "base"])]
    m.pushes 30 = ["base", "a", "b", "c"] ∧ (m.takes 30).length = m.edgeCount := by
  decide

end CycleSearch

end BundleGraph
