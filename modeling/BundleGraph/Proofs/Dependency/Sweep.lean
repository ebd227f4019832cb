import BundleGraph.Proofs.Dependency.Edge

/-!
# The sweep over the keys, turn by turn

The search for cycles as a whole: from each key in turn that is not safe by then, a search begins,
and the names that it has visited are safe when it ends. A turn passes over a safe start, begins a
search, makes one step of it or adds what it has visited to the safe names. Every turn keeps what
the steps of a search keep, and what the turns come to is what the search for cycles tells. So
whatever holds of a sweep at every turn holds at every turn of the loop over a stack of frames.
-/
namespace BundleGraph

namespace CycleSearch

/-- A sweep on its way: the safe names, the starts that are left and the search from the last one,
as long as it goes on. -/
structure Sweep where
  safe : List Name
  starts : List Name
  search : Option State
deriving DecidableEq

namespace Sweep

/-- One turn: what the sweep comes to, or how it goes on. -/
def turn (m : DependencyMap) : Sweep → Except (List Name) (List Name) ⊕ Sweep
  | ⟨safe, [], none⟩ => .inl (.ok safe)
  | ⟨safe, x :: starts, none⟩ =>
    .inr ⟨safe, starts, if x ∈ safe then none else some (State.start m x)⟩
  | ⟨safe, starts, some s⟩ =>
    match s.step m safe with
    | .finished => .inr ⟨s.visited ++ safe, starts, none⟩
    | .cycle path => .inl (.error path)
    | .next s' => .inr ⟨safe, starts, some s'⟩

/-- What is left of a sweep comes to this. -/
def result (m : DependencyMap) : Sweep → Except (List Name) (List Name)
  | ⟨safe, starts, none⟩ => runAll m safe starts
  | ⟨safe, starts, some s⟩ =>
    (s.run m safe).bind fun visited => runAll m (visited ++ safe) starts

end Sweep

end CycleSearch

/-- The sweep over the keys of a map after some turns, unless it has ended before. -/
def DependencyMap.sweepAt (m : DependencyMap) : ℕ → Option CycleSearch.Sweep
  | 0 => some ⟨[], m.keys, none⟩
  | n + 1 => (m.sweepAt n).bind fun w => (w.turn m).getRight?

namespace CycleSearch

variable {m : DependencyMap} {safe : List Name} {s s' : State} {w w' : Sweep} {n : ℕ}

/-- What a turn does after which the sweep goes on. -/
inductive Advance (m : DependencyMap) : Sweep → Sweep → Prop
  | pass (x : Name) (safe starts : List Name) (known : x ∈ safe) :
      Advance m ⟨safe, x :: starts, none⟩ ⟨safe, starts, none⟩
  | begin (x : Name) (safe starts : List Name) (fresh : x ∉ safe) :
      Advance m ⟨safe, x :: starts, none⟩ ⟨safe, starts, some (State.start m x)⟩
  | step (s s' : State) (safe starts : List Name) (next : s.step m safe = .next s') :
      Advance m ⟨safe, starts, some s⟩ ⟨safe, starts, some s'⟩
  | settle (s : State) (safe starts : List Name) (finished : s.step m safe = .finished) :
      Advance m ⟨safe, starts, some s⟩ ⟨s.visited ++ safe, starts, none⟩

theorem advance_of_turn (h : w.turn m = .inr w') : Advance m w w' := by
  obtain ⟨safe, starts, search⟩ := w
  cases search with
  | none =>
    cases starts with
    | nil => simp [Sweep.turn] at h
    | cons x starts =>
      simp only [Sweep.turn, Sum.inr.injEq] at h
      subst h
      split_ifs with hx
      · exact .pass x safe starts hx
      · exact .begin x safe starts hx
  | some s =>
    simp only [Sweep.turn] at h
    split at h
    · rename_i finished
      obtain rfl := Sum.inr.inj h
      exact .settle s safe starts finished
    · simp at h
    · rename_i s' next
      obtain rfl := Sum.inr.inj h
      exact .step s s' safe starts next

theorem sweepAt_succ_eq_some_iff :
    m.sweepAt (n + 1) = some w' ↔ ∃ w, m.sweepAt n = some w ∧ w.turn m = .inr w' := by
  rw [DependencyMap.sweepAt, Option.bind_eq_some_iff]
  simp only [Sum.getRight?_eq_some_iff]

/-- A sweep has every property at every turn that it has at first and that the turns keep. -/
theorem sweepAt_induction {p : ℕ → Sweep → Prop} (start : p 0 ⟨[], m.keys, none⟩)
    (keep : ∀ n w w', m.sweepAt n = some w → m.sweepAt (n + 1) = some w' → Advance m w w' →
      p n w → p (n + 1) w') (h : m.sweepAt n = some w) : p n w := by
  induction n generalizing w with
  | zero =>
    obtain rfl := Option.some.inj h
    exact start
  | succ n ih =>
    obtain ⟨w₀, hw₀, hturn⟩ := sweepAt_succ_eq_some_iff.1 h
    exact keep n w₀ w hw₀ h (advance_of_turn hturn) (ih hw₀)

section Result

theorem Advance.result_eq (h : Advance m w w') : w'.result m = w.result m := by
  cases h with
  | pass x safe starts known => exact (if_pos known).symm
  | begin x safe starts fresh => exact (if_neg fresh).symm
  | step s s' safe starts next => rw [Sweep.result, Sweep.result, run_of_next next]
  | settle s safe starts finished =>
    rw [Sweep.result, Sweep.result, run_of_finished finished]
    rfl

theorem result_of_turn {r : Except (List Name) (List Name)} (h : w.turn m = .inl r) :
    w.result m = r := by
  obtain ⟨safe, starts, search⟩ := w
  cases search with
  | none =>
    cases starts with
    | nil => exact Sum.inl.inj h
    | cons x starts => simp [Sweep.turn] at h
  | some s =>
    simp only [Sweep.turn] at h
    split at h
    · simp at h
    · rename_i path cycle
      obtain rfl := Sum.inl.inj h
      rw [Sweep.result, run_of_cycle cycle]
      rfl
    · simp at h

theorem result_sweepAt (h : m.sweepAt n = some w) : w.result m = m.searchCycle :=
  sweepAt_induction (p := fun _ w => w.result m = m.searchCycle) rfl
    (fun _ _ _ _ _ hadvance ih => hadvance.result_eq.trans ih) h

end Result

/-- What every turn keeps: the safe names lead into no cycle, the starts that are left are keys, and
the search that goes on keeps what its steps keep. -/
structure Kept (m : DependencyMap) (w : Sweep) : Prop where
  safe : Safe m w.safe
  starts : w.starts ⊆ m.keys
  search : ∀ s ∈ w.search, ∃ start, Inv m w.safe start s

theorem Kept.advance (h : Kept m w) (hadvance : Advance m w w') : Kept m w' := by
  cases hadvance with
  | pass x safe starts known => exact ⟨h.safe, (List.cons_subset.1 h.starts).2, nofun⟩
  | begin x safe starts fresh =>
    refine ⟨h.safe, (List.cons_subset.1 h.starts).2, ?_⟩
    rintro _ ⟨⟩
    exact ⟨x, inv_start h.safe fresh⟩
  | step s s' safe starts next =>
    refine ⟨h.safe, h.starts, ?_⟩
    rintro _ ⟨⟩
    obtain ⟨start, hinv⟩ := h.search s rfl
    exact ⟨start, hinv.step next⟩
  | settle s safe starts finished =>
    obtain ⟨start, hinv⟩ := h.search s rfl
    exact ⟨(hinv.finished finished).1, h.starts, nofun⟩

theorem kept_sweepAt (h : m.sweepAt n = some w) : Kept m w :=
  sweepAt_induction (p := fun _ w => Kept m w) ⟨⟨nofun, nofun⟩, List.Subset.refl _, nofun⟩
    (fun _ _ _ _ _ hadvance ih => ih.advance hadvance) h

theorem Explored.isChain_edge {settled : Name → Prop} {x : Name} {outer : List Frame}
    (h : Explored m settled (some x) outer) :
    (x :: outer.map Frame.name).IsChain fun y x => m.Edge x y := by
  induction outer generalizing x with
  | nil => exact .singleton x
  | cons f outer ih =>
    obtain ⟨⟨done, hdeps, -⟩, hrest⟩ := h
    refine List.isChain_cons_cons.2 ⟨DependencyMap.edge_iff.2 ?_, ih hrest⟩
    simp [hdeps]

theorem Inv.isChain_path {start : Name} (h : Inv m safe start s) : s.path.IsChain m.Edge := by
  rw [h.path_eq, List.isChain_reverse]
  have hexplored := h.explored
  cases hstack : s.stack with
  | nil => exact .nil
  | cons f outer =>
    rw [hstack] at hexplored
    exact hexplored.2.isChain_edge

theorem Inv.path_concat {start x : Name} {ds : List Name} {outer : List Frame}
    (h : Inv m safe start s) (hstack : s.stack = ⟨x, ds⟩ :: outer) :
    s.path = (outer.map Frame.name).reverse ++ [x] := by
  simp [h.path_eq, hstack]

theorem Inv.erase_path {start x : Name} {outer : List Frame} (h : Inv m safe start s)
    (hstack : s.stack = ⟨x, []⟩ :: outer) : x ∈ s.path ∧ s.path.erase x = s.path.dropLast := by
  have hpath := h.path_concat hstack
  have hnodup := h.nodup
  rw [hpath] at hnodup ⊢
  rw [erase_concat hnodup, List.dropLast_concat]
  exact ⟨by simp, rfl⟩

/-- At every turn of a search the path has the names of the frames, outermost first: they are
distinct, and an edge leads from each to the next. The name of a frame that is left is found on the
path, and it is the last one. What is on the path is visited and not safe; and what is visited but
not on the path has none but such names and safe ones for its dependencies, itself apart. At every
turn, and so whenever a search has ended, the safe names depend on safe names only, and no cycle is
reached from them. -/
theorem sweepAt_keeps_invariant (h : m.sweepAt n = some w) :
    (∀ s ∈ w.search,
      s.path = (s.stack.map Frame.name).reverse ∧ s.path.Nodup ∧ s.path.IsChain m.Edge ∧
      (∀ x outer, s.stack = ⟨x, []⟩ :: outer →
        x ∈ s.path ∧ s.path.erase x = s.path.dropLast) ∧
      (∀ x ∈ s.path, x ∈ s.visited ∧ x ∉ w.safe) ∧
      ∀ x ∈ s.visited, x ∉ s.path → ∀ d, m.Edge x d → d ≠ x →
        d ∈ s.visited ∧ d ∉ s.path ∨ d ∈ w.safe) ∧
    ∀ x ∈ w.safe, (∀ d, m.Edge x d → d ∈ w.safe) ∧ ¬m.ReachesCycle x := by
  have hkept := kept_sweepAt h
  refine ⟨fun s hs => ?_, fun x hx => ⟨fun d hd => ?_, ?_⟩⟩
  · obtain ⟨start, hinv⟩ := hkept.search s hs
    refine ⟨hinv.path_eq, hinv.nodup, hinv.isChain_path, fun x outer => hinv.erase_path,
      fun x hx => ⟨hinv.visited x hx, hinv.fresh x (hinv.visited x hx)⟩, ?_⟩
    intro x hx hoff d hd hne
    exact (hinv.closed x (.inr ⟨hx, hoff⟩) d (DependencyMap.dependsOn_get_iff.2 ⟨hd, hne⟩)).symm
  · by_cases hdx : d = x
    · rwa [hdx]
    · exact hkept.safe.closed x hx d (DependencyMap.dependsOn_get_iff.2 ⟨hd, hdx⟩)
  · rw [DependencyMap.reachesCycle_iff]
    exact not_leadsToCycle_of_acc (hkept.safe.ends x hx)

/-- A name is about to be left while another one has been left already. -/
theorem sweepAt_keeps_invariant_leaving :
    let m : DependencyMap := .ofPairs "base" [("base", ["base"]), ("a", ["b", "c", "base"]),
      ("b", ["c", "base"]), ("c", ["base"])]
    let b : Name := "b"
    let c : Name := "c"
    let s : State := ⟨[⟨b, []⟩, ⟨"a", [c, "base"]⟩], ["a", b], [c, b, "a"]⟩
    m.sweepAt 10 = some ⟨["base"], [b, c], some s⟩ ∧
      (b ∈ s.path ∧ s.path.erase b = s.path.dropLast) ∧ s.path.IsChain m.Edge ∧
      (∀ d, m.Edge c d → d ≠ c → d ∈ s.visited ∧ d ∉ s.path ∨ d ∈ (["base"] : List Name)) ∧
      ¬m.ReachesCycle "base" := by
  intro m b c s
  have h : m.sweepAt 10 = some ⟨["base"], [b, c], some s⟩ := by decide
  obtain ⟨hsearch, hsafe⟩ := sweepAt_keeps_invariant h
  obtain ⟨-, -, hchain, hleft, -, hsettled⟩ := hsearch s rfl
  exact ⟨h, hleft b _ rfl, hchain, hsettled c (by decide) (by decide), (hsafe _ (by decide)).2⟩

end CycleSearch

end BundleGraph
