import BundleGraph.Dependency.Cycle
import BundleGraph.Proofs.Dependency.CyclePath

/-!
# The search for cycles

A name is settled once it is safe or was visited and left again. The search keeps two facts about
settled names: their dependencies are settled, and no chain of dependencies from them goes on for
ever. The dependencies that a frame has behind it are settled, up to the one that the next frame is
about. So a dependency that stands on the path closes a cycle, and every choice on the path was the
first that could lead there; and a name that is left for good leads into no cycle.
-/
namespace BundleGraph.CycleSearch

open Relation (ReflTransGen TransGen)

variable {m : DependencyMap} {safe : List Name} {s s' : State}

/-- What a step that goes on does: it leaves a frame, skips a dependency or enters one. -/
inductive Move (m : DependencyMap) (safe : List Name) : State → State → Prop
  | leave (x : Name) (outer : List Frame) (path visited : List Name) :
      Move m safe ⟨⟨x, []⟩ :: outer, path, visited⟩ ⟨outer, path.erase x, visited⟩
  | skip (x d : Name) (ds : List Name) (outer : List Frame) (path visited : List Name)
      (known : d = x ∨ d ∈ safe ∨ d ∈ visited ∧ d ∉ path) :
      Move m safe ⟨⟨x, d :: ds⟩ :: outer, path, visited⟩ ⟨⟨x, ds⟩ :: outer, path, visited⟩
  | enter (x d : Name) (ds : List Name) (outer : List Frame) (path visited : List Name)
      (other : d ≠ x) (unsettled : d ∉ safe) (fresh : d ∉ visited) :
      Move m safe ⟨⟨x, d :: ds⟩ :: outer, path, visited⟩
        ⟨⟨d, m.get d⟩ :: ⟨x, ds⟩ :: outer, path ++ [d], d :: visited⟩

theorem move_of_step (h : s.step m safe = .next s') : Move m safe s s' := by
  obtain ⟨stack, path, visited⟩ := s
  match stack with
  | [] => simp [State.step] at h
  | ⟨x, []⟩ :: outer =>
    simp only [State.step, Outcome.next.injEq] at h
    subst h
    exact .leave x outer path visited
  | ⟨x, d :: ds⟩ :: outer =>
    simp only [State.step] at h
    split at h
    · rename_i known
      simp only [Outcome.next.injEq] at h
      subst h
      exact .skip x d ds outer path visited (by tauto)
    · split at h
      · simp at h
      · split at h
        · rename_i onPath visited'
          simp only [Outcome.next.injEq] at h
          subst h
          exact .skip x d ds outer path visited (.inr (.inr ⟨visited', onPath⟩))
        · rename_i known _ fresh
          simp only [Outcome.next.injEq] at h
          subst h
          push Not at known
          exact .enter x d ds outer path visited known.1 known.2 fresh

theorem stack_eq_nil_of_step (h : s.step m safe = .finished) : s.stack = [] := by
  unfold State.step at h
  split at h
  · assumption
  · simp at h
  · split_ifs at h

theorem cycle_of_step {path : List Name} (h : s.step m safe = .cycle path) :
    ∃ x d ds outer, s.stack = ⟨x, d :: ds⟩ :: outer ∧ d ≠ x ∧ d ∈ s.path ∧ path = s.path := by
  unfold State.step at h
  split at h
  · simp at h
  · simp at h
  · rename_i x d ds outer hstack
    split_ifs at h with known onPath
    simp only [Outcome.cycle.injEq] at h
    push Not at known
    exact ⟨x, d, ds, outer, hstack, known.1, onPath, h.symm⟩

/-- A name that the search does not enter any more. -/
def Settled (safe path visited : List Name) (x : Name) : Prop :=
  x ∈ safe ∨ x ∈ visited ∧ x ∉ path

/-- The dependencies that the frames have behind them. `next` is the name of the frame further in,
which the outermost of these frames has entered last. -/
def Explored (m : DependencyMap) (settled : Name → Prop) : Option Name → List Frame → Prop
  | _, [] => True
  | next, ⟨x, remaining⟩ :: outer =>
    (∃ done, m.get x = done ++ next.toList ++ remaining ∧ (∀ d ∈ done, d = x ∨ settled d) ∧
      ∀ y ∈ next, y ≠ x) ∧ Explored m settled (some x) outer

/-- Safe names depend on safe names, and chains of dependencies from them end. -/
structure Safe (m : DependencyMap) (safe : List Name) : Prop where
  closed : ∀ x ∈ safe, ∀ d, DependsOn m.get x d → d ∈ safe
  ends : ∀ x ∈ safe, Acc (fun y x => DependsOn m.get x y) x

/-- What every step of a search from `start` keeps. -/
structure Inv (m : DependencyMap) (safe : List Name) (start : Name) (s : State) : Prop where
  path_eq : s.path = (s.stack.map Frame.name).reverse
  nodup : s.path.Nodup
  head : ∀ x ∈ s.path.head?, x = start
  reached : start ∈ s.visited
  visited : ∀ x ∈ s.path, x ∈ s.visited
  fresh : ∀ x ∈ s.visited, x ∉ safe
  explored : Explored m (Settled safe s.path s.visited) none s.stack
  closed : ∀ x, Settled safe s.path s.visited x →
    ∀ d, DependsOn m.get x d → Settled safe s.path s.visited d
  ends : ∀ x, Settled safe s.path s.visited x → Acc (fun y x => DependsOn m.get x y) x

theorem Explored.mono {settled settled' : Name → Prop} (h : ∀ x, settled x → settled' x)
    {next : Option Name} {stack : List Frame} (he : Explored m settled next stack) :
    Explored m settled' next stack := by
  induction stack generalizing next with
  | nil => trivial
  | cons f outer ih =>
    obtain ⟨⟨done, hdeps, hdone, hnext⟩, houter⟩ := he
    exact ⟨⟨done, hdeps, fun d hd => (hdone d hd).imp_right (h d), hnext⟩, ih houter⟩

theorem Explored.leave {settled : Name → Prop} {x : Name} {stack : List Frame}
    (he : Explored m settled (some x) stack) (hx : settled x) :
    Explored m settled none stack := by
  cases stack with
  | nil => trivial
  | cons f outer =>
    obtain ⟨⟨done, hdeps, hdone, _⟩, houter⟩ := he
    refine ⟨⟨done ++ [x], by simpa using hdeps, ?_, by simp⟩, houter⟩
    intro d hd
    rcases List.mem_append.1 hd with hd | hd
    · exact hdone d hd
    · rw [List.mem_singleton.1 hd]
      exact .inr hx

theorem inv_start {x : Name} (hsafe : Safe m safe) (hx : x ∉ safe) :
    Inv m safe x (State.start m x) where
  path_eq := rfl
  nodup := List.nodup_singleton x
  head := by simp [State.start]
  reached := by simp [State.start]
  visited := by simp [State.start]
  fresh := by simpa [State.start] using hx
  explored := ⟨⟨[], by simp, by simp, by simp⟩, trivial⟩
  closed := by
    intro y hy d hyd
    simp only [State.start, Settled, List.mem_singleton, and_not_self_iff, or_false] at hy ⊢
    exact hsafe.closed y hy d hyd
  ends := by
    intro y hy
    simp only [State.start, Settled, List.mem_singleton, and_not_self_iff, or_false] at hy
    exact hsafe.ends y hy

theorem settled_leave (safe : List Name) {x : Name} {names visited : List Name} (hx : x ∉ names)
    (hvisited : x ∈ visited) (y : Name) :
    Settled safe names visited y ↔ Settled safe (names ++ [x]) visited y ∨ y = x := by
  by_cases hyx : y = x
  · subst hyx
    simp [Settled, hx, hvisited]
  · simp [Settled, hyx]

theorem settled_enter (safe path : List Name) {d : Name} {visited : List Name}
    (fresh : d ∉ visited) (y : Name) :
    Settled safe (path ++ [d]) (d :: visited) y ↔ Settled safe path visited y := by
  by_cases hyd : y = d
  · subst hyd
    simp [Settled, fresh]
  · simp [Settled, hyd]

theorem erase_concat {names : List Name} {x : Name} (h : (names ++ [x]).Nodup) :
    (names ++ [x]).erase x = names := by
  have hx : x ∉ names := (List.nodup_cons.1 (List.nodup_append_comm.1 h)).1
  rw [List.erase_append_right _ hx]
  simp

theorem Inv.leave {start x : Name} {outer : List Frame} {path visited : List Name}
    (h : Inv m safe start ⟨⟨x, []⟩ :: outer, path, visited⟩) :
    Inv m safe start ⟨outer, path.erase x, visited⟩ := by
  obtain ⟨names, hnames⟩ : ∃ names, names = (outer.map Frame.name).reverse := ⟨_, rfl⟩
  obtain rfl : path = names ++ [x] := by simpa [hnames] using h.path_eq
  have hnodup : names.Nodup ∧ x ∉ names := by
    have := List.nodup_append_comm.1 h.nodup
    simpa [and_comm] using this
  have hsettled := settled_leave safe hnodup.2 (h.visited x (by simp))
  obtain ⟨⟨done, hdeps, hdone, _⟩, houter⟩ := h.explored
  have hx : ∀ d, DependsOn m.get x d → Settled safe (names ++ [x]) visited d := by
    intro d hd
    have hmem : d ∈ done := by simpa [hdeps] using hd.1
    exact (hdone d hmem).resolve_left hd.2
  rw [erase_concat h.nodup]
  refine ⟨hnames, hnodup.1, ?_, h.reached, fun y hy => h.visited y (by simp [hy]), h.fresh,
    ?_, ?_, ?_⟩
  · intro y hy
    apply h.head y
    rw [List.head?_append, hy]
    rfl
  · exact (houter.mono fun y hy => (hsettled y).2 (.inl hy)).leave ((hsettled x).2 (.inr rfl))
  · intro y hy d hyd
    rcases (hsettled y).1 hy with hy | rfl
    · exact (hsettled d).2 (.inl (h.closed y hy d hyd))
    · exact (hsettled d).2 (.inl (hx d hyd))
  · intro y hy
    rcases (hsettled y).1 hy with hy | rfl
    · exact h.ends y hy
    · exact ⟨_, fun d hd => h.ends d (hx d hd)⟩

theorem Inv.skip {start x d : Name} {ds : List Name} {outer : List Frame}
    {path visited : List Name} (h : Inv m safe start ⟨⟨x, d :: ds⟩ :: outer, path, visited⟩)
    (known : d = x ∨ d ∈ safe ∨ d ∈ visited ∧ d ∉ path) :
    Inv m safe start ⟨⟨x, ds⟩ :: outer, path, visited⟩ := by
  obtain ⟨⟨done, hdeps, hdone, hnext⟩, houter⟩ := h.explored
  refine { h with explored := ⟨⟨done ++ [d], by simpa using hdeps, ?_, hnext⟩, houter⟩ }
  intro e he
  rcases List.mem_append.1 he with he | he
  · exact hdone e he
  · rw [List.mem_singleton.1 he]
    exact known

theorem Inv.enter {start x d : Name} {ds : List Name} {outer : List Frame}
    {path visited : List Name} (h : Inv m safe start ⟨⟨x, d :: ds⟩ :: outer, path, visited⟩)
    (other : d ≠ x) (unsettled : d ∉ safe) (fresh : d ∉ visited) :
    Inv m safe start ⟨⟨d, m.get d⟩ :: ⟨x, ds⟩ :: outer, path ++ [d], d :: visited⟩ := by
  have hpath : path = (outer.map Frame.name).reverse ++ [x] := by simpa using h.path_eq
  have hd : d ∉ path := fun hd => fresh (h.visited d hd)
  have hsettled := settled_enter safe path fresh
  obtain ⟨⟨done, hdeps, hdone, _⟩, houter⟩ := h.explored
  refine ⟨by simp [hpath], ?_, ?_, by simp [h.reached], ?_, ?_, ?_, ?_, ?_⟩
  · rw [List.nodup_append_comm]
    exact List.nodup_cons.2 ⟨hd, h.nodup⟩
  · intro y hy
    apply h.head y
    have hne : path ≠ [] := by simp [hpath]
    simpa [List.head?_append_of_ne_nil _ hne] using hy
  · intro y hy
    rcases List.mem_append.1 hy with hy | hy
    · exact .tail _ (h.visited y hy)
    · simpa using .inl (List.mem_singleton.1 hy)
  · rintro y (_ | ⟨_, hy⟩)
    · exact unsettled
    · exact h.fresh y hy
  · refine ⟨⟨[], by simp, by simp, by simp⟩, ⟨done, by simpa using hdeps, ?_, ?_⟩,
      houter.mono fun y hy => (hsettled y).2 hy⟩
    · exact fun e he => (hdone e he).imp_right (hsettled e).2
    · simpa using other
  · exact fun y hy e hye => (hsettled e).2 (h.closed y ((hsettled y).1 hy) e hye)
  · exact fun y hy => h.ends y ((hsettled y).1 hy)

/-- Every step keeps the invariant. -/
theorem Inv.step {start : Name} (h : Inv m safe start s) (hs : s.step m safe = .next s') :
    Inv m safe start s' := by
  cases move_of_step hs with
  | leave => exact h.leave
  | skip _ _ _ _ _ _ known => exact h.skip known
  | enter _ _ _ _ _ _ other unsettled fresh => exact h.enter other unsettled fresh

/-- A run ends in a state that has every property which the steps keep. -/
theorem run_cases {p : State → Prop}
    (keep : ∀ s s', p s → s.step m safe = .next s' → p s') (s : State) (hs : p s) :
    (∃ s', p s' ∧ s'.step m safe = .finished ∧ s.run m safe = .ok s'.visited) ∨
      ∃ s' path, p s' ∧ s'.step m safe = .cycle path ∧ s.run m safe = .error path := by
  fun_induction State.run m safe s with
  | case1 s h => exact .inl ⟨s, hs, h, rfl⟩
  | case2 s path h => exact .inr ⟨s, path, hs, h, rfl⟩
  | case3 s s' h ih => exact ih (keep s s' hs h)

/-- The names of the frames depend on one another, from the outermost to the innermost one. -/
theorem Explored.reflTransGen {settled : Name → Prop} {x : Name} {remaining : List Name}
    {outer : List Frame} {next : Option Name}
    (h : Explored m settled next (⟨x, remaining⟩ :: outer)) :
    ∀ f ∈ ⟨x, remaining⟩ :: outer, ReflTransGen (DependsOn m.get) f.name x := by
  induction outer generalizing x remaining next with
  | nil => simp [ReflTransGen.refl]
  | cons f outer ih =>
    obtain ⟨y, remaining'⟩ := f
    have houter := h.2
    obtain ⟨done, hdeps, -, hother⟩ := houter.1
    have hyx : DependsOn m.get y x := ⟨by simp [hdeps], hother x rfl⟩
    rintro g (_ | ⟨_, hg⟩)
    · exact .refl
    · exact (ih houter g hg).tail hyx

/-- Each frame has passed over dependencies that lead into no cycle, so the next one is the first
that does. -/
theorem Explored.isChain {settled : Name → Prop} (hsettled : ∀ x, settled x → ¬LeadsToCycle m.get x)
    {x : Name} {outer : List Frame} (h : Explored m settled (some x) outer)
    (hcycle : LeadsToCycle m.get x) (houter : ∀ f ∈ outer, LeadsToCycle m.get f.name) :
    (x :: outer.map Frame.name).IsChain fun y x => FollowedBy m.get x y := by
  induction outer generalizing x with
  | nil => exact .singleton x
  | cons f outer ih =>
    obtain ⟨y, remaining⟩ := f
    obtain ⟨⟨done, hdeps, hdone, hother⟩, hrest⟩ := h
    refine List.isChain_cons_cons.2 ⟨?_, ih hrest (houter ⟨y, remaining⟩ (by simp))
      fun g hg => houter g (by simp [hg])⟩
    refine ⟨done, remaining, by simpa using hdeps, ⟨hother x rfl, hcycle⟩, ?_⟩
    rintro d hd ⟨hdy, hdcycle⟩
    exact hsettled d ((hdone d hd).resolve_left hdy) hdcycle

/-- A step that finds a cycle finds it on a path of first choices. -/
theorem Inv.cycle {start : Name} {path : List Name} (h : Inv m safe start s)
    (hs : s.step m safe = .cycle path) :
    path.head? = some start ∧ path.IsChain (FollowedBy m.get) ∧ path.Nodup ∧
      (∃ x ∈ path.getLast?, ∃ d ∈ path, FollowedBy m.get x d) ∧ LeadsToCycle m.get start := by
  obtain ⟨x, d, ds, outer, hstack, hdx, hd, rfl⟩ := cycle_of_step hs
  have hexplored := h.explored
  have hpath := h.path_eq
  rw [hstack] at hexplored hpath
  have hreach := hexplored.reflTransGen
  obtain ⟨⟨done, hdeps, hdone, _⟩, houter⟩ := hexplored
  have hxd : DependsOn m.get x d := ⟨by simp [hdeps], hdx⟩
  have hreach : ∀ y ∈ s.path, ReflTransGen (DependsOn m.get) y x := by
    intro y hy
    obtain ⟨f, hf, rfl⟩ : ∃ f ∈ ⟨x, d :: ds⟩ :: outer, f.name = y := by
      simpa [hpath, or_comm, eq_comm] using hy
    exact hreach f hf
  have hcycle : ∀ y ∈ s.path, LeadsToCycle m.get y := fun y hy =>
    ⟨d, (hreach y hy).tail hxd, .tail' (hreach d hd) hxd⟩
  have hsettled : ∀ y, Settled safe s.path s.visited y → ¬LeadsToCycle m.get y :=
    fun y hy => not_leadsToCycle_of_acc (h.ends y hy)
  have hx : x ∈ s.path := by simp [hpath]
  obtain ⟨y, hy⟩ : ∃ y, s.path.head? = some y := ⟨_, List.head?_eq_some_head (by simp [hpath])⟩
  obtain rfl := h.head y hy
  refine ⟨hy, ?_, h.nodup, ?_, hcycle y (List.mem_of_mem_head? hy)⟩
  · rw [hpath, List.isChain_reverse]
    exact houter.isChain hsettled (hcycle x hx) fun f hf => hcycle _ (by
      rw [hpath]
      simp only [List.map_cons, List.mem_reverse, List.mem_cons, List.mem_map]
      exact .inr ⟨f, hf, rfl⟩)
  · refine ⟨x, by simp [hpath], d, hd, done, ds, by simpa using hdeps, ⟨hdx, hcycle d hd⟩, ?_⟩
    rintro e he ⟨hex, hecycle⟩
    exact hsettled e ((hdone e he).resolve_left hex) hecycle

theorem Inv.finished {start : Name} (h : Inv m safe start s) (hs : s.step m safe = .finished) :
    Safe m (s.visited ++ safe) ∧ start ∈ s.visited := by
  have hpath : s.path = [] := by simp [h.path_eq, stack_eq_nil_of_step hs]
  have hsettled : ∀ x, Settled safe s.path s.visited x ↔ x ∈ s.visited ++ safe := by
    intro x
    simp [Settled, hpath, or_comm]
  refine ⟨⟨fun x hx d hd => ?_, fun x hx => h.ends x ((hsettled x).2 hx)⟩, h.reached⟩
  exact (hsettled d).1 (h.closed x ((hsettled x).2 hx) d hd)

theorem runAll_ok {safe' keys : List Name} (hsafe : Safe m safe)
    (h : runAll m safe keys = .ok safe') :
    Safe m safe' ∧ safe ⊆ safe' ∧ keys ⊆ safe' := by
  induction keys generalizing safe with
  | nil =>
    simp only [runAll, Except.ok.injEq] at h
    subst h
    exact ⟨hsafe, List.Subset.refl _, List.nil_subset _⟩
  | cons x keys ih =>
    rw [runAll] at h
    split_ifs at h with hx
    · obtain ⟨hsafe', hsub, hkeys⟩ := ih hsafe h
      exact ⟨hsafe', hsub, List.cons_subset.2 ⟨hsub hx, hkeys⟩⟩
    · rcases run_cases (fun _ _ => Inv.step) _ (inv_start hsafe hx) with
        ⟨s, hs, hstep, hrun⟩ | ⟨s, path, _, _, hrun⟩
      · rw [hrun] at h
        obtain ⟨hsafe', hx'⟩ := hs.finished hstep
        obtain ⟨hsafe'', hsub, hkeys⟩ := ih hsafe' h
        exact ⟨hsafe'', fun y hy => hsub (by simp [hy]),
          List.cons_subset.2 ⟨hsub (by simp [hx']), hkeys⟩⟩
      · rw [hrun] at h
        simp [Except.bind] at h

theorem runAll_error {keys path : List Name} (hsafe : Safe m safe)
    (h : runAll m safe keys = .error path) : IsCyclePath m.get keys path := by
  induction keys generalizing safe with
  | nil => simp [runAll] at h
  | cons x keys ih =>
    have skip : ¬LeadsToCycle m.get x → IsCyclePath m.get keys path →
        IsCyclePath m.get (x :: keys) path := by
      rintro hx ⟨⟨y, hy, hfirst⟩, chain, nodup, closed⟩
      exact ⟨⟨y, hy, isFirst_cons.2 (.inr ⟨hx, hfirst⟩)⟩, chain, nodup, closed⟩
    rw [runAll] at h
    split_ifs at h with hx
    · exact skip (not_leadsToCycle_of_acc (hsafe.ends x hx)) (ih hsafe h)
    · rcases run_cases (fun _ _ => Inv.step) _ (inv_start hsafe hx) with
        ⟨s, hs, hstep, hrun⟩ | ⟨s, path', hs, hstep, hrun⟩
      · rw [hrun] at h
        obtain ⟨hsafe', hx'⟩ := hs.finished hstep
        exact skip (not_leadsToCycle_of_acc (hsafe'.ends x (by simp [hx']))) (ih hsafe' h)
      · rw [hrun] at h
        obtain rfl : path' = path := by simpa [Except.bind] using h
        obtain ⟨hhead, chain, nodup, closed, hcycle⟩ := hs.cycle hstep
        exact ⟨⟨x, hhead, isFirst_cons.2 (.inl ⟨hcycle, rfl⟩)⟩, chain, nodup, closed⟩

end BundleGraph.CycleSearch

namespace BundleGraph.DependencyMap

open CycleSearch (Safe runAll_ok runAll_error)

variable {m : DependencyMap}

/-- Without a cycle every chain of dependencies ends. -/
theorem acc_of_searchCycle {safe : List Name} (h : m.searchCycle = .ok safe) (x : Name) :
    Acc (fun y x => DependsOn m.get x y) x := by
  obtain ⟨hsafe, -, hkeys⟩ := runAll_ok ⟨by simp, by simp⟩ h
  by_cases hx : x ∈ m.keys
  · exact hsafe.ends x (hkeys hx)
  · refine ⟨x, fun d hd => ?_⟩
    have := hd.1
    simp [get_eq_nil hx] at this

theorem searchCycle_eq_error_iff {path : List Name} :
    m.searchCycle = .error path ↔ IsCyclePath m.get m.keys path := by
  have sound : ∀ {path}, m.searchCycle = .error path → IsCyclePath m.get m.keys path :=
    runAll_error ⟨by simp, by simp⟩
  refine ⟨sound, fun hpath => ?_⟩
  cases h : m.searchCycle with
  | ok safe =>
    obtain ⟨x, _, hx⟩ := hpath.start
    exact absurd hx.holds (not_leadsToCycle_of_acc (acc_of_searchCycle h x))
  | error path' => rw [(sound h).unique hpath]

end BundleGraph.DependencyMap
