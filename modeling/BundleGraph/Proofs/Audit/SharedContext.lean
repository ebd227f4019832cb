import BundleGraph.Proofs.Audit.Rule

/-!
# Rules on one context

Rules can go on being run after one of them has failed. A rule that fails leaves the context as it
was, and of those that pass only the one that builds the map changes it, to the map of the modules.
So there are no more than two contexts in such a sequence, one without the map and one with it, and
what a rule comes to depends on which of the two it is given.
-/
namespace BundleGraph.Rule

/-- The context behind a sequence of rules that goes on after failures. -/
def contextAfter (c : Context) (rules : List Rule) : Context :=
  rules.foldl (fun c r => (r.attempt c).2) c

def outcomes (c : Context) : List Rule → List (Rule × Except Failure Unit)
  | [] => []
  | r :: rest => (r, (r.attempt c).1) :: outcomes (r.attempt c).2 rest

/-- Somewhere in the sequence the rule that builds the map passes. -/
def Built (c : Context) (rules : List Rule) : Prop :=
  ∃ before after, rules = before ++ dependencyMap :: after ∧
    (dependencyMap.attempt (contextAfter c before)).1 = .ok ()

/-- A context of the modules that holds their map if that has been built, and else none. -/
structure Holds (modules : List Manifest) (expected : Name) (built : Prop) (c : Context) :
    Prop where
  modules_eq : c.modules = modules
  expected_eq : c.expectedBase = expected
  map_none : ¬built → c.map? = none
  map_some : built → ∃ m, DependencyMap.ofModules modules = .ok m ∧ c.map? = some m

variable {modules : List Manifest} {expected : Name} {built : Prop} {c c' : Context}
variable {r : Rule} {rules : List Rule} {failure : Failure}

theorem attempt_of_ok (h : r.check c = .ok c') : r.attempt c = (.ok (), c') := by
  simp [attempt, h]

theorem attempt_of_error (h : r.check c = .error failure) :
    r.attempt c = (.error failure, c) := by
  simp [attempt, h]

theorem attempt_snd_of_error (h : (r.attempt c).1 = .error failure) : (r.attempt c).2 = c := by
  cases hcheck : r.check c with
  | ok c' => simp [attempt_of_ok hcheck] at h
  | error failure' => rw [attempt_of_error hcheck]

theorem attempt_snd_of_ne (h : r ≠ dependencyMap) : (r.attempt c).2 = c := by
  cases hcheck : r.check c with
  | error failure => rw [attempt_of_error hcheck]
  | ok c' =>
    rw [attempt_of_ok hcheck]
    rcases check_eq_ok_cases hcheck with ⟨-, hc⟩ | ⟨rfl, -⟩
    · exact hc
    · exact absurd rfl h

@[simp] theorem contextAfter_nil (c : Context) : contextAfter c [] = c := rfl

theorem contextAfter_append (c : Context) (rules rules' : List Rule) :
    contextAfter c (rules ++ rules') = contextAfter (contextAfter c rules) rules' :=
  List.foldl_append

theorem contextAfter_concat (c : Context) (rules : List Rule) (r : Rule) :
    contextAfter c (rules ++ [r]) = (r.attempt (contextAfter c rules)).2 :=
  contextAfter_append c rules [r]

theorem not_built_nil (c : Context) : ¬Built c [] := by
  rintro ⟨before, after, h, -⟩
  simp at h

theorem built_concat_iff : Built c (rules ++ [r]) ↔
    Built c rules ∨ r = dependencyMap ∧ (r.attempt (contextAfter c rules)).1 = .ok () := by
  constructor
  · rintro ⟨before, after, h, hpass⟩
    rcases List.eq_nil_or_concat after with rfl | ⟨after, last, rfl⟩
    · obtain ⟨rfl, hr⟩ := List.append_inj' h rfl
      obtain rfl : r = dependencyMap := by simpa using hr
      exact .inr ⟨rfl, hpass⟩
    · rw [List.concat_eq_append, ← List.cons_append, ← List.append_assoc] at h
      obtain ⟨rfl, -⟩ := List.append_inj' h rfl
      exact .inl ⟨before, after, rfl, hpass⟩
  · rintro (⟨before, after, rfl, hpass⟩ | ⟨rfl, hpass⟩)
    · exact ⟨before, after ++ [r], by simp, hpass⟩
    · exact ⟨rules, [], rfl, hpass⟩

theorem holds_start (modules : List Manifest) (expected : Name) (h : ¬built) :
    Holds modules expected built ⟨modules, expected, none⟩ :=
  ⟨rfl, rfl, fun _ => rfl, fun hbuilt => absurd hbuilt h⟩

/-- Whether the map has been built is all there is to know of a context. -/
theorem Holds.unique (h : Holds modules expected built c) (h' : Holds modules expected built c') :
    c = c' := by
  obtain ⟨_, _, map⟩ := c
  obtain ⟨_, _, map'⟩ := c'
  obtain rfl : _ = modules := h.modules_eq
  obtain rfl : _ = _ := h'.modules_eq
  obtain rfl : _ = expected := h.expected_eq
  obtain rfl : _ = _ := h'.expected_eq
  obtain rfl : map = map' := by
    by_cases hbuilt : built
    · obtain ⟨m, hm, hmap : map = _⟩ := h.map_some hbuilt
      obtain ⟨m', hm', hmap' : map' = _⟩ := h'.map_some hbuilt
      obtain rfl := Except.ok.inj (hm.symm.trans hm')
      rw [hmap, hmap']
    · exact (h.map_none hbuilt).trans (h'.map_none hbuilt).symm
  rfl

theorem Holds.attempt (h : Holds modules expected built c) (r : Rule) :
    Holds modules expected (built ∨ r = dependencyMap ∧ (r.attempt c).1 = .ok ())
      (r.attempt c).2 := by
  by_cases hpass : r = dependencyMap ∧ (r.attempt c).1 = .ok ()
  · obtain ⟨rfl, hok⟩ := hpass
    cases hm : DependencyMap.ofModules c.modules with
    | error failure => simp [attempt_of_error (check_dependencyMap_of_error hm)] at hok
    | ok m =>
      rw [attempt_of_ok (check_dependencyMap_of_ok hm)]
      exact ⟨h.modules_eq, h.expected_eq, fun hnot => absurd (.inr ⟨rfl, rfl⟩) hnot,
        fun _ => ⟨m, h.modules_eq ▸ hm, rfl⟩⟩
  · have hsame : (r.attempt c).2 = c := by
      by_cases hr : r = dependencyMap
      · cases hcheck : (r.attempt c).1 with
        | ok _ => exact absurd ⟨hr, hcheck⟩ hpass
        | error failure => exact attempt_snd_of_error hcheck
      · exact attempt_snd_of_ne hr
    rw [hsame, or_iff_left hpass]
    exact h

/-- Behind any sequence of rules the context holds the map just when it has been built. -/
theorem holds_contextAfter (modules : List Manifest) (expected : Name) (rules : List Rule) :
    Holds modules expected (Built ⟨modules, expected, none⟩ rules)
      (contextAfter ⟨modules, expected, none⟩ rules) := by
  induction rules using List.reverseRecOn with
  | nil => exact holds_start modules expected (not_built_nil _)
  | append_singleton rules r ih =>
    rw [contextAfter_concat, built_concat_iff]
    exact ih.attempt r

theorem Holds.map_eq_error_iff (h : Holds modules expected built c) :
    c.map = .error (.fault .mapNotBuilt) ↔ ¬built := by
  by_cases hbuilt : built
  · obtain ⟨m, -, hm⟩ := h.map_some hbuilt
    simp [Context.map, hm, hbuilt]
  · simp [Context.map, h.map_none hbuilt, hbuilt]

theorem Holds.map_eq (h : Holds modules expected built c) (hbuilt : built) :
    c.map = DependencyMap.ofModules modules := by
  obtain ⟨m, hm, hmap⟩ := h.map_some hbuilt
  rw [Context.map, hmap, hm]

theorem Holds.attempt_snd (h : Holds modules expected built c) (hbuilt : built) (r : Rule) :
    (r.attempt c).2 = c := by
  have hnext := h.attempt r
  rw [or_iff_left_of_imp fun _ => hbuilt] at hnext
  exact hnext.unique h

theorem Holds.contextAfter_eq (h : Holds modules expected built c) (hbuilt : built)
    (rules : List Rule) : contextAfter c rules = c := by
  induction rules using List.reverseRecOn with
  | nil => rfl
  | append_singleton rules r ih => rw [contextAfter_concat, ih, h.attempt_snd hbuilt]

theorem Holds.outcomes_eq (h : Holds modules expected built c) (hbuilt : built)
    (rules : List Rule) : outcomes c rules = rules.map fun r => (r, (r.attempt c).1) := by
  induction rules with
  | nil => rfl
  | cons r rules ih => rw [outcomes, h.attempt_snd hbuilt, ih, List.map_cons]

/-- Rules that are run on one context, whatever becomes of them: when the map can be read and what
it is, what a failure leaves behind, and what the outcome of a rule depends on. -/
theorem attempts_on_one_context (modules : List Manifest) (expected : Name) (before : List Rule)
    (r : Rule) :
    let start : Context := ⟨modules, expected, none⟩
    let c := contextAfter start before
    (c.map = .error (.fault .mapNotBuilt) ↔ ¬Built start before) ∧
      (Built start before →
        c.map = DependencyMap.ofModules modules ∧ ∀ later, contextAfter c later = c) ∧
      (∀ failure, (r.attempt c).1 = .error failure → (r.attempt c).2 = c) ∧
      (∀ before', (Built start before' ↔ Built start before) →
        (r.attempt (contextAfter start before')).1 = (r.attempt c).1) ∧
      (Built start before → ∀ rules rules', rules.Perm rules' →
        (outcomes c rules).Perm (outcomes c rules') ∧
          outcomes c rules = rules.map fun r => (r, (r.attempt c).1)) := by
  intro start c
  have hc : Holds modules expected (Built start before) c :=
    holds_contextAfter modules expected before
  refine ⟨hc.map_eq_error_iff, fun hbuilt => ⟨hc.map_eq hbuilt, hc.contextAfter_eq hbuilt⟩,
    fun failure => attempt_snd_of_error, fun before' hiff => ?_,
    fun hbuilt rules rules' hperm => ?_⟩
  · have hc' := holds_contextAfter modules expected before'
    rw [hiff] at hc'
    rw [hc'.unique hc]
  · rw [hc.outcomes_eq hbuilt, hc.outcomes_eq hbuilt]
    exact ⟨hperm.map _, rfl⟩

end BundleGraph.Rule
