import BundleGraph.Proofs.Audit.Precedence
import BundleGraph.Proofs.Audit.SharedContext

/-!
# Rules as a set

How often a rule stands in a list does not matter, and among lists in order neither does its place.
Behind rules that have passed there are only two contexts, and a rule that passes in either of them
also passes with the finished map: it is satisfied by the modules. So rules that have passed pass
again, and rules in order pass just when each of them is satisfied.
-/
namespace BundleGraph.Rule

variable {modules : List Manifest} {expected : Name} {built : Prop} {c c' d : Context}
variable {r : Rule} {rules before : List Rule}

/-- The context with the finished map, if the modules have one. -/
def finished (modules : List Manifest) (expected : Name) : Context :=
  ⟨modules, expected, (DependencyMap.ofModules modules).toOption⟩

/-- The rule finds nothing wrong with the modules once all that it may read is there. -/
def Satisfied (modules : List Manifest) (expected : Name) (r : Rule) : Prop :=
  ∃ c, r.check (finished modules expected) = .ok c

/-- A rule that does not read the map passes with it and without it. -/
theorem exists_check_congr (hr : dependencyMap ∉ r.needs) (hmodules : c.modules = d.modules)
    (hexpected : c.expectedBase = d.expectedBase) :
    (∃ c', r.check c = .ok c') ↔ ∃ d', r.check d = .ok d' := by
  cases r with
  | basePresence => simp [check, Context.pass_eq_ok_iff, hmodules, hexpected]
  | splitIds => simp [check, Context.pass_eq_ok_iff, hmodules]
  | dependencyMap =>
    cases hm : DependencyMap.ofModules d.modules with
    | ok m => simp [check_dependencyMap_of_ok hm, check_dependencyMap_of_ok (hmodules ▸ hm)]
    | error failure =>
      simp [check_dependencyMap_of_error hm, check_dependencyMap_of_error (hmodules ▸ hm)]
  | noSelfDependencies | noRepeats | knownModules | noCycles | deliveryOrder =>
    exact absurd (by decide) hr

/-- A rule that reads the map does not pass without it. -/
theorem map_ne_none_of_check (hr : dependencyMap ∈ r.needs) (h : r.check c = .ok c') :
    c.map? ≠ none := by
  have hread {found : DependencyMap → Option Failure}
      (h : (c.map.bind fun m => c.pass (found m)) = .ok c') : c.map? ≠ none := by
    obtain ⟨⟨m, hm, -⟩, -⟩ := Context.map_bind_pass_eq_ok_iff.1 h
    simp [hm]
  cases r with
  | basePresence | splitIds | dependencyMap => simp [needs] at hr
  | noSelfDependencies | noRepeats | knownModules | noCycles | deliveryOrder => exact hread h

theorem Holds.map_ne_none_iff (h : Holds modules expected built c) : c.map? ≠ none ↔ built := by
  by_cases hbuilt : built
  · obtain ⟨m, -, hm⟩ := h.map_some hbuilt
    simp [hm, hbuilt]
  · simp [h.map_none hbuilt, hbuilt]

theorem Holds.eq_finished (h : Holds modules expected built c) (hbuilt : built) :
    c = finished modules expected := by
  obtain ⟨m, hm, -⟩ := h.map_some hbuilt
  refine h.unique ⟨rfl, rfl, fun hnot => absurd hbuilt hnot, fun _ => ⟨m, hm, ?_⟩⟩
  rw [finished, hm]
  rfl

/-- A rule that passes is satisfied, and if it reads the map, that has been built. -/
theorem Holds.satisfied_of_check (h : Holds modules expected built c) (hr : r.check c = .ok c') :
    Satisfied modules expected r ∧ (dependencyMap ∈ r.needs → built) := by
  have hbuilt : dependencyMap ∈ r.needs → built := fun hneeds =>
    h.map_ne_none_iff.1 (map_ne_none_of_check hneeds hr)
  refine ⟨?_, hbuilt⟩
  by_cases hneeds : dependencyMap ∈ r.needs
  · exact ⟨c', h.eq_finished (hbuilt hneeds) ▸ hr⟩
  · exact (exists_check_congr hneeds h.modules_eq h.expected_eq).1 ⟨c', hr⟩

/-- A rule that is satisfied passes as soon as what it reads has been built. -/
theorem Holds.exists_check (h : Holds modules expected built c)
    (hr : Satisfied modules expected r) (hbuilt : dependencyMap ∈ r.needs → built) :
    ∃ c', r.check c = .ok c' := by
  by_cases hneeds : dependencyMap ∈ r.needs
  · rw [h.eq_finished (hbuilt hneeds)]
    exact hr
  · exact (exists_check_congr hneeds h.modules_eq h.expected_eq).2 hr

theorem Holds.of_check (h : Holds modules expected built c) (hr : r.check c = .ok c') :
    Holds modules expected (built ∨ r = dependencyMap) c' := by
  have hnext := h.attempt r
  rw [attempt_of_ok hr] at hnext
  simpa using hnext

/-- Behind rules that have passed the context holds the map if the rule that builds it was among
them. -/
theorem Holds.of_passes (h : Holds modules expected built c) (hpasses : kind.Passes c rules c') :
    Holds modules expected (built ∨ dependencyMap ∈ rules) c' := by
  induction hpasses generalizing built with
  | nil c => simpa using h
  | @cons c c₁ c₂ r rest first _ ih =>
    have hrest := ih (h.of_check first)
    simpa [or_assoc, eq_comm] using hrest

theorem holds_of_passes (hpasses : kind.Passes ⟨modules, expected, none⟩ rules c) :
    Holds modules expected (dependencyMap ∈ rules) c := by
  simpa using (holds_start modules expected not_false).of_passes hpasses

/-- Each of the rules that have passed is satisfied, and if it reads the map, the rule that builds
it has passed as well. -/
theorem satisfied_of_passes (hpasses : kind.Passes ⟨modules, expected, none⟩ rules c)
    (hr : r ∈ rules) :
    Satisfied modules expected r ∧ (dependencyMap ∈ r.needs → dependencyMap ∈ rules) := by
  obtain ⟨before, after, rfl⟩ := List.append_of_mem hr
  obtain ⟨c₁, hbefore, hafter⟩ := RuleKind.passes_append_iff.1 hpasses
  obtain ⟨c₂, hcheck, -⟩ := RuleKind.passes_cons_iff.1 hafter
  obtain ⟨hsatisfied, hbuilt⟩ := (holds_of_passes hbefore).satisfied_of_check hcheck
  exact ⟨hsatisfied, fun hneeds => List.mem_append_left _ (hbuilt hneeds)⟩

theorem passes_again {again : List Rule}
    (hpasses : kind.Passes ⟨modules, expected, none⟩ before c) (hagain : again ⊆ before) :
    kind.Passes c again c := by
  induction again with
  | nil => exact .nil c
  | cons r again ih =>
    obtain ⟨hr, hrest⟩ := List.cons_subset.1 hagain
    have hc := holds_of_passes hpasses
    obtain ⟨hsatisfied, hbuilt⟩ := satisfied_of_passes hpasses hr
    obtain ⟨c', hcheck⟩ := hc.exists_check hsatisfied hbuilt
    have hc' := hc.of_check hcheck
    rw [or_iff_left_of_imp fun h : r = dependencyMap => h ▸ hr] at hc'
    obtain rfl := hc'.unique hc
    exact .cons hcheck (ih hrest)

theorem InOrder.validate_eq_ok_iff (h : InOrder rules) :
    validate modules expected rules = .ok () ↔ ∀ r ∈ rules, Satisfied modules expected r := by
  constructor
  · intro hok r hr
    obtain ⟨c, hpasses⟩ := RuleKind.passes_of_raise hok
    exact (satisfied_of_passes hpasses hr).1
  · intro hall
    rcases kind.passes_or_firstFailure ⟨modules, expected, none⟩ rules with
      ⟨c, hpasses⟩ | ⟨r, failure, before, after, c, rfl, hbefore, hcheck⟩
    · exact hpasses.raise_eq
    · obtain ⟨c', hc'⟩ := (holds_of_passes hbefore).exists_check (hall r (by simp))
        fun hneeds => h before r after rfl hneeds
      exact nomatch hc'.symm.trans hcheck

/-- Rules that stand in front already may be left out. -/
theorem audit_append_again {again after : List Rule} (hagain : again ⊆ before) :
    audit (before ++ again ++ after) expected modules =
      audit (before ++ after) expected modules := by
  unfold audit RuleKind.audit
  rw [List.append_assoc]
  rcases kind.passes_or_firstFailure (kind.start modules expected) before with
    ⟨c, hpasses⟩ | ⟨r, failure, hfailure⟩
  · rw [hpasses.record_append, hpasses.record_append, (passes_again hpasses hagain).record_append]
  · rw [(hfailure.append _).record_eq, (hfailure.append _).record_eq]

/-- Rules in order give a report, which passes just when each of them is satisfied. -/
theorem InOrder.exists_report (h : InOrder rules) (modules : List Manifest) (expected : Name) :
    ∃ report, audit rules expected modules = .ok report ∧
      (report.status = .pass ↔ ∀ r ∈ rules, Satisfied modules expected r) := by
  rw [← h.validate_eq_ok_iff]
  rcases kind.passes_or_firstFailure (kind.start modules expected) rules with
    ⟨c, hpasses⟩ | ⟨r, failure, hfailure⟩
  · have hok : validate modules expected rules = .ok () := hpasses.raise_eq
    exact ⟨_, hpasses.audit_eq, by simp [hok, Report.opening, Report.count]⟩
  · have herror : validate modules expected rules = .error failure := hfailure.raise_eq
    cases failure with
    | violation v =>
      have htold : kind.told (.violation v) = .ok v.finding := rfl
      have haudit := hfailure.audit_eq.trans (RuleKind.ended_of_told htold)
      exact ⟨_, haudit, by simp [herror, Report.addIssue, Issue.found]⟩
    | fault f =>
      exact absurd herror
        ((established_nil modules expected).raise_ne_fault (inOrder_iff_inOrderAfter.1 h) f)

/-- The report of a run depends on its rules as a set. Further copies of rules that stand in front
already change nothing, neither the report nor a fault; and two lists of the same rules, both in
order, come to the same status, exit code and counters for all modules. -/
theorem audit_of_rule_set (expected : Name) (modules : List Manifest) :
    (∀ before again after, again ⊆ before →
        audit (before ++ again ++ after) expected modules =
          audit (before ++ after) expected modules) ∧
      ∀ rules rules', InOrder rules → InOrder rules' → (∀ r, r ∈ rules ↔ r ∈ rules') →
        ∃ report report', audit rules expected modules = .ok report ∧
          audit rules' expected modules = .ok report' ∧ report.status = report'.status ∧
          report.exitCode = report'.exitCode ∧ report.counters = report'.counters := by
  refine ⟨fun before again after => audit_append_again, fun rules rules' h h' hsame => ?_⟩
  obtain ⟨report, haudit, hpass⟩ := h.exists_report modules expected
  obtain ⟨report', haudit', hpass'⟩ := h'.exists_report modules expected
  have hiff : report.status = .pass ↔ report'.status = .pass := by
    rw [hpass, hpass']
    simp only [hsame]
  have hstatus : report.status = report'.status := by
    cases hs : report.status with
    | pass => exact (hiff.1 hs).symm
    | fail =>
      cases hs' : report'.status with
      | pass => simp [hiff.2 hs'] at hs
      | fail => rfl
  have hcounters : report.counters = report'.counters :=
    (RuleKind.counters_of_audit haudit).trans (RuleKind.counters_of_audit haudit').symm
  exact ⟨report, report', haudit, haudit', hstatus, by simp [Report.exitCode, hstatus], hcounters⟩

/-- Two orders of the same rules that blame different modules, the one for a repeated dependency
and the other, in which some rules stand twice, for a cycle. -/
theorem audit_of_rule_set_loop :
    let modules : List Manifest := [⟨"base", true, false, none, []⟩,
      ⟨"a", false, false, none, ["b", "b"]⟩, ⟨"b", false, false, none, ["a"]⟩]
    let rules := [basePresence, dependencyMap, noRepeats, noCycles]
    let rules' := [basePresence, dependencyMap, basePresence, noCycles, dependencyMap, noRepeats]
    InOrder rules ∧ InOrder rules' ∧ (∀ r, r ∈ rules ↔ r ∈ rules') ∧
      validate modules "base" rules = .error (.violation (.repeatedDependency "a" "b")) ∧
      validate modules "base" rules' = .error (.violation (.cycle ["a", "b"])) ∧
      ∃ report report', audit rules "base" modules = .ok report ∧
        audit rules' "base" modules = .ok report' ∧ report.status = report'.status ∧
        report.exitCode = report'.exitCode ∧ report.counters = report'.counters := by
  intro modules rules rules'
  have h : InOrder rules := by decide
  have h' : InOrder rules' := by decide
  have hsame : ∀ r, r ∈ rules ↔ r ∈ rules' := by
    intro r
    cases r <;> decide
  exact ⟨h, h', hsame, by cbv, by cbv, (audit_of_rule_set "base" modules).2 rules rules' h h' hsame⟩

end BundleGraph.Rule
