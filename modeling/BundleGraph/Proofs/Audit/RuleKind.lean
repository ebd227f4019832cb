import BundleGraph.Audit.Report
import Mathlib.Tactic

/-!
# Raising and recording

Rules can be run in two ways: one run ends with the first failure, the other puts it into a report.
Both are judged by the same event, that a rule fails on the state to which the rules before it have
led. So the runs agree for rules of every kind, and the counters of a report do not depend on them.
-/
namespace BundleGraph

namespace Report

/-- The counters that every report has: the modules, what they declare and those on demand. -/
def tallies (modules : List Manifest) : List (Text × Int) :=
  [("modules_checked", modules.length),
    ("dependencies_checked", ((modules.map fun x => x.usesSplits.length).sum : Nat)),
    ("on_demand_modules", modules.countP Manifest.onDemand)]

@[simp] theorem counters_opening (modules : List Manifest) :
    (opening modules).counters = tallies modules := by
  have hcounters : (opening modules).counters =
      ([("modules_checked", 0 + (modules.length : Int)),
        ("dependencies_checked", 0 + ((modules.flatMap Manifest.usesSplits).length : Int)),
        ("on_demand_modules", 0 + ((modules.filter Manifest.onDemand).length : Int))] :
        List (Text × Int)) := rfl
  rw [hcounters, tallies, ← List.length_flatMap, List.countP_eq_length_filter]
  simp only [zero_add]

@[simp] theorem counters_addIssue (r : Report) (i : Issue) :
    (r.addIssue i).counters = r.counters := rfl

end Report

namespace RuleKind

variable {ρ σ ε φ : Type} (k : RuleKind ρ σ ε φ)

/-- The rules pass one after the other and lead from one state to another. -/
inductive Passes : σ → List ρ → σ → Prop
  | nil (s : σ) : Passes s [] s
  | cons {s s' s'' : σ} {r : ρ} {rest : List ρ} (first : k.check s r = .ok s')
      (later : Passes s' rest s'') : Passes s (r :: rest) s''

def ended (report : Report) (r : ρ) (failure : ε) : Except φ Report :=
  match k.told failure with
  | .ok finding => .ok (report.addIssue (Issue.found (k.name r) finding))
  | .error f => .error f

/-- `r` is the first rule that does not pass, and this is why. -/
def FirstFailure (s : σ) (rules : List ρ) (r : ρ) (failure : ε) : Prop :=
  ∃ before after s', rules = before ++ r :: after ∧ k.Passes s before s' ∧
    k.check s' r = .error failure

variable {k} {s s' : σ} {r : ρ} {rules : List ρ} {failure : ε} {report : Report}

theorem raise_cons_of_ok (h : k.check s r = .ok s') :
    k.raise s (r :: rules) = k.raise s' rules := by
  simp [raise, h]

theorem raise_cons_of_error (h : k.check s r = .error failure) :
    k.raise s (r :: rules) = .error failure := by
  simp [raise, h]

theorem record_cons_of_ok (h : k.check s r = .ok s') :
    k.record report s (r :: rules) = k.record report s' rules := by
  simp [record, h]

theorem record_cons_of_error (h : k.check s r = .error failure) :
    k.record report s (r :: rules) = k.ended report r failure := by
  simp only [record, h]
  rfl

theorem FirstFailure.cons (h : k.check s r = .ok s') {r' : ρ}
    (hf : k.FirstFailure s' rules r' failure) : k.FirstFailure s (r :: rules) r' failure := by
  obtain ⟨before, after, t, rfl, hpasses, hcheck⟩ := hf
  exact ⟨r :: before, after, t, rfl, .cons h hpasses, hcheck⟩

theorem FirstFailure.append (h : k.FirstFailure s rules r failure) (rest : List ρ) :
    k.FirstFailure s (rules ++ rest) r failure := by
  obtain ⟨before, after, t, rfl, hpasses, hcheck⟩ := h
  exact ⟨before, after ++ rest, t, by simp, hpasses, hcheck⟩

theorem passes_or_firstFailure (k : RuleKind ρ σ ε φ) (s : σ) (rules : List ρ) :
    (∃ s', k.Passes s rules s') ∨ ∃ r failure, k.FirstFailure s rules r failure := by
  induction rules generalizing s with
  | nil => exact .inl ⟨s, .nil s⟩
  | cons r rules ih =>
    cases h : k.check s r with
    | error failure => exact .inr ⟨r, failure, [], rules, s, rfl, .nil s, h⟩
    | ok s' =>
      rcases ih s' with ⟨t, ht⟩ | ⟨r', failure, hf⟩
      · exact .inl ⟨t, .cons h ht⟩
      · exact .inr ⟨r', failure, hf.cons h⟩

theorem passes_cons_iff : k.Passes s (r :: rules) s' ↔
    ∃ t, k.check s r = .ok t ∧ k.Passes t rules s' := by
  constructor
  · intro h
    cases h with
    | cons first later => exact ⟨_, first, later⟩
  · rintro ⟨t, first, later⟩
    exact .cons first later

theorem passes_append_iff {rules' : List ρ} : k.Passes s (rules ++ rules') s' ↔
    ∃ t, k.Passes s rules t ∧ k.Passes t rules' s' := by
  induction rules generalizing s with
  | nil =>
    constructor
    · exact fun h => ⟨s, .nil s, h⟩
    · rintro ⟨t, hnil, h⟩
      cases hnil
      exact h
  | cons r rules ih =>
    simp only [List.cons_append, passes_cons_iff, ih]
    constructor
    · rintro ⟨t, first, u, hu, later⟩
      exact ⟨u, ⟨t, first, hu⟩, later⟩
    · rintro ⟨u, ⟨t, first, hu⟩, later⟩
      exact ⟨t, first, u, hu, later⟩

/-- Rules that pass hand their state on to the rules behind them. -/
theorem Passes.raise_append (h : k.Passes s rules s') (rest : List ρ) :
    k.raise s (rules ++ rest) = k.raise s' rest := by
  induction h with
  | nil s => rfl
  | cons first _ ih => rw [List.cons_append, raise_cons_of_ok first, ih]

theorem Passes.record_append (h : k.Passes s rules s') (report : Report) (rest : List ρ) :
    k.record report s (rules ++ rest) = k.record report s' rest := by
  induction h with
  | nil s => rfl
  | cons first _ ih => rw [List.cons_append, record_cons_of_ok first, ih]

theorem Passes.raise_eq (h : k.Passes s rules s') : k.raise s rules = .ok () := by
  simpa [raise] using h.raise_append []

theorem Passes.record_eq (h : k.Passes s rules s') : k.record report s rules = .ok report := by
  simpa [record] using h.record_append report []

/-- What comes behind the first failure does not matter. -/
theorem FirstFailure.raise_eq (h : k.FirstFailure s rules r failure) :
    k.raise s rules = .error failure := by
  obtain ⟨before, after, t, rfl, hpasses, hcheck⟩ := h
  rw [hpasses.raise_append, raise_cons_of_error hcheck]

theorem FirstFailure.record_eq (h : k.FirstFailure s rules r failure) :
    k.record report s rules = k.ended report r failure := by
  obtain ⟨before, after, t, rfl, hpasses, hcheck⟩ := h
  rw [hpasses.record_append, record_cons_of_error hcheck]

theorem firstFailure_of_raise (h : k.raise s rules = .error failure) :
    ∃ r, k.FirstFailure s rules r failure := by
  rcases k.passes_or_firstFailure s rules with ⟨s', hs⟩ | ⟨r, failure', hr⟩
  · simp [hs.raise_eq] at h
  · obtain rfl := Except.error.inj (hr.raise_eq.symm.trans h)
    exact ⟨r, hr⟩

theorem passes_of_raise (h : k.raise s rules = .ok ()) : ∃ s', k.Passes s rules s' := by
  rcases k.passes_or_firstFailure s rules with hs | ⟨r, failure, hr⟩
  · exact hs
  · simp [hr.raise_eq] at h

section Audit

variable {expected : Name} {modules : List Manifest}

theorem Passes.audit_eq (h : k.Passes (k.start modules expected) rules s') :
    k.audit rules expected modules = .ok (Report.opening modules) := h.record_eq

theorem FirstFailure.audit_eq (h : k.FirstFailure (k.start modules expected) rules r failure) :
    k.audit rules expected modules = k.ended (Report.opening modules) r failure := h.record_eq

theorem ended_of_told {finding : Finding} (h : k.told failure = .ok finding) :
    k.ended report r failure = .ok (report.addIssue (Issue.found (k.name r) finding)) := by
  rw [ended, h]

theorem ended_eq_error_iff {f : φ} : k.ended report r failure = .error f ↔
    k.told failure = .error f := by
  cases h : k.told failure <;> simp [ended, h]

theorem audit_eq_error_iff {f : φ} : k.audit rules expected modules = .error f ↔
    ∃ failure, k.validate modules expected rules = .error failure ∧ k.told failure = .error f := by
  constructor
  · intro h
    rcases k.passes_or_firstFailure (k.start modules expected) rules with
      ⟨s', hs⟩ | ⟨r, failure, hr⟩
    · simp [hs.audit_eq] at h
    · rw [hr.audit_eq, ended_eq_error_iff] at h
      exact ⟨failure, hr.raise_eq, h⟩
  · rintro ⟨failure, hraise, htold⟩
    obtain ⟨r, hr⟩ := firstFailure_of_raise hraise
    rw [hr.audit_eq, ended_eq_error_iff, htold]

theorem counters_of_audit (h : k.audit rules expected modules = .ok report) :
    report.counters = Report.tallies modules := by
  rcases k.passes_or_firstFailure (k.start modules expected) rules with
    ⟨s', hs⟩ | ⟨r, failure, hr⟩
  · rw [hs.audit_eq, Except.ok.injEq] at h
    rw [← h, Report.counters_opening]
  · rw [hr.audit_eq] at h
    cases htold : k.told failure with
    | error f => simp [ended_eq_error_iff.2 htold] at h
    | ok finding =>
      rw [ended_of_told htold, Except.ok.injEq] at h
      rw [← h, Report.counters_addIssue, Report.counters_opening]

end Audit

/-- Whatever the rules look at and find, the report about a bundle tells what the validation of it
comes to: a pass, or what was found with the rule that found it first; and a fault comes out of
both. -/
theorem audit_agrees_with_validate (k : RuleKind ρ σ ε φ) (rules : List ρ) (expected : Name)
    (modules : List Manifest) :
    (k.validate modules expected rules = .ok () →
        ∃ report, k.audit rules expected modules = .ok report ∧ report.status = .pass ∧
          report.exitCode = 0 ∧ report.issues = []) ∧
      (∀ failure finding, k.validate modules expected rules = .error failure →
        k.told failure = .ok finding →
        ∃ report r, k.audit rules expected modules = .ok report ∧ report.status = .fail ∧
          report.exitCode = 1 ∧ k.FirstFailure (k.start modules expected) rules r failure ∧
          report.issues = [{
            rule := k.name r
            severity := .fail
            message := finding.message
            kind := some finding.kind.name
            modules := finding.modules }]) ∧
      (∀ failure f, k.validate modules expected rules = .error failure →
        k.told failure = .error f → k.audit rules expected modules = .error f) ∧
      ∀ report, k.audit rules expected modules = .ok report →
        report.counters = Report.tallies modules := by
  refine ⟨fun h => ?_, fun failure finding h htold => ?_, fun failure f h htold => ?_,
    fun report h => counters_of_audit h⟩
  · obtain ⟨s', hs⟩ := passes_of_raise h
    exact ⟨_, hs.audit_eq, rfl, rfl, rfl⟩
  · obtain ⟨r, hr⟩ := firstFailure_of_raise h
    exact ⟨_, r, hr.audit_eq.trans (ended_of_told htold), rfl, rfl, hr, rfl⟩
  · exact audit_eq_error_iff.2 ⟨failure, h, htold⟩

end RuleKind

end BundleGraph
