import BundleGraph.Proofs.Audit.Wording
import BundleGraph.Proofs.Command.ExitCode
import BundleGraph.Proofs.Json.RoundTrip
import BundleGraph.Proofs.Settings.Loading

/-!
# The report in JSON

A JSON report can be read back like a descriptor, and what is found is the report that the audit
came to. All texts in it come from documents that were read, where no halves of a surrogate pair
stand side by side, so the escapes in it are undone one by one.
-/
namespace BundleGraph

open Json (Limits Restorable Value)

variable {host : Host} {limits : Limits} {files : FileTree} {r : ValidateRequest} {s : Settings}
variable {d : Descriptor} {modules : List Manifest} {expected : Name} {report : Report} {i : Issue}
variable {depth : Nat}

section Restorable

/-- Counters have to be short enough to be read as integers. -/
theorem restorable_natCast {n : Nat} (h : n < 10 ^ limits.digits) :
    Restorable limits depth (.int n) :=
  .int depth n ((Json.length_ofNat_le_iff limits.digits_pos).2 h)

theorem restorable_ofTexts {texts : List Text} (h : ∀ t ∈ texts, t.Unpaired) :
    Restorable limits (depth + 1) (.ofTexts texts) := by
  refine .array depth _ fun v hv => ?_
  obtain ⟨t, ht, rfl⟩ := List.mem_map.1 hv
  exact .string depth t (h t ht)

theorem restorable_of_wellFormed {t : Text} (h : t.WellFormed) :
    Restorable limits depth (.string t) :=
  .string depth t (Text.unpaired_of_wellFormed h)

theorem restorable_ofMembers {members : List (String × Value)}
    (hdistinct : (members.map Prod.fst).Nodup)
    (h : ∀ p ∈ members, Restorable limits depth p.2) :
    Restorable limits (depth + 1) (.ofMembers members) := by
  refine .object depth _ ?_ ?_ ?_
  · have hkeys : Assoc.keys (members.map fun p => (Text.ofString p.1, p.2)) =
        (members.map Prod.fst).map Text.ofString := by
      simp [Assoc.keys]
    rw [hkeys]
    exact hdistinct.map Text.ofString_injective
  · intro p hp
    obtain ⟨q, -, rfl⟩ := List.mem_map.1 hp
    exact Text.unpaired_of_wellFormed (Text.wellFormed_ofString q.1)
  · intro p hp
    obtain ⟨q, hq, rfl⟩ := List.mem_map.1 hp
    exact h q hq

theorem Issue.restorable_toJson (hregular : Report.RegularIssue i) (hmessage : i.message.Unpaired)
    (hmodules : ∀ m ∈ i.modules, m.Unpaired) : Restorable limits (depth + 2) i.toJson := by
  have hseverity : i.severity.name.WellFormed := by
    cases i.severity <;> exact Text.wellFormed_ofString _
  have hkind : Restorable limits (depth + 1) (.ofText? i.kind) := by
    have hplain := hregular.kind.plain.wellFormed
    cases hi : i.kind with
    | none => exact .null _
    | some kind =>
      rw [hi] at hplain
      exact restorable_of_wellFormed hplain
  apply restorable_ofMembers (by simp)
  simp only [List.forall_mem_cons]
  exact ⟨restorable_of_wellFormed hregular.rule.plain.wellFormed,
    restorable_of_wellFormed hseverity, hkind, .string _ _ hmessage, restorable_ofTexts hmodules,
    by simp⟩

theorem Report.restorable_tallies
    (hsize : modules.length + (modules.flatMap Manifest.usesSplits).length <
      10 ^ limits.digits) :
    Restorable limits (depth + 1)
      (.object ((tallies modules).map fun p => (p.1, .int p.2))) := by
  have hdemand : modules.countP Manifest.onDemand ≤ modules.length := List.countP_le_length
  have huses : (modules.map fun x => x.usesSplits.length).sum =
      (modules.flatMap Manifest.usesSplits).length := List.length_flatMap.symm
  have hmembers : (Value.object ((tallies modules).map fun p => (p.1, .int p.2))) = .ofMembers
      [("modules_checked", .int modules.length),
        ("dependencies_checked", .int ((modules.map fun x => x.usesSplits.length).sum : Nat)),
        ("on_demand_modules", .int (modules.countP Manifest.onDemand))] := rfl
  rw [hmembers]
  apply restorable_ofMembers (by simp)
  simp only [List.forall_mem_cons]
  exact ⟨restorable_natCast (by omega), restorable_natCast (by omega),
    restorable_natCast (by omega), by simp⟩

theorem Report.restorable_toJson (hregular : report.Regular)
    (hcounters : report.counters = tallies modules)
    (hsize : modules.length + (modules.flatMap Manifest.usesSplits).length <
      10 ^ limits.digits)
    (hissues : ∀ i ∈ report.issues, i.message.Unpaired ∧ ∀ m ∈ i.modules, m.Unpaired) :
    Restorable limits (depth + 4) report.toJson := by
  have hstatus : report.status.name.WellFormed := by
    cases report.status <;> exact Text.wellFormed_ofString _
  have hcode : report.exitCode < 10 ^ limits.digits := by
    have hle : report.exitCode ≤ 1 := by
      unfold exitCode
      split_ifs <;> simp
    exact hle.trans_lt (Nat.one_lt_pow limits.digits_pos.ne' (by decide))
  apply restorable_ofMembers (by simp)
  simp only [List.forall_mem_cons]
  refine ⟨restorable_of_wellFormed hstatus, restorable_natCast hcode,
    hcounters ▸ restorable_tallies hsize, ?_, by simp⟩
  refine .array _ _ fun v hv => ?_
  obtain ⟨i, hi, rfl⟩ := List.mem_map.1 hv
  exact i.restorable_toJson (hregular.issues i hi) (hissues i hi).1 (hissues i hi).2

end Restorable

theorem restorable_of_audit (haudit : audit Rule.defaults expected modules = .ok report)
    (hsize : modules.length + (modules.flatMap Manifest.usesSplits).length <
      10 ^ limits.digits)
    (htexts : ∀ t ∈ expected :: textsOf modules, t.Unpaired) :
    Restorable limits (depth + 4) report.toJson := by
  have hcounters := RuleKind.counters_of_audit haudit
  have hopening := Report.regular_opening modules
  rcases validate_cases modules expected with hok | ⟨v, hv⟩
  · obtain rfl := Except.ok.inj ((audit_of_ok hok).symm.trans haudit)
    exact Report.restorable_toJson hopening hcounters hsize (by simp [Report.opening, Report.count])
  · obtain ⟨rule, hrule⟩ := audit_of_violation hv
    obtain rfl := Except.ok.inj (hrule.symm.trans haudit)
    have hv : ∀ t ∈ v.texts, t.Unpaired := fun t ht => htexts t (texts_subset_of_validate hv ht)
    refine Report.restorable_toJson (hopening.addIssue rule v) hcounters hsize fun i hi => ?_
    obtain rfl : i = Issue.ofViolation rule v := by
      simpa [Report.addIssue, Report.opening, Report.count] using hi
    exact ⟨Violation.unpaired_message hv, fun m hm => hv m (v.modules_subset_texts hm)⟩

theorem unpaired_of_loaded (hs : Settings.load limits files r.settings = .ok s)
    (hd : Descriptor.load limits files r.descriptor = .ok d) :
    ∀ t ∈ s.expectedBase :: textsOf (d.manifests s.expectedBase), t.Unpaired := by
  intro t ht
  rcases List.mem_cons.1 ht with rfl | ht
  · exact Settings.unpaired_of_load hs
  · obtain ⟨x, hx, ht⟩ := List.mem_flatMap.1 ht
    exact Descriptor.unpaired_of_load hd hx ht

/-- The status, the exit code and the issues among the members of a report. -/
structure Report.Outline (members : List (Text × Value)) (status : Text) (code : Nat)
    (issues : List Value) : Prop where
  status_eq : members.lookup (Text.ofString "status") = some (.string status)
  exitCode_eq : members.lookup (Text.ofString "exit_code") = some (.int code)
  issues_eq : members.lookup (Text.ofString "issues") = some (.array issues)

theorem lookup_ofString (members : List (String × Value)) (key : String) :
    (members.map fun p => (Text.ofString p.1, p.2)).lookup (Text.ofString key) =
      members.lookup key := by
  induction members with
  | nil => rfl
  | cons p members ih =>
    obtain ⟨k, v⟩ := p
    by_cases h : key = k
    · simp [h]
    · have hne : Text.ofString key ≠ Text.ofString k := Text.ofString_injective.ne h
      simp [List.lookup_cons, beq_eq_false_iff_ne.2 h, beq_eq_false_iff_ne.2 hne, ih]

theorem Report.exists_outline (report : Report) : ∃ members, report.toJson = .object members ∧
    Outline members report.status.name report.exitCode (report.issues.map Issue.toJson) := by
  refine ⟨_, rfl, ?_, ?_, ?_⟩
  · exact lookup_ofString _ "status"
  · exact lookup_ofString _ "exit_code"
  · exact lookup_ofString _ "issues"

/-- A report fails with the exit code 1 and one issue just when the rules reject the modules. -/
theorem failing_of_audit (haudit : audit Rule.defaults expected modules = .ok report) :
    (report.status.name = Text.ofString "fail" ↔ report.exitCode = 1) ∧
      (report.exitCode = 1 ↔ report.issues ≠ []) ∧
      (report.issues ≠ [] ↔ ∃ v, validate modules expected = .error (.violation v)) ∧
      (report.status.name = Text.ofString "fail" → report.issues.length = 1) := by
  rcases validate_cases modules expected with hok | ⟨v, hv⟩
  · obtain rfl := Except.ok.inj ((audit_of_ok hok).symm.trans haudit)
    have hname : Status.pass.name ≠ Text.ofString "fail" := by decide
    simp [hok, Report.opening, Report.count, Report.exitCode, hname]
  · obtain ⟨rule, hrule⟩ := audit_of_violation hv
    obtain rfl := Except.ok.inj (hrule.symm.trans haudit)
    have hname : Status.fail.name = Text.ofString "fail" := rfl
    simp [hv, Report.addIssue, Report.opening, Report.count, Report.exitCode, Issue.ofViolation,
      Issue.found, hname]

namespace Command

theorem validate_json (hs : Settings.load host.limits files r.settings = .ok s)
    (hd : Descriptor.load host.limits files r.descriptor = .ok d)
    (hformat : r.format = some Format.json.name)
    (haudit : audit Rule.defaults s.expectedBase (d.manifests s.expectedBase) = .ok report) :
    (validate host files r).output = Json.print report.toJson ++ Text.ofString "\n" ∧
      (validate host files r).ending = .exit report.exitCode := by
  have hr : { r with format := some Format.json.name } = r := by rw [← hformat]
  have houtput := output_validate hs hd haudit .json
  have hending := (ending_validate_iff (f := .json) hs hd haudit rfl).2 json_blocks_print
  rw [hr] at houtput hending
  refine ⟨?_, hending⟩
  rw [houtput]
  unfold reportBlocks Report.jsonBlocks
  simp [Console.print, Report.render_json]

/-- The report that is printed in JSON is read back, by the reader of descriptors, as what the audit
came to. The run ends with its exit code, and it fails with one issue just when the rules reject the
modules. The counters of a file of this size have no more digits than the reader takes. -/
theorem json_report_read_back {arguments : List Text} {bytes : List UInt8}
    (hrequest : Request.ofArguments arguments = .ok (.validate r))
    (hformat : r.format = some Format.json.name)
    (hs : Settings.load host.limits files r.settings = .ok s)
    (hd : Descriptor.load host.limits files r.descriptor = .ok d)
    (hfile : files.lookup r.descriptor = .ok (some (.file bytes)))
    (hsize : bytes.length < 10 ^ host.limits.digits) :
    let modules := d.manifests s.expectedBase
    let outcome := run host files arguments
    ∃ report members, audit Rule.defaults s.expectedBase modules = .ok report ∧
      report.toJson = .object members ∧
      Document.read host.limits (Utf8.encode outcome.output) = .ok (.object members) ∧
      ∃ (status : Text) (code : Nat) (issues : List Value),
        Report.Outline members status code issues ∧ outcome.ending = .exit code ∧
        (status = "fail" ↔ code = 1) ∧ (code = 1 ↔ issues ≠ []) ∧
        (issues ≠ [] ↔ ∃ v, BundleGraph.validate modules s.expectedBase = .error (.violation v)) ∧
        (status = "fail" → issues.length = 1) := by
  intro modules outcome
  obtain ⟨report, haudit, -⟩ := exists_audit_tells modules s.expectedBase
  obtain ⟨members, hmembers, houtline⟩ := report.exists_outline
  obtain ⟨houtput, hending⟩ := validate_json hs hd hformat haudit
  have hrun : outcome = validate host files r := run_validate hrequest
  have hshort : modules.length + (modules.flatMap Manifest.usesSplits).length <
      10 ^ host.limits.digits := (Descriptor.length_of_load hd hfile).trans_lt hsize
  -- Values may be nested far deeper than those of a report are.
  have hrestorable : Restorable host.limits (host.limits.depth - 4 + 4) report.toJson :=
    restorable_of_audit haudit hshort (unpaired_of_loaded hs hd)
  rw [Nat.sub_add_cancel host.limits.depth_ge] at hrestorable
  have hread := Document.read_encode_print hrestorable
  rw [← houtput, ← hrun, hmembers] at hread
  refine ⟨report, members, haudit, hmembers, hread, _, _, _, houtline, hrun ▸ hending, ?_⟩
  obtain ⟨hstatus, hcode, hissues, hone⟩ := failing_of_audit haudit
  rw [ne_eq, List.map_eq_nil_iff, List.length_map]
  exact ⟨hstatus, hcode, hissues, hone⟩

/-- A split ID with a quotation mark, a line feed, a character that takes two escapes and the two
halves of a pair in the wrong order. -/
def awkwardSplitId : Text :=
  [.scalar '"', .scalar '\n', .ofNat 0x1F600, .ofNat 0xDC00, .ofNat 0xD800]

def awkwardBundle : Descriptor := ⟨none, [{ name := "base", splitId := some awkwardSplitId }]⟩

def awkwardValue : Value :=
  .ofMembers [("modules", .array [.ofMembers
    [("name", .string "base"), ("splitId", .string awkwardSplitId)]])]

def awkwardBytes : List UInt8 := Utf8.encode (Json.print awkwardValue ++ Text.ofString "\n")

def awkwardTree : FileTree := { entries := [(["b.json"], .file awkwardBytes)] }

def awkwardRequest : ValidateRequest :=
  { descriptor := ⟨.here, ["b.json"]⟩, format := some Format.json.name }

theorem request_awkward : Request.ofArguments ["validate", "b.json", "--format", "json"] =
    .ok (.validate awkwardRequest) := by cbv

theorem load_settings_awkward :
    Settings.load Host.plain.limits awkwardTree awkwardRequest.settings = .ok {} := by
  cbv

theorem lookup_awkward : awkwardTree.lookup awkwardRequest.descriptor =
    .ok (some (.file awkwardBytes)) := by rfl

theorem restorable_awkward : Restorable .standard (987 + 3) awkwardValue := by
  have hentry : Restorable .standard (987 + 1) (.ofMembers
      [("name", .string "base"), ("splitId", .string awkwardSplitId)]) := by
    apply restorable_ofMembers (by simp)
    simp only [List.forall_mem_cons]
    exact ⟨restorable_of_wellFormed (Text.wellFormed_ofString _), .string _ _ (by decide), by simp⟩
  apply restorable_ofMembers (by simp)
  rw [List.forall_mem_singleton]
  exact .array _ _ (List.forall_mem_singleton.2 hentry)

theorem load_descriptor_awkward :
    Descriptor.load Host.plain.limits awkwardTree awkwardRequest.descriptor =
      .ok awkwardBundle := by
  have hopen : awkwardTree.isClosed awkwardRequest.descriptor = false := rfl
  have hread : Document.read Host.plain.limits awkwardBytes = .ok awkwardValue :=
    Document.read_encode_print restorable_awkward
  have hdecode : Descriptor.decode awkwardValue = .ok awkwardBundle := by cbv
  simp only [Descriptor.load, lookup_awkward, hopen, Bool.false_eq_true, if_false, Document.load,
    hread, Descriptor.ofValue, hdecode]
  rfl

theorem length_awkward : awkwardBytes.length < 10 ^ Host.plain.limits.digits := by
  have hle : awkwardBytes.length ≤ Host.plain.limits.digits := by decide +kernel
  exact hle.trans_lt (Nat.lt_pow_self (by decide))

theorem json_report_read_back_awkward :
    let s : Settings := {}
    let modules := awkwardBundle.manifests s.expectedBase
    let outcome := run .plain awkwardTree ["validate", "b.json", "--format", "json"]
    Request.ofArguments ["validate", "b.json", "--format", "json"] =
        .ok (.validate awkwardRequest) ∧
      awkwardRequest.format = some Format.json.name ∧
      Settings.load Host.plain.limits awkwardTree awkwardRequest.settings = .ok s ∧
      Descriptor.load Host.plain.limits awkwardTree awkwardRequest.descriptor = .ok awkwardBundle ∧
      awkwardTree.lookup awkwardRequest.descriptor =
        .ok (some (.file awkwardBytes)) ∧
      awkwardBytes.length < 10 ^ Host.plain.limits.digits ∧
      ∃ report members, audit Rule.defaults s.expectedBase modules = .ok report ∧
        report.toJson = .object members ∧
        Document.read Host.plain.limits (Utf8.encode outcome.output) = .ok (.object members) ∧
        ∃ (status : Text) (code : Nat) (issues : List Value),
          Report.Outline members status code issues ∧ outcome.ending = .exit code ∧
          (status = "fail" ↔ code = 1) ∧ (code = 1 ↔ issues ≠ []) ∧
          (issues ≠ [] ↔ ∃ v, BundleGraph.validate modules s.expectedBase =
            .error (.violation v)) ∧
          (status = "fail" → issues.length = 1) := by
  intro s modules outcome
  exact ⟨request_awkward, rfl, load_settings_awkward, load_descriptor_awkward, lookup_awkward,
    length_awkward, json_report_read_back request_awkward rfl load_settings_awkward
      load_descriptor_awkward lookup_awkward length_awkward⟩

end Command

end BundleGraph
