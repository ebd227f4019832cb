import BundleGraph.Proofs.Audit.Message
import BundleGraph.Proofs.Command.Validation
import Mathlib

/-!
# What a validation tells

A violation is told in full by a JSON report. One in Markdown tells it in full just when the
announcement can be printed, the message is verbatim and the console is wide enough for its lines,
and one in tables if the message is one line for which its column has room.
-/
namespace BundleGraph

open Console

variable {host : Host} {files : FileTree} {r : ValidateRequest} {s : Settings} {d : Descriptor}
variable {v : Violation} {c : Terminal} {name output : Text} {report : Report} {i : Issue}

namespace Command

/-- A report in Markdown tells its issue in full: behind all that comes before the issues stands the
item with the message as it is. -/
def ToldInMarkdown (c : Terminal) (name : Text) (report : Report) (i : Issue) (output : Text) :
    Prop :=
  output = (print c (headBlocks name report.markdownHead)).1 ++ Report.toldItem i

/-- A report in tables tells its issue in full: behind all that comes before the issues stands the
table whose only row has the message as it is in one line. -/
def ToldInTable (c : Terminal) (name : Text) (report : Report) (i : Issue) (output : Text) :
    Prop :=
  (Report.issueTable report).lines c = .ok (Report.toldLines c.width i) ∧
    output = (print c (headBlocks name report.tableHead)).1 ++
      unlines (Report.toldLines c.width i)

def Announces (c : Terminal) (name : Text) : Prop := (Block.marked (announcementLine name)).Prints c

theorem announces_of_printable (h : Printable c name) : Announces c name :=
  (printable_announcementLine_iff.2 h).prints

theorem ToldInMarkdown.isInfix (h : ToldInMarkdown c name report i output) :
    i.message <:+: output := by
  rw [h]
  exact List.infix_append_of_infix_right (Report.infix_toldItem i)

theorem ToldInTable.isInfix (h : ToldInTable c name report i output) : i.message <:+: output := by
  rw [h.2]
  exact List.infix_append_of_infix_right (Report.infix_toldLines c.width i)

section OneIssue

-- A violation ends the run of the rules, so a report has one issue if it has any.

variable (hissues : report.issues = [i]) (hregular : report.Regular)

include hissues

theorem infix_output_json :
    Json.printString i.message <:+: (print c (reportBlocks name report .json)).1 := by
  have hprint : (print c (reportBlocks name report .json)).1 =
      Json.print report.toJson ++ ("\n" : Text) := by
    unfold reportBlocks Report.jsonBlocks
    simp [print, Report.render_json]
  rw [hprint]
  apply List.infix_append_of_infix_left
  apply Report.infix_print_toJson
  simp [hissues]

theorem markdown_reportBlocks : reportBlocks name report .markdown =
    headBlocks name report.markdownHead ++ [Report.issueItem i] := by
  unfold reportBlocks headBlocks
  rw [Report.markdownBlocks_eq, hissues]
  rfl

theorem table_reportBlocks : reportBlocks name report .table =
    headBlocks name report.tableHead ++ [.table (Report.issueTable report)] := by
  unfold reportBlocks headBlocks
  rw [Report.tableBlocks_eq, hissues]
  rfl

include hregular

theorem toldInMarkdown_iff (c : Terminal) (name : Text) :
    ToldInMarkdown c name report i (print c (reportBlocks name report .markdown)).1 ↔
      Announces c name ∧ Verbatim c i.message ∧
        KeepsLines c.width (Report.itemHead i ++ i.message) := by
  have hissue := hregular.issues i (by simp [hissues])
  have hne : Report.toldItem i ≠ [] := by simp [Report.toldItem]
  unfold ToldInMarkdown Announces
  rw [markdown_reportBlocks hissues, print_concat_eq_iff hne,
    print_headBlocks_iff hregular.markdownHead_prints, hissue.render_issueItem_eq_iff]

theorem toldInTable_iff (c : Terminal) (name : Text) (hmessage : i.message = v.message) :
    ToldInTable c name report i (print c (reportBlocks name report .table)).1 ↔
      Announces c name ∧ Verbatim c i.message ∧ Report.KeepsToLine c.width i := by
  have hissue := hregular.issues i (by simp [hissues])
  have hne : unlines (Report.toldLines c.width i) ≠ [] := by
    intro hnil
    have hmem := (Report.infix_toldLines c.width i).subset
    rw [hnil, List.subset_nil, hmessage] at hmem
    exact v.message_ne_nil hmem
  unfold ToldInTable Announces
  rw [table_reportBlocks hissues, print_concat_eq_iff hne,
    print_headBlocks_iff hregular.tableHead_prints, and_left_comm,
    hissue.render_issueTable_iff hissues hmessage]

end OneIssue

/-- What the validation tells of a violation in each format. -/
theorem message_told_iff (hs : Settings.load host.limits files r.settings = .ok s)
    (hd : Descriptor.load host.limits files r.descriptor = .ok d)
    (hv : BundleGraph.validate (d.manifests s.expectedBase) s.expectedBase =
      .error (.violation v)) :
    let c := host.terminal
    let name := announcedName d r.descriptor
    let output (f : Format) := (validate host files { r with format := some f.name }).output
    (Printable c name → Announces c name) ∧
    ∃ rule, let i := Issue.ofViolation rule v
      let report := (Report.opening (d.manifests s.expectedBase)).addIssue i
      let item := Report.itemHead i ++ v.message
      let inItem := Announces c name ∧ Verbatim c v.message ∧ KeepsLines c.width item
      let inRow := Announces c name ∧ Verbatim c v.message ∧ Report.KeepsToLine c.width i
      audit Rule.defaults s.expectedBase (d.manifests s.expectedBase) = .ok report ∧
        ((∀ l ∈ item.lines, l.width ≤ c.width ∧ l.length ≤ c.width) → KeepsLines c.width item) ∧
        Json.printString v.message <:+: output .json ∧
        (ToldInMarkdown c name report i (output .markdown) ↔ inItem) ∧
        (ToldInTable c name report i (output .table) ↔ inRow) ∧
        (inItem → v.message <:+: output .markdown) ∧ (inRow → v.message <:+: output .table) := by
  intro c name output
  obtain ⟨rule, haudit⟩ := audit_of_violation hv
  have houtput (f : Format) := output_validate hs hd haudit f
  have hregular := (Report.regular_opening (d.manifests s.expectedBase)).addIssue rule v
  have hmarkdown := toldInMarkdown_iff (i := Issue.ofViolation rule v) rfl hregular c name
  have htable := toldInTable_iff (i := Issue.ofViolation rule v) rfl hregular c name rfl
  rw [← houtput] at hmarkdown htable
  refine ⟨announces_of_printable, rule, haudit, keepsLines_of_width, ?_, hmarkdown, htable, ?_, ?_⟩
  · unfold output
    rw [houtput]
    exact infix_output_json (i := Issue.ofViolation rule v) rfl
  · intro h
    exact (hmarkdown.2 h).isInfix
  · intro h
    exact (htable.2 h).isInfix

def cycleTree : FileTree :=
  .soleFile "b.json" ("\x7b\"bundle\": \"app\", \"modules\": " ++
    "[\x7b\"name\": \"base\", \"usesSplits\": [\"a\"]\x7d, \x7b\"name\": \"a\"\x7d]\x7d")

def cycleBundle : Descriptor :=
  ⟨some "app", [{ name := "base", usesSplits := ["a"] }, { name := "a" }]⟩

def cycleRequest : ValidateRequest := { descriptor := ⟨.here, ["b.json"]⟩ }

def cycleViolation : Violation := .cycle ["base", "a"]

theorem load_settings_cycle :
    Settings.load Host.plain.limits cycleTree cycleRequest.settings = .ok {} := by cbv

set_option maxRecDepth 100000 in
theorem load_descriptor_cycle :
    Descriptor.load Host.plain.limits cycleTree cycleRequest.descriptor = .ok cycleBundle := by cbv

theorem validate_cycle : BundleGraph.validate (cycleBundle.manifests "base") "base" =
    .error (.violation cycleViolation) := by cbv

theorem message_told_iff_cycle :
    let c := Host.plain.terminal
    let name := announcedName cycleBundle cycleRequest.descriptor
    let output (f : Format) :=
      (validate .plain cycleTree { cycleRequest with format := some f.name }).output
    Settings.load Host.plain.limits cycleTree cycleRequest.settings = .ok {} ∧
      Descriptor.load Host.plain.limits cycleTree cycleRequest.descriptor = .ok cycleBundle ∧
      BundleGraph.validate (cycleBundle.manifests "base") "base" =
        .error (.violation cycleViolation) ∧
      (Printable c name → Announces c name) ∧
      ∃ rule, let i := Issue.ofViolation rule cycleViolation
        let report := (Report.opening (cycleBundle.manifests "base")).addIssue i
        let item := Report.itemHead i ++ cycleViolation.message
        let inItem := Announces c name ∧ Verbatim c cycleViolation.message ∧
          KeepsLines c.width item
        let inRow := Announces c name ∧ Verbatim c cycleViolation.message ∧
          Report.KeepsToLine c.width i
        audit Rule.defaults "base" (cycleBundle.manifests "base") = .ok report ∧
          ((∀ l ∈ item.lines, l.width ≤ c.width ∧ l.length ≤ c.width) →
            KeepsLines c.width item) ∧
          Json.printString cycleViolation.message <:+: output .json ∧
          (ToldInMarkdown c name report i (output .markdown) ↔ inItem) ∧
          (ToldInTable c name report i (output .table) ↔ inRow) ∧
          (inItem → cycleViolation.message <:+: output .markdown) ∧
          (inRow → cycleViolation.message <:+: output .table) := by
  intro c name output
  obtain ⟨hannounces, rule, haudit, htold⟩ :=
    message_told_iff load_settings_cycle load_descriptor_cycle validate_cycle
  exact ⟨load_settings_cycle, load_descriptor_cycle, validate_cycle, hannounces, rule, haudit,
    htold⟩

theorem bracket_not_mem_message {rule : Rule} {u : Text}
    (hu : Markup.read c (Issue.ofViolation rule cycleViolation).message = .ok u) :
    CodePoint.scalar '[' ∉ u := by
  have hpath : (Issue.ofViolation rule cycleViolation).message =
      (Violation.cycle [CodePoint.scalar 'b' :: Text.ofString "ase", "a"]).message := rfl
  rw [hpath] at hu
  rw [read_cycle_message (by decide) (by decide) (by decide) hu]
  decide

theorem bracket_not_mem_announcement {u : Text}
    (hu : (Block.marked (announcementLine "app")).render c = .ok u) :
    CodePoint.scalar '[' ∉ u := by
  refine not_mem_of_render_marked (by decide) (by decide) (fun v hv => ?_) hu
  have happ : Plain "app" := by decide
  rw [read_announcementLine, happ.shows.read_eq] at hv
  obtain rfl := Except.ok.inj hv
  decide

theorem bracket_not_mem_markdown {rule : Rule} :
    CodePoint.scalar '[' ∉ (print c (reportBlocks "app" ((Report.opening
      (cycleBundle.manifests "base")).addIssue (Issue.ofViolation rule cycleViolation))
        .markdown)).1 := by
  have hregular := (Report.regular_opening (cycleBundle.manifests "base")).addIssue rule
    cycleViolation
  rw [markdown_reportBlocks (i := Issue.ofViolation rule cycleViolation) rfl]
  apply not_mem_print
  intro b hb u hu
  rcases List.mem_append.1 hb with hb | hb
  · rcases List.mem_cons.1 hb with rfl | hb
    · exact bracket_not_mem_announcement hu
    · obtain ⟨t, rfl, ht⟩ := hregular.markdownHead_plain b hb
      exact ht.bracket_not_mem hu
  · obtain rfl := List.mem_singleton.1 hb
    have hissue := Report.regularIssue_ofViolation rule cycleViolation
    exact hissue.bracket_not_mem_item (fun w hw => bracket_not_mem_message hw) hu

/-- The path of the cycle stands in the report in JSON and not in the one in Markdown. -/
theorem output_run_cycle :
    let output (f : Format) :=
      (run .plain cycleTree ["validate", "b.json", "--format", f.name]).output
    Json.printString cycleViolation.message <:+: output .json ∧
      ¬cycleViolation.message <:+: output .markdown := by
  intro output
  obtain ⟨rule, haudit⟩ := audit_of_violation validate_cycle
  have houtput (f : Format) : output f = (print Host.plain.terminal (reportBlocks "app"
      ((Report.opening (cycleBundle.manifests "base")).addIssue
        (Issue.ofViolation rule cycleViolation)) f)).1 := by
    have hrequest : Request.ofArguments ["validate", "b.json", "--format", f.name] =
        .ok (.validate { cycleRequest with format := some f.name }) := by
      cases f <;> cbv
    exact (congrArg Outcome.output (run_validate hrequest)).trans
      (output_validate load_settings_cycle load_descriptor_cycle haudit f)
  rw [houtput, houtput]
  refine ⟨infix_output_json (i := Issue.ofViolation rule cycleViolation) rfl, fun h => ?_⟩
  -- The bracket that opens the path is nowhere in the output.
  have hmem : CodePoint.scalar '[' ∈ cycleViolation.message := by decide
  exact bracket_not_mem_markdown (h.subset hmem)

end Command

end BundleGraph
