import BundleGraph.Proofs.Command.Validation
import Mathlib

/-!
# Exit codes

The validation of a bundle that can be loaded ends with the exit code that the rules call for, if
the format is JSON. In the other formats it does so just when the announcement and the issues can be
printed, which they can if the announced name and the messages can be; else a fault of printing
takes the place of the verdict.
-/
namespace BundleGraph

open Console

variable {host : Host} {files : FileTree} {r : ValidateRequest} {s : Settings} {d : Descriptor}
variable {f : Format}

namespace Command

theorem ending_validate_iff {report : Report} {code : Nat}
    (hs : Settings.load host.limits files r.settings = .ok s)
    (hd : Descriptor.load host.limits files r.descriptor = .ok d)
    (haudit : audit Rule.defaults s.expectedBase (d.manifests s.expectedBase) = .ok report)
    (hcode : report.exitCode = code) :
    (validate host files { r with format := some f.name }).ending = .exit code ↔
      ∀ b ∈ reportBlocks (announcedName d r.descriptor) report f, b.Prints host.terminal := by
  obtain ⟨log, h⟩ := validate_eq_printing hs hd haudit f
  rw [h, hcode, ending_printing_iff]

theorem ending_validate_json (hs : Settings.load host.limits files r.settings = .ok s)
    (hd : Descriptor.load host.limits files r.descriptor = .ok d) :
    (validate host files { r with format := some Format.json.name }).ending =
      .exit (exitCodeOf (BundleGraph.validate (d.manifests s.expectedBase) s.expectedBase)) := by
  obtain ⟨report, haudit, hreport⟩ := exists_audit_tells (d.manifests s.expectedBase) s.expectedBase
  exact (ending_validate_iff hs hd haudit hreport.exitCode_eq).2 json_blocks_print

/-- A terminal prints a report in all formats: the announcement, and each issue as an item and in a
table. -/
structure PrintsReport (c : Terminal) (name : Text) (report : Report) : Prop where
  announcement : (Block.marked (announcementLine name)).Prints c
  items : ∀ i ∈ report.issues, (Report.issueItem i).Prints c
  table : report.issues ≠ [] → (Block.table (Report.issueTable report)).Prints c

theorem printsReport_of_printable {c : Terminal} {name : Text} {report : Report}
    (h : report.Regular) (hname : Printable c name)
    (hmessages : ∀ i ∈ report.issues, Printable c i.message) : PrintsReport c name report where
  announcement := (printable_announcementLine_iff.2 hname).prints
  items i hi := by
    rw [Report.issueItem_eq]
    exact ((h.issues i hi).printable_item_iff.2 (hmessages i hi)).prints
  table _ := Report.prints_issueTable h hmessages

/-- The exit code is the same in all formats if and only if nothing that is read as markup stops
the printing. No other exit code ever comes out: what is printed decides between the right one and
a fault. -/
theorem ending_validate_eq_iff (hs : Settings.load host.limits files r.settings = .ok s)
    (hd : Descriptor.load host.limits files r.descriptor = .ok d) :
    let verdict := BundleGraph.validate (d.manifests s.expectedBase) s.expectedBase
    let name := announcedName d r.descriptor
    let ending (f : Format) := (validate host files { r with format := some f.name }).ending
    ∃ report, audit Rule.defaults s.expectedBase (d.manifests s.expectedBase) = .ok report ∧
      report.Tells verdict ∧ ending .json = .exit (exitCodeOf verdict) ∧
      (∀ f, ending f = .exit (exitCodeOf verdict) ∨
        ∃ g : Fault, g.OfPrinting ∧ ending f = .fault g) ∧
      ((∀ f, ending f = .exit (exitCodeOf verdict)) ↔ PrintsReport host.terminal name report) ∧
      (Printable host.terminal name ∧
          (∀ v, verdict = .error (.violation v) → Printable host.terminal v.message) →
        PrintsReport host.terminal name report) ∧
      (PrintsReport host.terminal name report →
        Drawn host.terminal (announcementLine name) ∧
          ∀ i ∈ report.issues, Drawn host.terminal (Report.itemHead i ++ i.message)) := by
  intro verdict name ending
  obtain ⟨report, haudit, hreport⟩ := exists_audit_tells (d.manifests s.expectedBase) s.expectedBase
  have hending (f : Format) := ending_validate_iff (f := f) hs hd haudit hreport.exitCode_eq
  refine ⟨report, haudit, hreport, ending_validate_json hs hd, fun f => ?_, ?_, fun h => ?_,
    fun h => ?_⟩
  · obtain ⟨log, h⟩ := validate_eq_printing hs hd haudit f
    have hcases := ending_printing host files log
      (reportBlocks (announcedName d r.descriptor) report f) report.exitCode
    rwa [← h, hreport.exitCode_eq] at hcases
  · constructor
    · intro h
      have hmarkdown := (markdown_blocks_print_iff hreport.regular).1 ((hending _).1 (h .markdown))
      have htable := (table_blocks_print_iff hreport.regular).1 ((hending _).1 (h .table))
      exact ⟨hmarkdown.1, hmarkdown.2, htable.2⟩
    · intro h f
      apply (hending f).2
      cases f with
      | json => exact json_blocks_print
      | markdown => exact (markdown_blocks_print_iff hreport.regular).2 ⟨h.announcement, h.items⟩
      | table => exact (table_blocks_print_iff hreport.regular).2 ⟨h.announcement, h.table⟩
  · refine printsReport_of_printable hreport.regular h.1 fun i hi => ?_
    obtain ⟨v, hv, hmessage⟩ := (hreport.message_iff i.message).1 ⟨i, hi, rfl⟩
    exact hmessage ▸ h.2 v hv
  · refine ⟨drawn_of_prints h.announcement, fun i hi => drawn_of_prints ?_⟩
    rw [← Report.issueItem_eq]
    exact h.items i hi

/-- A tree with a bundle whose name ends a tag that was never started. -/
def slashTree : FileTree :=
  .soleFile "b.json" "\x7b\"bundle\": \"[/x]\", \"modules\": [\x7b\"name\": \"base\"\x7d]\x7d"

def slashBundle : Descriptor := ⟨some "[/x]", [{ name := "base" }]⟩

def slashRequest : ValidateRequest := { descriptor := ⟨.here, ["b.json"]⟩ }

theorem load_settings_slash (limits : Json.Limits) :
    Settings.load limits slashTree slashRequest.settings = .ok {} := by cbv

set_option maxRecDepth 100000 in
theorem load_descriptor_slash :
    Descriptor.load Host.plain.limits slashTree slashRequest.descriptor = .ok slashBundle := by cbv

theorem exists_read_error_slash (c : Terminal) : ∃ g, Markup.read c "[/x]" = .error g := by
  have htext : Text.ofString "[/x]" = CodePoint.scalar '[' :: Text.ofString "/x]" := rfl
  have htag : Markup.tag? (Text.ofString "/x]") = some (Text.ofString "/x", []) := by decide
  have hclosing : Markup.Piece.ofTag "/x" = .closing "x" := by decide
  obtain ⟨g, hclose⟩ := Markup.exists_close_nil c "x"
  refine ⟨g, ?_⟩
  rw [Markup.read, htext, Markup.pieces_tag htag, if_neg (by decide), hclosing, Markup.shown,
    Markup.shown, Markup.shown, hclose]
  rfl

theorem ending_validate_eq_iff_slash :
    let c := Host.plain.terminal
    let verdict := BundleGraph.validate (slashBundle.manifests "base") "base"
    let name := announcedName slashBundle slashRequest.descriptor
    let ending (f : Format) :=
      (validate .plain slashTree { slashRequest with format := some f.name }).ending
    Settings.load Host.plain.limits slashTree slashRequest.settings = .ok {} ∧
      Descriptor.load Host.plain.limits slashTree slashRequest.descriptor = .ok slashBundle ∧
      ∃ report, audit Rule.defaults "base" (slashBundle.manifests "base") = .ok report ∧
        report.Tells verdict ∧ ending .json = .exit (exitCodeOf verdict) ∧
        (∀ f, ending f = .exit (exitCodeOf verdict) ∨
          ∃ g : Fault, g.OfPrinting ∧ ending f = .fault g) ∧
        ((∀ f, ending f = .exit (exitCodeOf verdict)) ↔ PrintsReport c name report) ∧
        (Printable c name ∧ (∀ v, verdict = .error (.violation v) → Printable c v.message) →
          PrintsReport c name report) ∧
        (PrintsReport c name report → Drawn c (announcementLine name) ∧
          ∀ i ∈ report.issues, Drawn c (Report.itemHead i ++ i.message)) :=
  ⟨load_settings_slash _, load_descriptor_slash,
    @ending_validate_eq_iff .plain slashTree slashRequest {} slashBundle (load_settings_slash _)
      load_descriptor_slash⟩

/-- The rules accept the bundle, and only the report in JSON comes to say so. -/
theorem ending_run_slash :
    let ending (f : Format) :=
      (run .plain slashTree ["validate", "b.json", "--format", f.name]).ending
    BundleGraph.validate (slashBundle.manifests "base") "base" = .ok () ∧
      ending .json = .exit 0 ∧ ∀ f, f ≠ .json → ∃ g, ending f = .fault g := by
  intro ending
  have hverdict : BundleGraph.validate (slashBundle.manifests "base") "base" = .ok () := by cbv
  have hending (f : Format) :
      ending f =
        (validate .plain slashTree { slashRequest with format := some f.name }).ending := by
    have hrequest : Request.ofArguments ["validate", "b.json", "--format", f.name] =
        .ok (.validate { slashRequest with format := some f.name }) := by
      cases f <;> cbv
    exact congrArg Outcome.ending (run_validate hrequest)
  refine ⟨hverdict, ?_, fun f hf => ?_⟩
  · rw [hending, ending_validate_json (load_settings_slash _) load_descriptor_slash]
    exact congrArg (fun verdict => Ending.exit (exitCodeOf verdict)) hverdict
  · obtain ⟨g, hname⟩ := exists_read_error_slash Host.plain.terminal
    exact ⟨g, by rw [hending,
      ending_validate_of_error (load_settings_slash _) load_descriptor_slash hf hname]⟩

end Command

end BundleGraph
