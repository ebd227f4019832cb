import BundleGraph.Command.Run
import BundleGraph.Proofs.Audit.Layout
import BundleGraph.Proofs.Audit.Report
import BundleGraph.Proofs.Console.Fault

/-!
# What a validation prints

The blocks that the validation of a loaded descriptor prints in each format. Those of a JSON report
can always be printed. Of the others only the announcement and the issues can stop the printing.
-/
namespace BundleGraph

open Console

variable {host : Host} {files : FileTree} {r : ValidateRequest} {s : Settings} {d : Descriptor}
variable {f : Format} {c : Terminal}

def exitCodeOf : Except Failure Unit → Nat
  | .ok () => 0
  | .error _ => 1

/-- A report that says what the rules found: the exit code and the messages are theirs. -/
structure Report.Tells (report : Report) (verdict : Except Failure Unit) : Prop where
  regular : report.Regular
  exitCode_eq : report.exitCode = exitCodeOf verdict
  message_iff : ∀ m, (∃ i ∈ report.issues, i.message = m) ↔
    ∃ v, verdict = .error (.violation v) ∧ v.message = m

theorem exists_audit_tells (modules : List Manifest) (expected : Name) :
    ∃ report, audit Rule.defaults expected modules = .ok report ∧
      report.Tells (validate modules expected) := by
  have hopening := Report.regular_opening modules
  rcases validate_cases modules expected with h | ⟨v, h⟩
  · refine ⟨_, audit_of_ok h, hopening, ?_, ?_⟩
    · rw [h]
      rfl
    · simp [h, Report.opening, Report.count]
  · obtain ⟨rule, haudit⟩ := audit_of_violation h
    refine ⟨_, haudit, hopening.addIssue rule v, ?_, ?_⟩
    · rw [h]
      rfl
    · simp [h, Report.addIssue, Report.opening, Report.count, Issue.ofViolation,
        Issue.found, Violation.finding]

namespace Command

theorem chosenFormat_name : chosenFormat { r with format := some f.name } s = .ok f := by
  cases f <;> rfl

theorem run_validate {arguments : List Text}
    (h : Request.ofArguments arguments = .ok (.validate r)) :
    run host files arguments = validate host files r := by
  rw [run, h]
  rfl

theorem output_printing (files : FileTree) (log : Text) (blocks : List Block) (ending : Ending) :
    (printing host files log blocks ending).output = (print host.terminal blocks).1 := by
  unfold printing
  rcases print host.terminal blocks with ⟨output, _ | g⟩ <;> rfl

theorem ending_printing (host : Host) (files : FileTree) (log : Text) (blocks : List Block) (code : Nat) :
    (printing host files log blocks (.exit code)).ending = .exit code ∨
      ∃ g : Fault, g.OfPrinting ∧
        (printing host files log blocks (.exit code)).ending = .fault g := by
  unfold printing
  rcases h : print host.terminal blocks with ⟨output, _ | g⟩
  · exact .inl rfl
  · exact .inr ⟨g, ofPrinting_of_print (congrArg Prod.snd h), rfl⟩

theorem ending_printing_iff {log : Text} {blocks : List Block} {code : Nat} :
    (printing host files log blocks (.exit code)).ending = .exit code ↔
      ∀ b ∈ blocks, b.Prints host.terminal := by
  have hprint : (print host.terminal blocks).2 = none ↔ ∀ b ∈ blocks, b.Prints host.terminal :=
    ⟨forall_of_print, print_of_forall⟩
  rw [← hprint]
  unfold printing
  cases h : print host.terminal blocks with
  | mk output f? => cases f? <;> simp

theorem ending_printing_of_error {log : Text} {b : Block} {blocks : List Block} {ending : Ending}
    {g : Fault} (h : b.render host.terminal = .error g) :
    (printing host files log (b :: blocks) ending).ending = .fault g := by
  simp [printing, print, h]

def announcementLine (name : Text) : Text := "[green]Validating bundle:[/green] " ++ name

theorem announcement_eq (name : Text) :
    Text.concat ["[green]Validating bundle:[/green] ", name] = announcementLine name := by
  simp [Text.concat, announcementLine]

theorem shows_announcementHead :
    Markup.Shows c "[green]Validating bundle:[/green] " "Validating bundle: " :=
  (Markup.shows_styled (t := "Validating bundle:") Markup.isStyleWord_green (by decide)
    (by decide)).append (Markup.shows_of_untagged (p := " ") (by decide) (by decide))

theorem printable_announcementLine_iff {name : Text} :
    Printable c (announcementLine name) ↔ Printable c name :=
  printable_append_iff shows_announcementHead (writes_of_wellFormed (by decide))

theorem read_announcementLine (name : Text) : Markup.read c (announcementLine name) =
    (Markup.read c name).map (Text.ofString "Validating bundle: " ++ ·) :=
  shows_announcementHead.read_append name

def reportBlocks (name : Text) (report : Report) : Format → List Block
  | .json => report.jsonBlocks
  | .markdown => .marked (announcementLine name) :: report.markdownBlocks
  | .table => .marked (announcementLine name) :: report.tableBlocks

theorem validate_eq_printing {report : Report}
    (hs : Settings.load host.limits files r.settings = .ok s)
    (hd : Descriptor.load host.limits files r.descriptor = .ok d)
    (haudit : audit Rule.defaults s.expectedBase (d.manifests s.expectedBase) = .ok report)
    (f : Format) :
    ∃ log, validate host files { r with format := some f.name } =
      printing host files log (reportBlocks (announcedName d r.descriptor) report f)
        (.exit report.exitCode) := by
  have hblocks : announcement d r.descriptor f ++ report.blocks f =
      reportBlocks (announcedName d r.descriptor) report f := by
    cases f with
    | json => rfl
    | markdown => simp [announcement, reportBlocks, announcement_eq, Report.blocks]
    | table => simp [announcement, reportBlocks, announcement_eq, Report.blocks]
  simp only [validate, hs, chosenFormat_name, hd, validateLoaded, haudit, hblocks]
  exact ⟨_, rfl⟩

theorem output_validate {report : Report} (hs : Settings.load host.limits files r.settings = .ok s)
    (hd : Descriptor.load host.limits files r.descriptor = .ok d)
    (haudit : audit Rule.defaults s.expectedBase (d.manifests s.expectedBase) = .ok report)
    (f : Format) :
    (validate host files { r with format := some f.name }).output =
      (print host.terminal (reportBlocks (announcedName d r.descriptor) report f)).1 := by
  obtain ⟨log, h⟩ := validate_eq_printing hs hd haudit f
  rw [h, output_printing]

theorem json_blocks_print {name : Text} {report : Report} :
    ∀ b ∈ reportBlocks name report .json, b.Prints c :=
  Report.json_prints

theorem markdown_blocks_print_iff {name : Text} {report : Report} (h : report.Regular) :
    (∀ b ∈ reportBlocks name report .markdown, b.Prints c) ↔
      (Block.marked (announcementLine name)).Prints c ∧
        ∀ i ∈ report.issues, (Report.issueItem i).Prints c := by
  rw [reportBlocks, List.forall_mem_cons, Report.markdownBlocks_eq, List.forall_mem_append,
    List.forall_mem_map, and_iff_right h.markdownHead_prints]

theorem table_blocks_print_iff {name : Text} {report : Report} (h : report.Regular) :
    (∀ b ∈ reportBlocks name report .table, b.Prints c) ↔
      (Block.marked (announcementLine name)).Prints c ∧
        (report.issues ≠ [] → (Block.table (Report.issueTable report)).Prints c) := by
  rw [reportBlocks, List.forall_mem_cons, Report.tableBlocks_eq, List.forall_mem_append,
    and_iff_right h.tableHead_prints]
  cases report.issues <;> simp

/-- What stands before the issues of a report, up to which only the announcement can stop the
printing. -/
def headBlocks (name : Text) (head : List Block) : List Block :=
  .marked (announcementLine name) :: head

theorem print_headBlocks_iff {name : Text} {head : List Block} (h : ∀ b ∈ head, b.Prints c) :
    (print c (headBlocks name head)).2 = none ↔
      (Block.marked (announcementLine name)).Prints c := by
  constructor
  · intro hprint
    exact forall_of_print hprint _ List.mem_cons_self
  · intro hname
    exact print_of_forall (List.forall_mem_cons.2 ⟨hname, h⟩)

/-- A name that cannot be read as markup ends the run before anything is told. -/
theorem ending_validate_of_error {g : Fault}
    (hs : Settings.load host.limits files r.settings = .ok s)
    (hd : Descriptor.load host.limits files r.descriptor = .ok d) (hf : f ≠ .json)
    (hname : Markup.read host.terminal (announcedName d r.descriptor) = .error g) :
    (validate host files { r with format := some f.name }).ending = .fault g := by
  have hline : (Block.marked (announcementLine (announcedName d r.descriptor))).render
      host.terminal = .error g := by
    rw [Block.render, Markup.render, read_announcementLine, hname]
    rfl
  obtain ⟨report, haudit, -⟩ := exists_audit_tells (d.manifests s.expectedBase) s.expectedBase
  obtain ⟨log, h⟩ := validate_eq_printing hs hd haudit f
  rw [h]
  cases f with
  | json => exact absurd rfl hf
  | markdown => exact ending_printing_of_error hline
  | table => exact ending_printing_of_error hline

end Command

def FileTree.soleFile (name content : Text) : FileTree :=
  { entries := [([name], .file (Utf8.encode content))] }

end BundleGraph
