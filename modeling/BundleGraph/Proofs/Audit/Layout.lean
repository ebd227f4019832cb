import BundleGraph.Audit.Layout
import BundleGraph.Proofs.Console.Output
import BundleGraph.Proofs.Json.Printer
import BundleGraph.Proofs.Text.Word

/-!
# What a report prints

Names of rules, kinds and counters can be printed, and so can numbers. So a report can be printed in
Markdown just when its messages can, and in tables if they can; as a JSON document it always can.
-/
namespace BundleGraph

open Console
open Text (WellFormed)
open Markup (Untagged styled)
open Emoji (Codeless settled_of_not_mem)

variable {c : Terminal}

theorem plain_ofNat (n : Nat) : Plain (Text.ofNat n) := by
  have hne {x y : CodePoint} (hx : x ∈ Text.ofNat n) (hy : ¬y.isDigit) : x ≠ y := by
    rintro rfl
    exact hy (isDigit_of_mem_ofNat hx)
  refine ⟨fun x hx => ⟨hne hx (by decide), hne hx (by decide)⟩,
    settled_of_not_mem fun hx => hne hx (by decide) rfl,
    fun x hx => ⟨?_, hne hx (by decide)⟩, Text.wellFormed_ofString _⟩
  have hdigit := isDigit_of_mem_ofNat hx
  simp only [CodePoint.isDigit, Bool.and_eq_true, decide_eq_true_eq] at hdigit
  simp only [isDropped, Bool.or_eq_true, decide_eq_true_eq]
  omega

theorem plain_ofInt (n : Int) : Plain (Text.ofInt n) := by
  cases n with
  | ofNat n => exact plain_ofNat n
  | negSucc n => exact Plain.append (by decide : Plain [CodePoint.scalar '-']) (plain_ofNat (n + 1))

/-- A name that is printed as it stands and holds nothing that a message ends in. -/
structure PlainName (t : Text) : Prop where
  plain : Plain t
  unmarked : ∀ x ∈ t, ¬x.isMark
  pointless : CodePoint.scalar '.' ∉ t

instance (t : Text) : Decidable (PlainName t) :=
  decidable_of_iff (Plain t ∧ (∀ x ∈ t, ¬x.isMark) ∧ CodePoint.scalar '.' ∉ t)
    ⟨fun ⟨h₁, h₂, h₃⟩ => ⟨h₁, h₂, h₃⟩, fun ⟨h₁, h₂, h₃⟩ => ⟨h₁, h₂, h₃⟩⟩

theorem plainName_kindName (k : Violation.Kind) : PlainName k.name := by
  cases k <;> decide

theorem plainName_ruleName (r : Rule) : PlainName r.name := by
  cases r <;> decide

namespace Report

/-- An issue in which nothing but the message can be marked up or altered. -/
structure RegularIssue (i : Issue) : Prop where
  rule : PlainName i.rule
  kind : PlainName (kindName i.kind)

theorem regularIssue_ofViolation (rule : Rule) (v : Violation) :
    RegularIssue (Issue.ofViolation rule v) :=
  ⟨plainName_ruleName rule, plainName_kindName v.kind⟩

/-- A report in which nothing but the messages can be marked up or altered. -/
structure Regular (r : Report) : Prop where
  counters : ∀ p ∈ r.counters, Plain p.1 ∧ Plain (counterTitle p.1)
  issues : ∀ i ∈ r.issues, RegularIssue i

theorem regular_opening (modules : List Manifest) : (opening modules).Regular := by
  refine ⟨fun p hp => ?_, by simp [opening, count]⟩
  have hnames : (opening modules).counters.map Prod.fst =
      ["modules_checked", "dependencies_checked", "on_demand_modules"] := rfl
  have hall : ∀ name ∈ (opening modules).counters.map Prod.fst,
      Plain name ∧ Plain (counterTitle name) := by
    rw [hnames]
    decide
  exact hall p.1 (List.mem_map_of_mem hp)

theorem Regular.addIssue {r : Report} (h : r.Regular) (rule : Rule) (v : Violation) :
    (r.addIssue (Issue.ofViolation rule v)).Regular := by
  refine ⟨h.counters, fun i hi => ?_⟩
  rcases List.mem_append.1 hi with hi | hi
  · exact h.issues i hi
  · rw [List.mem_singleton.1 hi]
    exact regularIssue_ofViolation rule v

def itemHead (i : Issue) : Text :=
  Text.concat ["- **", i.severity.title, "** ", i.rule, " (", kindName i.kind, "): "]

theorem issueItem_eq (i : Issue) : issueItem i = .marked (itemHead i ++ i.message) := by
  simp [issueItem, itemHead, Text.concat]

theorem kindCell_eq (kind : Text) : Text.concat ["[red]", kind, "[/red]"] = styled "red" kind := by
  have hopen : Text.ofString "[red]" =
    CodePoint.scalar '[' :: (Text.ofString "red" ++ [CodePoint.scalar ']']) := rfl
  have hclose : Text.ofString "[/red]" = CodePoint.scalar '[' :: CodePoint.scalar '/' ::
    (Text.ofString "red" ++ [CodePoint.scalar ']']) := rfl
  simp [Text.concat, styled, hopen, hclose]

variable {r : Report} {i : Issue}

theorem RegularIssue.plain_itemHead (h : RegularIssue i) : Plain (itemHead i) := by
  have htitle : Plain i.severity.title := by
    cases i.severity <;> decide
  have hparts : Plain ("- **" ++ (i.severity.title ++ ("** " ++ (i.rule ++ (" (" ++
      (kindName i.kind ++ "): "))))) : Text) :=
    (by decide : Plain "- **").append <| htitle.append <| (by decide : Plain "** ").append <|
      h.rule.plain.append <| (by decide : Plain " (").append <| h.kind.plain.append (by decide)
  simpa [itemHead, Text.concat] using hparts

theorem RegularIssue.printable_item_iff (h : RegularIssue i) :
    Printable c (itemHead i ++ i.message) ↔ Printable c i.message :=
  printable_append_iff h.plain_itemHead.shows (writes_of_wellFormed h.plain_itemHead.wellFormed)

def markdownHead (r : Report) : List Block :=
  List.flatten
    [[.marked "# Validation Report", .marked (Text.concat ["**Status:** ", r.status.name]),
        .marked (Text.concat ["**Exit Code:** ", Text.ofNat r.exitCode]), .marked []],
      if r.counters.isEmpty then []
      else .marked "## Counters" :: (r.counters.map counterItem ++ [.marked []]),
      if r.issues.isEmpty then [] else [.marked "## Issues"]]

theorem markdownBlocks_eq (r : Report) :
    r.markdownBlocks = r.markdownHead ++ r.issues.map issueItem := by
  cases h : r.issues <;> simp [markdownBlocks, markdownHead, h]

theorem Regular.markdownHead_plain (h : r.Regular) :
    ∀ b ∈ r.markdownHead, ∃ t, b = .marked t ∧ Plain t := by
  have hstatus : Plain (Text.concat ["**Status:** ", r.status.name]) := by
    cases r.status <;> decide
  have hcode : Plain (Text.concat ["**Exit Code:** ", Text.ofNat r.exitCode]) := by
    simpa [Text.concat] using (by decide : Plain "**Exit Code:** ").append (plain_ofNat r.exitCode)
  have hcounters : ∀ p ∈ r.counters, ∃ t, counterItem p = .marked t ∧ Plain t := by
    intro p hp
    refine ⟨_, rfl, ?_⟩
    have hparts : Plain ("- " ++ (p.1 ++ (": " ++ Text.ofInt p.2)) : Text) :=
      (by decide : Plain "- ").append <| (h.counters p hp).1.append <|
        (by decide : Plain ": ").append (plain_ofInt p.2)
    simpa [Text.concat] using hparts
  simp only [markdownHead, List.flatten_cons, List.flatten_nil, List.append_nil,
    List.forall_mem_append, List.forall_mem_cons]
  refine ⟨⟨⟨_, rfl, by decide⟩, ⟨_, rfl, hstatus⟩, ⟨_, rfl, hcode⟩, ⟨_, rfl, by decide⟩, by simp⟩,
    ?_, ?_⟩
  · split
    · simp
    · refine List.forall_mem_cons.2 ⟨⟨_, rfl, by decide⟩,
        List.forall_mem_append.2 ⟨List.forall_mem_map.2 hcounters, ?_⟩⟩
      exact List.forall_mem_singleton.2 ⟨_, rfl, by decide⟩
  · split
    · simp
    · exact List.forall_mem_singleton.2 ⟨_, rfl, by decide⟩

theorem Regular.markdownHead_prints (h : r.Regular) :
    ∀ b ∈ r.markdownHead, b.Prints c := by
  intro b hb
  obtain ⟨t, rfl, ht⟩ := h.markdownHead_plain b hb
  exact ht.printable.prints

/-- The blocks of a report in tables up to the table of its issues. -/
def tableHead (r : Report) : List Block :=
  List.flatten
    [[.marked (Text.concat ["[", colour r.status, "]Validation Status: ", r.status.title, "[/",
          colour r.status, "]"]),
        .marked (Text.concat ["Exit Code: ", Text.ofNat r.exitCode])],
      if r.counters.isEmpty then []
      else [.marked "\n[blue]Counters:[/blue]", .table (counterTable r)],
      [.marked (if r.issues.isEmpty then "\n[green]No issues found![/green]"
        else "\n[blue]Issues Found:[/blue]")]]

theorem tableBlocks_eq (r : Report) : r.tableBlocks =
    r.tableHead ++ if r.issues.isEmpty then [] else [.table (issueTable r)] := by
  cases h : r.issues <;> simp [tableBlocks, tableHead, h]

theorem printable_styled {w t : Text} (hw : Markup.IsStyleWord w) (ht : Untagged t)
    (hcodeless : Codeless t) (hwellFormed : WellFormed t) : Printable c (styled w t) :=
  printable_of_shows (Markup.shows_styled hw ht hcodeless) (writes_of_wellFormed hwellFormed)

theorem printable_feed_styled {w t : Text} (hw : Markup.IsStyleWord w) (ht : Untagged t)
    (hcodeless : Codeless t) (hwellFormed : WellFormed t) :
    Printable c ("\n" ++ styled w t) := by
  have hfeed : Plain "\n" := by decide
  rw [printable_append_iff hfeed.shows (writes_of_wellFormed hfeed.wellFormed)]
  exact printable_styled hw ht hcodeless hwellFormed

theorem prints_counterTable (h : r.Regular) : (Block.table (counterTable r)).Prints c := by
  refine prints_table ?_ ?_
  · have hcolumns : ∀ column ∈ (counterTable r).columns, Plain column.heading := by
      simp only [counterTable]
      decide
    exact fun column hcolumn => (hcolumns column hcolumn).printable
  · intro row hrow cell hcell
    obtain ⟨p, hp, rfl⟩ := List.mem_map.1 hrow
    have hp : p ∈ r.counters := List.mem_mergeSort.1 hp
    rcases List.mem_cons.1 hcell with rfl | hcell
    · exact (h.counters p hp).2.printable
    · rw [List.mem_singleton.1 hcell]
      exact (plain_ofInt p.2).printable

theorem prints_issueTable (h : r.Regular) (hmessages : ∀ i ∈ r.issues, Printable c i.message) :
    (Block.table (issueTable r)).Prints c := by
  refine prints_table ?_ ?_
  · have hcolumns : ∀ column ∈ (issueTable r).columns, Plain column.heading := by
      simp only [issueTable]
      decide
    exact fun column hcolumn => (hcolumns column hcolumn).printable
  · intro row hrow cell hcell
    obtain ⟨i, hi, rfl⟩ := List.mem_map.1 hrow
    have hregular := h.issues i hi
    simp only [List.mem_cons, List.not_mem_nil, or_false] at hcell
    rcases hcell with rfl | rfl | rfl
    · exact hregular.rule.plain.printable
    · have hkind := hregular.kind.plain
      rw [kindCell_eq]
      exact printable_styled Markup.isStyleWord_red hkind.untagged hkind.settled.codeless
        hkind.wellFormed
    · exact hmessages i hi

theorem Regular.tableHead_prints (h : r.Regular) : ∀ b ∈ r.tableHead, b.Prints c := by
  have hstatus : Printable c (Text.concat ["[", colour r.status, "]Validation Status: ",
      r.status.title, "[/", colour r.status, "]"]) := by
    cases r.status with
    | pass =>
      exact printable_styled (t := "Validation Status: PASS") Markup.isStyleWord_green (by decide)
        (by decide) (by decide)
    | fail =>
      exact printable_styled (t := "Validation Status: FAIL") Markup.isStyleWord_red (by decide)
        (by decide) (by decide)
  have hcode : Plain (Text.concat ["Exit Code: ", Text.ofNat r.exitCode]) := by
    simpa [Text.concat] using (by decide : Plain "Exit Code: ").append (plain_ofNat r.exitCode)
  simp only [tableHead, List.flatten_cons, List.flatten_nil, List.append_nil,
    List.forall_mem_append, List.forall_mem_singleton, List.forall_mem_cons]
  refine ⟨⟨hstatus.prints, hcode.printable.prints⟩, ?_, ?_⟩
  · split
    · simp
    · refine List.forall_mem_cons.2 ⟨Printable.prints ?_,
        List.forall_mem_singleton.2 (prints_counterTable h)⟩
      exact printable_feed_styled (t := "Counters:") Markup.isStyleWord_blue (by decide)
        (by decide) (by decide)
  · apply Printable.prints
    split
    · exact printable_feed_styled (t := "No issues found!") Markup.isStyleWord_green (by decide)
        (by decide) (by decide)
    · exact printable_feed_styled (t := "Issues Found:") Markup.isStyleWord_blue (by decide)
        (by decide) (by decide)

theorem render_json : (Block.plain (Json.print r.toJson ++ ("\n" : Text))).render c =
    .ok (Json.print r.toJson ++ ("\n" : Text)) := by
  refine emitted_eq_ok_iff.2 ⟨writes_of_wellFormed ?_, rfl⟩
  exact Text.wellFormed_append.2 ⟨Json.wellFormed_print _, Text.wellFormed_ofString "\n"⟩

theorem json_prints : ∀ b ∈ r.jsonBlocks, b.Prints c :=
  List.forall_mem_singleton.2 ⟨_, render_json⟩

end Report

end BundleGraph
