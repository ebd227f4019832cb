import BundleGraph.Audit.Report
import BundleGraph.Console.Output
import BundleGraph.Json.Printer
import BundleGraph.Settings

/-!
# Layout of reports

The three forms in which a report is printed. The names and messages in it are not escaped, so a
bracketed part of them may be read as markup in a table and in Markdown.
-/
namespace BundleGraph.Report

open Console (Block)

def jsonBlocks (r : Report) : List Block := [.plain (Json.print r.toJson ++ ("\n" : Text))]

def counterItem (p : Text × Int) : Block :=
  .marked (Text.concat ["- ", p.1, ": ", Text.ofInt p.2])

/-- The name of a kind, or the word for none. -/
def kindName (kind : Option Text) : Text := kind.getD "None"

def issueItem (i : Issue) : Block :=
  .marked (Text.concat ["- **", i.severity.title, "** ", i.rule, " (", kindName i.kind, "): ",
    i.message])

def markdownBlocks (r : Report) : List Block :=
  List.flatten
    [[.marked "# Validation Report", .marked (Text.concat ["**Status:** ", r.status.name]),
        .marked (Text.concat ["**Exit Code:** ", Text.ofNat r.exitCode]), .marked []],
      if r.counters.isEmpty then []
      else .marked "## Counters" :: (r.counters.map counterItem ++ [.marked []]),
      if r.issues.isEmpty then [] else .marked "## Issues" :: r.issues.map issueItem]

def counterTitle (name : Text) : Text := (Text.replaceWith '_' " " name).titleCase

def counterTable (r : Report) : Console.Table where
  columns := [⟨"Metric", .left⟩, ⟨"Count", .right⟩]
  rows := (r.counters.mergeSort fun p q => Text.le p.1 q.1).map fun p =>
    [counterTitle p.1, Text.ofInt p.2]

def issueTable (r : Report) : Console.Table where
  columns := [⟨"Rule", .left⟩, ⟨"Kind", .left⟩, ⟨"Message", .left⟩]
  rows := r.issues.map fun i =>
    [i.rule, Text.concat ["[red]", kindName i.kind, "[/red]"], i.message]

def colour : Status → Text
  | .pass => "green"
  | .fail => "red"

def tableBlocks (r : Report) : List Block :=
  List.flatten
    [[.marked (Text.concat ["[", colour r.status, "]Validation Status: ", r.status.title, "[/",
          colour r.status, "]"]),
        .marked (Text.concat ["Exit Code: ", Text.ofNat r.exitCode])],
      if r.counters.isEmpty then []
      else [.marked "\n[blue]Counters:[/blue]", .table (counterTable r)],
      if r.issues.isEmpty then [.marked "\n[green]No issues found![/green]"]
      else [.marked "\n[blue]Issues Found:[/blue]", .table (issueTable r)]]

def blocks (r : Report) : Format → List Block
  | .table => r.tableBlocks
  | .json => r.jsonBlocks
  | .markdown => r.markdownBlocks

end BundleGraph.Report
