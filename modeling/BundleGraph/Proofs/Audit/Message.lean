import BundleGraph.Proofs.Audit.Layout
import BundleGraph.Proofs.Console.Literal

/-!
# Messages in reports

A JSON report holds the message of each of its issues. An item in Markdown holds it in full just
when no part of it is read as markup or altered on the way to the console, and the console is wide
enough for the lines of the item; a table of one issue does if the message is one line for which its
column has room.
-/
namespace BundleGraph

open Console
open Text (WellFormed marks)

variable {c : Terminal}

theorem Violation.getLast?_message (v : Violation) :
    v.message.getLast? = some (CodePoint.scalar '.') ∨
      v.message.getLast? = some (CodePoint.scalar ']') := by
  have hconcat (parts : List Text) {t : Text} {c : CodePoint} (h : t.getLast? = some c) :
      (Text.concat (parts ++ [t])).getLast? = some c := by
    unfold Text.concat
    rw [List.flatten_append, List.flatten_singleton, List.getLast?_append, h]
    rfl
  cases v with
  | missingBase => exact .inl (hconcat [_, _] rfl)
  | onDemandBase => exact .inl (hconcat [_, _] rfl)
  | baseSplitId => exact .inl (hconcat [_, _] rfl)
  | foreignSplitId => exact .inl (hconcat [_, _, _, _] rfl)
  | duplicateModule => exact .inl (hconcat [_, _] rfl)
  | explicitBase => exact .inl (hconcat [_, _, _, _] rfl)
  | selfDependency => exact .inl (hconcat [_, _] rfl)
  | repeatedDependency => exact .inl (hconcat [_, _, _, _] rfl)
  | unknownModule => exact .inl (hconcat [_, _] rfl)
  | cycle => exact .inr (hconcat [_, _] rfl)
  | onDemandDependency => exact .inl (hconcat [_, _, _, _] rfl)

/-- A message ends in a full stop or in a bracket, neither of which is part of a name in a report.
-/
theorem Violation.exists_getLast?_message (v : Violation) :
    ∃ x, v.message.getLast? = some x ∧ ¬x.isBlank ∧ x ∉ Table.ornaments ∧
      ∀ t, PlainName t → x ∉ t := by
  rcases v.getLast?_message with h | h
  · exact ⟨_, h, by decide, by decide, fun t ht => ht.pointless⟩
  · exact ⟨_, h, by decide, by decide, fun t ht hx => ht.unmarked _ hx (by decide)⟩

theorem Violation.message_ne_nil (v : Violation) : v.message ≠ [] := by
  obtain ⟨x, hlast, -⟩ := v.exists_getLast?_message
  intro hnil
  simp [hnil] at hlast

/-- A text that is printed as it stands where it is read as markup, but for the breaks of lines. -/
structure Verbatim (c : Terminal) (t : Text) : Prop where
  literal : Markup.Literal c t
  unaltered : Unaltered t
  writes : Writes c t

/-- A text whose lines stay as they are on a console. -/
def KeepsLines (width : Nat) (t : Text) : Prop := ∀ l ∈ t.lines, arrange width l = [l]

theorem keepsLines_of_width {width : Nat} {t : Text}
    (h : ∀ l ∈ t.lines, l.width ≤ width ∧ l.length ≤ width) : KeepsLines width t :=
  fun l hl => arrange_eq_singleton (h l hl).1 (h l hl).2

/-- A path of names without brackets and equals signs is not shown if its first name starts like a
tag, as it does with any lower-case letter. -/
theorem read_cycle_message {x : CodePoint} {name : Name} {path : List Name} {u : Text}
    (hstart : Markup.startsTag x) (hx : x ≠ CodePoint.scalar '/')
    (hnames : ∀ m ∈ (x :: name) :: path, ∀ d ∈ m, d ≠ CodePoint.scalar '[' ∧
      d ≠ CodePoint.scalar ']' ∧ d ≠ CodePoint.scalar '=')
    (h : Markup.read c (Violation.cycle ((x :: name) :: path)).message = .ok u) :
    u = Text.ofString "Found cyclic dependency between modules: " := by
  obtain ⟨rest, hrest⟩ : ∃ rest, Text.joinWith ", " ((x :: name) :: path) = x :: rest := by
    cases path with
    | nil => exact ⟨name, by simp [Text.joinWith]⟩
    | cons next path => exact ⟨_, by rw [Text.joinWith, List.intercalate_cons_cons]; rfl⟩
  have hpath : ∀ d ∈ x :: rest, d ≠ CodePoint.scalar '[' ∧ d ≠ CodePoint.scalar ']' ∧
      d ≠ CodePoint.scalar '=' := by
    have hsep : ∀ d ∈ (", " : Text), d ≠ CodePoint.scalar '[' ∧ d ≠ CodePoint.scalar ']' ∧
        d ≠ CodePoint.scalar '=' := by decide
    intro d hd
    rw [← hrest] at hd
    rcases Text.mem_joinWith hd with hd | ⟨m, hm, hd⟩
    · exact hsep d hd
    · exact hnames m hm d hd
  have hmessage : (Violation.cycle ((x :: name) :: path)).message =
      Text.ofString "Found cyclic dependency between modules: " ++
        CodePoint.scalar '[' :: (x :: rest ++ [CodePoint.scalar ']']) := by
    have hopen : Text.ofString "Found cyclic dependency between modules: [" =
      Text.ofString "Found cyclic dependency between modules: " ++ [CodePoint.scalar '['] := rfl
    have hclose : Text.ofString "]" = [CodePoint.scalar ']'] := rfl
    simp [Violation.message, hrest, Text.concat, hopen, hclose]
  rw [hmessage] at h
  exact Markup.eq_of_read_opening (by decide) (by decide) hstart hx hpath h

namespace Report

variable {r : Report} {i : Issue}

def toldItem (i : Issue) : Text := itemHead i ++ (i.message ++ [CodePoint.scalar '\n'])

theorem RegularIssue.read_item (h : RegularIssue i) :
    Markup.read c (itemHead i ++ i.message) = (Markup.read c i.message).map (itemHead i ++ ·) :=
  h.plain_itemHead.shows.read_append i.message

/-- An item tells its issue in full just when the message is verbatim and the console is wide
enough. -/
theorem RegularIssue.render_issueItem_eq_iff (h : RegularIssue i) :
    (issueItem i).render c = .ok (toldItem i) ↔
      Verbatim c i.message ∧ KeepsLines c.width (itemHead i ++ i.message) := by
  have hhead := h.plain_itemHead
  have hlines : toldItem i = itemHead i ++ i.message ++ [CodePoint.scalar '\n'] := by
    simp [toldItem]
  rw [issueItem_eq, render_marked_eq_ok_iff, hlines]
  constructor
  · intro hprint
    obtain ⟨v, hv, hwrites, hshown⟩ := hprint
    have hread := Markup.read_of_render hv
    rw [h.read_item] at hread
    cases hmessage : Markup.read c i.message with
    | error f => simp [hmessage, Except.map] at hread
    | ok u =>
      simp only [hmessage, Except.map, Except.ok.injEq] at hread
      subst hread
      -- All marks of the message have come out on the console, so markup has left it as it stands.
      have hmarks : marks i.message ≤ marks u := by
        have hle : (unlines (layOut c.width (itemHead i ++ u))).countP CodePoint.isMark ≤
            marks (itemHead i ++ u) := by
          have hone : [CodePoint.scalar '\n'].countP CodePoint.isMark = 0 := by decide
          rw [countP_unlines, hone, Nat.mul_zero, Nat.zero_add]
          exact countP_layOut_le (by decide) c.width _
        have hall : marks (itemHead i ++ i.message ++ [CodePoint.scalar '\n']) ≤
            marks (itemHead i ++ u) := hshown ▸ hle
        simp only [Text.marks_append] at hall
        omega
      obtain ⟨hliteral, rfl⟩ := Markup.literal_of_marks hmessage hmarks
      obtain ⟨hunaltered, hkeeps⟩ := unlines_layOut_eq_iff.1 hshown
      rw [hshown] at hwrites
      exact ⟨⟨hliteral, (unaltered_append.1 hunaltered).2,
        (writes_append.1 (writes_append.1 hwrites).1).2⟩, hkeeps⟩
  · intro hverbatim
    obtain ⟨⟨hliteral, hunaltered, hwrites⟩, hkeeps⟩ := hverbatim
    have hlegible := (hhead.shows.legible_append_iff i.message).2 hliteral.legible
    have hshown := unlines_layOut_eq_iff.2
      ⟨unaltered_append.2 ⟨hhead.unaltered, hunaltered⟩, hkeeps⟩
    refine ⟨itemHead i ++ i.message, ?_, ?_, hshown⟩
    · rw [Markup.render_of_legible hlegible, h.read_item, hliteral.read_eq]
      rfl
    · exact writes_layOut (writes_append.2 ⟨writes_of_wellFormed hhead.wellFormed, hwrites⟩)

/-- A bracket in an item comes from its message. -/
theorem RegularIssue.bracket_not_mem_item (h : RegularIssue i) {u : Text}
    (hmessage : ∀ v, Markup.read c i.message = .ok v → CodePoint.scalar '[' ∉ v)
    (hu : (issueItem i).render c = .ok u) : CodePoint.scalar '[' ∉ u := by
  have hhead := h.plain_itemHead.untagged
  rw [issueItem_eq] at hu
  refine not_mem_of_render_marked (by decide) (by decide) ?_ hu
  intro v hv
  rw [h.read_item] at hv
  cases hread : Markup.read c i.message with
  | error f => simp [hread, Except.map] at hv
  | ok w =>
    simp only [hread, Except.map, Except.ok.injEq] at hv
    rw [← hv, List.mem_append, not_or]
    exact ⟨fun hmem => (hhead _ hmem).1 rfl, hmessage w hread⟩

/-- The width of the column of the message in a table with one issue. -/
def messageWidth (width : Nat) (i : Issue) : Nat :=
  Table.lastWidth width ["Rule", "Kind", "Message"] [i.rule, kindName i.kind] i.message

/-- The lines of a table with one issue that is told in full. -/
def toldLines (width : Nat) (i : Issue) : List Text :=
  Table.inOneLine width ["Rule", "Kind", "Message"] [i.rule, kindName i.kind] i.message

/-- A message that is one line for which its column has room, with a space on both sides. -/
def KeepsToLine (width : Nat) (i : Issue) : Prop :=
  CodePoint.scalar '\n' ∉ i.message ∧ 2 < messageWidth width i ∧
    i.message.width ≤ messageWidth width i - 2

theorem plainName_headings : ∀ t ∈ (["Rule", "Kind", "Message"] : List Text), PlainName t := by
  decide

theorem RegularIssue.plainName_of_mem (h : RegularIssue i) {t : Text}
    (ht : t ∈ [Text.ofString "Rule", "Kind", "Message", i.rule, kindName i.kind]) :
    PlainName t := by
  let headings : List Text := ["Rule", "Kind", "Message"]
  rcases List.mem_append.1 (show t ∈ headings ++ [i.rule, kindName i.kind] from ht) with ht | ht
  · exact plainName_headings t ht
  · rcases List.mem_pair.1 ht with rfl | rfl
    · exact h.rule
    · exact h.kind

theorem RegularIssue.lines_issueTable (h : RegularIssue i) (hissues : r.issues = [i]) :
    (issueTable r).lines c = (Markup.render c i.message).map fun u =>
      Table.framed c.width [.left, .left, .left] ["Rule", "Kind", "Message"]
        [[i.rule, kindName i.kind, u]] := by
  have hheading : (issueTable r).columns.mapM (fun column => Markup.render c column.heading) =
      .ok ["Rule", "Kind", "Message"] := by
    refine mapM_eq_ok_iff.2 (.cons ?_ (.cons ?_ (.cons ?_ .nil)))
    all_goals exact (plainName_headings _ (by simp)).plain.shows.render_eq
  have hrule := h.rule.plain.shows.render_eq (c := c)
  have hkind := (Markup.shows_styled (c := c) Markup.isStyleWord_red h.kind.plain.untagged
    h.kind.plain.settled.codeless).render_eq
  have hrows : (issueTable r).rows =
      [[i.rule, Markup.styled "red" (kindName i.kind), i.message]] := by
    unfold issueTable
    rw [hissues, List.map_singleton, kindCell_eq]
  rw [Table.lines_eq hheading, hrows]
  cases hmessage : Markup.render c i.message <;>
    simp [hrule, hkind, hmessage, bind, Except.bind, Except.map, pure, Except.pure, issueTable]

/-- All marks of the message are in the table that tells it, and no others. -/
theorem RegularIssue.marks_le_of_told (h : RegularIssue i) {u : Text}
    (htold : Table.framed c.width [.left, .left, .left] ["Rule", "Kind", "Message"]
      [[i.rule, kindName i.kind, u]] = toldLines c.width i) : marks i.message ≤ marks u := by
  obtain ⟨l, hl, hm⟩ := Table.exists_mem_inOneLine c.width "Rule" "Kind" "Message" i.rule
    (kindName i.kind) i.message
  have hzero : ∀ t ∈ [Text.ofString "Rule", "Kind", "Message", i.rule, kindName i.kind],
      t.countP CodePoint.isMark = 0 :=
    fun t ht => Text.marks_eq_zero (h.plainName_of_mem ht).unmarked
  simp only [List.mem_cons, List.not_mem_nil, or_false, forall_eq_or_imp, forall_eq] at hzero
  have hle := Table.countP_framed_le (p := CodePoint.isMark) (by decide) c.width
    [.left, .left, .left] ["Rule", "Kind", "Message"] [[i.rule, kindName i.kind, u]]
  simp only [List.map_cons, List.map_nil, List.sum_cons, List.sum_nil, hzero, Nat.add_zero,
    Nat.zero_add, htold] at hle
  calc marks i.message ≤ marks l := hm.sublist.countP_le
    _ ≤ marks (toldLines c.width i).flatten := (List.sublist_flatten_of_mem hl).countP_le
    _ ≤ marks u := hle

theorem RegularIssue.lines_issueTable_eq_iff {v : Violation} (h : RegularIssue i)
    (hissues : r.issues = [i]) (hmessage : i.message = v.message) :
    (issueTable r).lines c = .ok (toldLines c.width i) ↔
      Markup.Literal c i.message ∧ Unaltered i.message ∧ KeepsToLine c.width i := by
  obtain ⟨x, hlast, hblank, hornament, hname⟩ := v.exists_getLast?_message
  rw [← hmessage] at hlast
  have hframed := Table.framed_eq_inOneLine_iff c.width hlast hblank hornament
    fun t ht => hname t (h.plainName_of_mem ht)
  rw [h.lines_issueTable hissues]
  constructor
  · intro htold
    cases hrender : Markup.render c i.message with
    | error f => simp [hrender, Except.map] at htold
    | ok u =>
      simp only [hrender, Except.map, Except.ok.injEq] at htold
      obtain ⟨hliteral, rfl⟩ := Markup.literal_of_marks (Markup.read_of_render hrender)
        (h.marks_le_of_told htold)
      obtain ⟨hwide, hunaltered, hfeed, hroom⟩ := hframed.1 htold
      exact ⟨hliteral, hunaltered, hfeed, hwide, hroom⟩
  · intro hall
    obtain ⟨hliteral, hunaltered, hfeed, hwide, hroom⟩ := hall
    rw [Markup.render_of_legible hliteral.legible, hliteral.read_eq]
    exact congrArg _ (hframed.2 ⟨hwide, hunaltered, hfeed, hroom⟩)

theorem infix_toldItem (i : Issue) : i.message <:+: toldItem i :=
  List.infix_append_of_infix_right List.infix_append_left

theorem infix_toldLines (width : Nat) (i : Issue) : i.message <:+: unlines (toldLines width i) := by
  obtain ⟨l, hl, hm⟩ := Table.exists_mem_inOneLine width "Rule" "Kind" "Message" i.rule
    (kindName i.kind) i.message
  exact (List.infix_append_of_infix_left hm).trans
    (List.infix_of_mem_flatten (List.mem_map_of_mem hl))

/-- A table tells its only issue in full just when the message is verbatim and keeps to a line. -/
theorem RegularIssue.render_issueTable_iff {v : Violation} (h : RegularIssue i)
    (hissues : r.issues = [i]) (hmessage : i.message = v.message) :
    (issueTable r).lines c = .ok (toldLines c.width i) ∧
        (Block.table (issueTable r)).render c = .ok (unlines (toldLines c.width i)) ↔
      Verbatim c i.message ∧ KeepsToLine c.width i := by
  have hlines := h.lines_issueTable_eq_iff (c := c) hissues hmessage
  constructor
  · intro htold
    obtain ⟨hliteral, hunaltered, hkeeps⟩ := hlines.1 htold.1
    obtain ⟨ls, -, hwrites, heq⟩ := render_table_eq_ok_iff.1 htold.2
    rw [heq] at hwrites
    exact ⟨⟨hliteral, hunaltered, fun x hx => hwrites x ((infix_toldLines _ i).subset hx)⟩, hkeeps⟩
  · intro hverbatim
    obtain ⟨⟨hliteral, hunaltered, hwrites⟩, hkeeps⟩ := hverbatim
    have htold := hlines.2 ⟨hliteral, hunaltered, hkeeps⟩
    refine ⟨htold, render_table_eq_ok_iff.2 ⟨_, htold, ?_, rfl⟩⟩
    rw [h.lines_issueTable hissues, Markup.render_of_legible hliteral.legible,
      hliteral.read_eq] at htold
    simp only [Except.map, Except.ok.injEq] at htold
    rw [← htold]
    have hnames : ∀ t ∈ [Text.ofString "Rule", "Kind", "Message", i.rule, kindName i.kind],
        Writes c t := fun t ht => writes_of_wellFormed (h.plainName_of_mem ht).plain.wellFormed
    apply writes_framed
    simp only [List.mem_cons, List.not_mem_nil, or_false, forall_eq_or_imp, forall_eq] at hnames ⊢
    exact ⟨⟨hnames.1, hnames.2.1, hnames.2.2.1⟩, hnames.2.2.2.1, hnames.2.2.2.2, hwrites⟩

theorem infix_print_toJson (hi : i ∈ r.issues) :
    Json.printString i.message <:+: Json.print r.toJson := by
  have hmember : Json.Child (.string i.message) i.toJson := by
    refine .member (k := "message") ?_
    simp
  have hitem : Json.Child i.toJson (.array (r.issues.map Issue.toJson)) :=
    .item (List.mem_map_of_mem hi)
  have hissues : Json.Child (.array (r.issues.map Issue.toJson)) r.toJson := by
    refine .member (k := "issues") ?_
    simp
  exact Json.infix_print_of_string (.tail (.tail (.single hmember) hitem) hissues)

end Report

end BundleGraph
