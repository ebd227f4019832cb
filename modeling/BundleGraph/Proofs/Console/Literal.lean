import BundleGraph.Proofs.Console.Markup
import Mathlib.Data.List.TakeWhile

/-!
# Literal texts

A text is shown as it stands just when no bracket in it starts a tag, none stands behind a backslash
and no colon starts the code of an emoji that there is. Markup never adds a mark, which is a colon,
a bracket or a backslash, and whatever it reads as something else costs a mark: so a text of which
all marks are shown is literal.
-/
namespace BundleGraph.Markup

open Console (Style Terminal)
open Text (marks)
open Emoji (Codeless)

variable {c : Terminal} {x : CodePoint} {p t u v run : Text} {ps : List Piece} {n : Nat}
variable {opened : List OpenStyle}

/-- No bracket of the text starts a tag, and none stands behind a backslash. -/
def Tagless (t : Text) : Prop :=
  ∀ before after, t = before ++ CodePoint.scalar '[' :: after →
    tag? after = none ∧ before.getLast? ≠ some (CodePoint.scalar '\\')

theorem tagless_of_not_mem (h : CodePoint.scalar '[' ∉ t) : Tagless t := by
  rintro before after rfl
  simp at h

theorem tagless_bracket_cons :
    Tagless (CodePoint.scalar '[' :: t) ↔ tag? t = none ∧ Tagless t := by
  constructor
  · intro h
    refine ⟨(h [] t rfl).1, ?_⟩
    rintro before after rfl
    have hlater := h (CodePoint.scalar '[' :: before) after rfl
    cases before with
    | nil => exact ⟨hlater.1, by simp⟩
    | cons x before => simpa using hlater
  · rintro ⟨htag, h⟩ before after heq
    cases before with
    | nil =>
      obtain rfl : t = after := by simpa using heq
      exact ⟨htag, by simp⟩
    | cons x before =>
      obtain ⟨rfl, rfl⟩ :
          CodePoint.scalar '[' = x ∧ t = before ++ CodePoint.scalar '[' :: after := by
        simpa using heq
      have hlater := h before after rfl
      cases before with
      | nil => exact ⟨hlater.1, by simp⟩
      | cons x before => simpa using hlater

/-- Text in front counts only by its brackets and by a backslash at its end. -/
theorem tagless_append (hp : CodePoint.scalar '[' ∉ p)
    (hlast : p.getLast? ≠ some (CodePoint.scalar '\\')) : Tagless (p ++ t) ↔ Tagless t := by
  constructor
  · rintro h before after rfl
    have hlater := h (p ++ before) after (by simp)
    cases before with
    | nil => exact ⟨hlater.1, by simp⟩
    | cons x before => simpa using hlater
  · intro h before after heq
    obtain ⟨before', rfl, rfl⟩ | ⟨p', rfl, hp'⟩ := List.append_eq_append_iff.1 heq
    · have hlater := h before' after rfl
      cases before' with
      | nil => exact ⟨hlater.1, by simpa using hlast⟩
      | cons x before => simpa using hlater
    · cases p' with
      | nil =>
        obtain rfl : CodePoint.scalar '[' :: after = t := by simpa using hp'
        exact ⟨(h [] after rfl).1, by simpa using hlast⟩
      | cons x p' =>
        obtain ⟨rfl, -⟩ : CodePoint.scalar '[' = x ∧ after = p' ++ t := by simpa using hp'
        simp at hp

theorem backslashes_append_cons : backslashes n ++ CodePoint.scalar '\\' :: t =
    backslashes (n + 1) ++ t := by
  rw [backslashes, backslashes, List.replicate_succ']
  simp

theorem not_mem_backslashes : CodePoint.scalar '[' ∉ backslashes n := by
  simp [backslashes]

theorem pieces_of_tagless (h : Tagless (backslashes n ++ t)) :
    pieces run n t = [.plain (run ++ (backslashes n ++ t))] := by
  induction t generalizing run n with
  | nil => simp
  | cons x t ih =>
    by_cases hbackslash : x = CodePoint.scalar '\\'
    · subst hbackslash
      rw [backslashes_append_cons] at h ⊢
      rw [pieces_backslash]
      exact ih h
    by_cases hbracket : x = CodePoint.scalar '['
    · subst hbracket
      obtain ⟨htag, hlast⟩ := h (backslashes n) t rfl
      obtain rfl : n = 0 := by
        cases n with
        | zero => rfl
        | succ n => simp [backslashes, List.getLast?_replicate] at hlast
      rw [pieces_bracket htag, ih (n := 0) (tagless_bracket_cons.1 h).2]
      simp [backslashes]
    · have hlater : Tagless t := by
        have hlast : (backslashes n ++ [x]).getLast? ≠ some (CodePoint.scalar '\\') := by
          simpa using hbackslash
        refine (tagless_append ?_ hlast).1 (by simpa using h)
        simpa [not_mem_backslashes] using Ne.symm hbracket
      rw [pieces_cons hbracket hbackslash, ih (n := 0) hlater]
      simp [backslashes]

/-- A text that is shown as it stands where it is read as markup. -/
structure Literal (c : Terminal) (t : Text) : Prop where
  tagless : Tagless t
  draw_eq : c.emoji.draw t = t

theorem read_of_tagless (h : Tagless t) : read c t = .ok (c.emoji.draw t) := by
  rw [read, pieces_of_tagless (n := 0) h]
  simp [shown, Except.map, backslashes]

theorem legible_of_tagless (h : Tagless t) : Legible c t := by
  rw [Legible, pieces_of_tagless (n := 0) h]
  simp

theorem Literal.read_eq (h : Literal c t) : read c t = .ok t := by
  rw [read_of_tagless h.tagless, h.draw_eq]

theorem Literal.legible (h : Literal c t) : Legible c t := legible_of_tagless h.tagless

def Piece.text (c : Terminal) : Piece → Text
  | .plain t => c.emoji.draw t
  | _ => []

theorem text_ofTag (c : Terminal) (inside : Text) : (Piece.ofTag inside).text c = [] := by
  dsimp only [Piece.ofTag]
  split
  · rfl
  · split <;> rfl

theorem exists_shown_of_cons {piece : Piece} (h : shown c opened (piece :: ps) = .ok u) :
    ∃ opened' v, shown c opened' ps = .ok v ∧ u = piece.text c ++ v := by
  cases piece with
  | plain t =>
    cases hps : shown c opened ps with
    | error f => simp [shown, hps, Except.map] at h
    | ok v =>
      simp only [shown, hps, Except.map, Except.ok.injEq] at h
      exact ⟨opened, v, hps, h.symm⟩
  | opening style parameter? =>
    cases hnormal : Style.normalForm c.numberDigits style with
    | error f => simp [shown, hnormal, Except.bind] at h
    | ok normal =>
      simp only [shown, hnormal, Except.bind] at h
      exact ⟨_, u, h, rfl⟩
  | closing style =>
    cases hclose : close c style opened with
    | error f => simp [shown, hclose, Except.bind] at h
    | ok opened' =>
      simp only [shown, hclose, Except.bind] at h
      exact ⟨_, u, h, rfl⟩

theorem eq_of_bracketed? (h : bracketed? t = some (u, v)) : t = u ++ CodePoint.scalar ']' :: v := by
  induction t generalizing u with
  | nil => simp [bracketed?] at h
  | cons x t ih =>
    rw [bracketed?] at h
    split at h
    · rename_i hc
      simp only [Option.some.injEq, Prod.mk.injEq] at h
      obtain ⟨rfl, rfl⟩ := h
      rw [hc, List.nil_append]
    · split at h
      · simp at h
      · obtain ⟨⟨u', v'⟩, hrest, heq⟩ := Option.map_eq_some_iff.1 h
        simp only [Prod.mk.injEq] at heq
        obtain ⟨rfl, rfl⟩ := heq
        rw [List.cons_append, ← ih hrest]

theorem eq_of_tag? (h : tag? t = some (u, v)) : t = u ++ CodePoint.scalar ']' :: v := by
  cases t with
  | nil => simp [tag?] at h
  | cons x t =>
    rw [tag?] at h
    split at h
    · exact eq_of_bracketed? h
    · simp at h

@[simp] theorem marks_backslashes : marks (backslashes n) = n := by
  have hbackslash : (CodePoint.scalar '\\').isMark = true := rfl
  simp [marks, backslashes, List.countP_replicate, hbackslash]

/-- What is shown of a tag and the backslashes in front of it has fewer marks than they have. -/
theorem marks_tag_lt (c : Terminal) (n : Nat) (inside : Text) :
    let piece : Piece :=
      if n % 2 = 1 then .plain (Text.concat ["[", inside, "]"]) else .ofTag inside
    marks ((Piece.plain (backslashes (n / 2))).text c) + marks (piece.text c) <
      n + (marks inside + 2) := by
  intro piece
  have hbackslashes : marks ((Piece.plain (backslashes (n / 2))).text c) ≤ n / 2 := by
    simpa [Piece.text] using c.emoji.marks_draw_le (backslashes (n / 2))
  by_cases hn : n % 2 = 1
  · have htag : marks (Text.concat ["[", inside, "]"]) = marks inside + 2 := by
      have hopen : marks (Text.ofString "[") = 1 := rfl
      have hclose : marks (Text.ofString "]") = 1 := rfl
      simp only [Text.concat, List.flatten_cons, List.flatten_nil, List.append_nil,
        Text.marks_append, hopen, hclose]
      omega
    have hpiece : marks (piece.text c) ≤ marks inside + 2 := by
      rw [← htag, show piece = .plain (Text.concat ["[", inside, "]"]) from if_pos hn]
      exact c.emoji.marks_draw_le _
    omega
  · have hpiece : piece.text c = [] := by
      rw [show piece = .ofTag inside from if_neg hn, text_ofTag]
    rw [hpiece, Text.marks_nil]
    omega

/-- No mark is shown that does not stand in the text, and all of them only if the text has no tags.
-/
theorem marks_shown_le (h : shown c opened (pieces run n t) = .ok u) :
    marks u ≤ marks run + n + marks t ∧
      (marks run + n + marks t ≤ marks u → Tagless (backslashes n ++ t)) := by
  induction run, n, t using pieces.induct generalizing opened u with
  | case1 run n =>
    rw [pieces_nil] at h
    obtain ⟨_, v, hv, rfl⟩ := exists_shown_of_cons h
    obtain rfl := Except.ok.inj hv
    refine ⟨by simpa [Piece.text] using c.emoji.marks_draw_le (run ++ backslashes n), fun _ => ?_⟩
    exact tagless_of_not_mem (by simpa using not_mem_backslashes)
  | case2 run n t ih =>
    rw [pieces_backslash] at h
    obtain ⟨hle, htagless⟩ := ih h
    rw [Text.marks_cons_of_mark CodePoint.isMark_backslash, backslashes_append_cons]
    exact ⟨by omega, fun hall => htagless (by omega)⟩
  | case3 run n t inside after htag _ ih =>
    rw [pieces_tag htag] at h
    obtain ⟨_, v, hv, rfl⟩ := exists_shown_of_cons h
    obtain ⟨_, w, hw, rfl⟩ := exists_shown_of_cons hv
    obtain ⟨_, y, hy, rfl⟩ := exists_shown_of_cons hw
    have hrun : marks ((Piece.plain run).text c) ≤ marks run := c.emoji.marks_draw_le run
    have hshort := marks_tag_lt c n inside
    have hafter := (ih hy).1
    obtain rfl := eq_of_tag? htag
    simp only [Text.marks_append, Text.marks_cons_of_mark, CodePoint.isMark_opening,
      CodePoint.isMark_closing, Text.marks_nil] at hafter ⊢
    exact ⟨by omega, fun hall => absurd hall (by omega)⟩
  | case4 run n t htag _ ih =>
    rw [pieces_bracket htag] at h
    obtain ⟨hle, htagless⟩ := ih h
    simp only [Text.marks_append, Text.marks_cons_of_mark, CodePoint.isMark_opening,
      marks_backslashes, Text.marks_nil] at hle htagless ⊢
    refine ⟨by omega, fun hall => ?_⟩
    obtain rfl : n = 0 := by omega
    exact tagless_bracket_cons.2 ⟨htag, htagless (by omega)⟩
  | case5 run n x t hbackslash hbracket ih =>
    rw [pieces_cons hbracket hbackslash] at h
    obtain ⟨hle, htagless⟩ := ih h
    rw [Text.marks_cons]
    simp only [Text.marks_append, marks_backslashes] at hle htagless
    refine ⟨by omega, fun hall => ?_⟩
    have hlast : (backslashes n ++ [x]).getLast? ≠ some (CodePoint.scalar '\\') := by
      simpa using hbackslash
    have hnot : CodePoint.scalar '[' ∉ backslashes n ++ [x] := by
      simpa [not_mem_backslashes] using Ne.symm hbracket
    simpa [backslashes] using (tagless_append hnot hlast).2 (htagless (by omega))

/-- A text of which all marks are shown is literal. -/
theorem literal_of_marks (h : read c t = .ok u) (hmarks : marks t ≤ marks u) :
    Literal c t ∧ u = t := by
  have htagless : Tagless t := (marks_shown_le h).2 (by simpa using hmarks)
  obtain rfl : c.emoji.draw t = u := Except.ok.inj ((read_of_tagless htagless).symm.trans h)
  rcases c.emoji.marks_draw t with hdraw | hlt
  · exact ⟨⟨htagless, hdraw⟩, hdraw⟩
  · exact absurd hmarks (Nat.not_le.2 hlt)

/-- A text is shown as it stands just when it is literal. -/
theorem read_eq_self_iff : read c t = .ok t ↔ Literal c t :=
  ⟨fun h => (literal_of_marks h le_rfl).1, Literal.read_eq⟩

theorem bracketed?_append (h : ∀ d ∈ u, d ≠ CodePoint.scalar '[' ∧ d ≠ CodePoint.scalar ']') :
    bracketed? (u ++ CodePoint.scalar ']' :: t) = some (u, t) := by
  induction u with
  | nil => simp [bracketed?]
  | cons d u ih =>
    obtain ⟨⟨hopen, hclose⟩, hu⟩ := List.forall_mem_cons.1 h
    rw [List.cons_append, bracketed?, if_neg hclose, if_neg hopen, ih hu]
    rfl

/-- An opening tag at the end of a text is not shown. -/
theorem eq_of_read_opening (hp : Untagged p) (hcodeless : Codeless p) (hstart : startsTag x)
    (hx : x ≠ CodePoint.scalar '/')
    (hu : ∀ d ∈ x :: u, d ≠ CodePoint.scalar '[' ∧ d ≠ CodePoint.scalar ']' ∧
      d ≠ CodePoint.scalar '=')
    (h : read c (p ++ CodePoint.scalar '[' :: (x :: u ++ [CodePoint.scalar ']'])) = .ok v) :
    v = p := by
  have htag : tag? (x :: u ++ [CodePoint.scalar ']']) = some (x :: u, []) := by
    rw [List.cons_append, tag?, if_pos hstart]
    exact bracketed?_append (u := x :: u) fun d hd => ⟨(hu d hd).1, (hu d hd).2.1⟩
  have hopening : Piece.ofTag (x :: u) = .opening (x :: u) none := by
    have hstyle : (x :: u).takeWhile (· ≠ CodePoint.scalar '=') = x :: u :=
      List.takeWhile_eq_self_iff.2 fun d hd => by simpa using (hu d hd).2.2
    simp only [Piece.ofTag, hstyle, List.drop_length, List.tail?_nil, if_neg hx]
  have hempty : c.emoji.draw [] = [] := Emoji.Table.draw_of_codeless trivial
  rw [read, pieces_append hp, pieces_tag htag, if_neg (by decide), hopening, pieces_nil] at h
  cases hnormal : Style.normalForm c.numberDigits (x :: u) with
  | error f => simp [shown, hnormal, Except.bind, Except.map] at h
  | ok normal =>
    simp only [shown, hnormal, Except.bind, Except.map, backslashes, Nat.zero_div,
      List.replicate_zero, List.append_nil, List.nil_append, hempty,
      Emoji.Table.draw_of_codeless hcodeless, Except.ok.injEq] at h
    exact h.symm

end BundleGraph.Markup
