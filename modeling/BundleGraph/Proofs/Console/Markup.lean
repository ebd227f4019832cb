import BundleGraph.Console.Markup
import BundleGraph.Proofs.Console.Emoji

/-!
# What markup shows

A beginning without brackets, backslashes and codes shows itself, and a styled one shows what it
encloses; what stands behind is read as if it stood alone. A line is rendered if it can be read and
no style in it is at fault.
-/
namespace BundleGraph.Markup

open Console (Style Terminal)
open Emoji (Codeless Settled)

variable {c : Terminal} {x : CodePoint} {p q t u v w run : Text} {n : Nat} {opened : List OpenStyle}

/-- A text without opening brackets and backslashes. -/
def Untagged (t : Text) : Prop := ∀ x ∈ t, x ≠ CodePoint.scalar '[' ∧ x ≠ CodePoint.scalar '\\'

instance (t : Text) : Decidable (Untagged t) :=
  inferInstanceAs (Decidable (∀ x ∈ t, x ≠ CodePoint.scalar '[' ∧ x ≠ CodePoint.scalar '\\'))

theorem untagged_append : Untagged (t ++ u) ↔ Untagged t ∧ Untagged u := List.forall_mem_append

/-- A line whose styles are not at fault. -/
def Legible (c : Terminal) (line : Text) : Prop :=
  ∀ piece ∈ pieces [] 0 line, piece.fault? c = none

/-- A beginning that shows `u`, whatever stands behind it, and uses no style at fault. -/
structure Shows (c : Terminal) (p u : Text) : Prop where
  read_append : ∀ t, read c (p ++ t) = (read c t).map (u ++ ·)
  legible_append_iff : ∀ t, Legible c (p ++ t) ↔ Legible c t

/-- A word that a tag may hold and that describes a style in its normal form. -/
structure IsStyleWord (w : Text) : Prop where
  opened : ∀ rest, tag? (w ++ CodePoint.scalar ']' :: rest) = some (w, rest)
  closed : ∀ rest, tag? (CodePoint.scalar '/' :: (w ++ CodePoint.scalar ']' :: rest)) =
    some (CodePoint.scalar '/' :: w, rest)
  opening : Piece.ofTag w = .opening w none
  closing : Piece.ofTag (CodePoint.scalar '/' :: w) = .closing w
  normal : ∀ digits, Style.normalForm digits w = .ok w

def styled (w t : Text) : Text :=
  CodePoint.scalar '[' :: (w ++ CodePoint.scalar ']' ::
    (t ++ CodePoint.scalar '[' :: CodePoint.scalar '/' :: (w ++ [CodePoint.scalar ']'])))

theorem isStyleWord_green : IsStyleWord "green" :=
  ⟨fun _ => rfl, fun _ => rfl, by decide, by decide, fun _ => rfl⟩

theorem isStyleWord_red : IsStyleWord "red" :=
  ⟨fun _ => rfl, fun _ => rfl, by decide, by decide, fun _ => rfl⟩

theorem isStyleWord_blue : IsStyleWord "blue" :=
  ⟨fun _ => rfl, fun _ => rfl, by decide, by decide, fun _ => rfl⟩

@[simp] theorem fault?_plain : (Piece.plain t).fault? c = none := rfl

@[simp] theorem pieces_nil : pieces run n [] = [.plain (run ++ backslashes n)] := by
  rw [pieces]

theorem pieces_backslash : pieces run n (CodePoint.scalar '\\' :: t) = pieces run (n + 1) t := by
  rw [pieces]
  simp

theorem pieces_tag (h : tag? t = some (u, v)) : pieces run n (CodePoint.scalar '[' :: t) =
    .plain run :: .plain (backslashes (n / 2)) ::
      (if n % 2 = 1 then .plain (Text.concat ["[", u, "]"]) else .ofTag u) :: pieces [] 0 v := by
  rw [pieces, if_neg (by simp), if_pos rfl]
  split
  · simp_all
  · simp_all

theorem pieces_bracket (h : tag? t = none) : pieces run n (CodePoint.scalar '[' :: t) =
    pieces (run ++ (backslashes (n - 1) ++ [CodePoint.scalar '['])) 0 t := by
  rw [pieces, if_neg (by simp), if_pos rfl]
  split
  · simp_all
  · rfl

theorem pieces_cons (hbracket : x ≠ CodePoint.scalar '[') (hbackslash : x ≠ CodePoint.scalar '\\') :
    pieces run n (x :: t) = pieces (run ++ (backslashes n ++ [x])) 0 t := by
  rw [pieces, if_neg hbackslash, if_neg hbracket]

theorem pieces_append (hp : Untagged p) : pieces run 0 (p ++ t) = pieces (run ++ p) 0 t := by
  induction p generalizing run with
  | nil => simp
  | cons x p ih =>
    obtain ⟨⟨hbracket, hbackslash⟩, hp⟩ := List.forall_mem_cons.1 hp
    rw [List.cons_append, pieces_cons hbracket hbackslash, ih hp]
    simp [backslashes]

/-- The run before a line is the start of its first piece and has no part in the others. -/
theorem exists_pieces_eq (run : Text) (n : Nat) (t : Text) :
    ∃ rest ps, ∀ p, pieces (p ++ run) n t = .plain (p ++ rest) :: ps := by
  induction run, n, t using pieces.induct with
  | case1 run n => exact ⟨run ++ backslashes n, [], fun p => by simp⟩
  | case2 run n t ih =>
    obtain ⟨rest, ps, h⟩ := ih
    exact ⟨rest, ps, fun p => by rw [pieces_backslash, h]⟩
  | case3 run n t inside after htag _ _ => exact ⟨run, _, fun p => pieces_tag htag⟩
  | case4 run n t htag _ ih =>
    obtain ⟨rest, ps, h⟩ := ih
    exact ⟨rest, ps, fun p => by rw [pieces_bracket htag, List.append_assoc, h]⟩
  | case5 run n x t hbackslash hbracket ih =>
    obtain ⟨rest, ps, h⟩ := ih
    exact ⟨rest, ps, fun p => by rw [pieces_cons hbracket hbackslash, List.append_assoc, h]⟩

/-- A beginning without tags and codes goes into the first run of plain text. -/
theorem shows_of_untagged (hp : Untagged p) (hsettled : Settled p) : Shows c p p := by
  have hpieces (t : Text) : ∃ rest ps, pieces [] 0 t = .plain rest :: ps ∧
      pieces [] 0 (p ++ t) = .plain (p ++ rest) :: ps := by
    obtain ⟨rest, ps, h⟩ := exists_pieces_eq [] 0 t
    exact ⟨rest, ps, h [], by rw [pieces_append hp, List.nil_append, ← h p, List.append_nil]⟩
  constructor
  · intro t
    obtain ⟨rest, ps, ht, hpt⟩ := hpieces t
    rw [read, read, ht, hpt, shown, shown, Emoji.Table.draw_append hsettled]
    cases shown c [] ps <;> simp [Except.map]
  · intro t
    obtain ⟨rest, ps, ht, hpt⟩ := hpieces t
    rw [Legible, Legible, ht, hpt]
    simp

theorem Shows.append (hp : Shows c p u) (hq : Shows c q v) : Shows c (p ++ q) (u ++ v) := by
  constructor
  · intro t
    rw [List.append_assoc, hp.read_append, hq.read_append]
    cases read c t <;> simp [Except.map]
  · intro t
    rw [List.append_assoc, hp.legible_append_iff, hq.legible_append_iff]

@[simp] theorem read_nil : read c [] = .ok [] := by
  rw [read, pieces_nil, shown, shown, List.nil_append, backslashes, List.replicate_zero,
    Emoji.Table.draw_of_codeless (t := []) trivial]
  rfl

theorem legible_nil : Legible c [] := by
  simp [Legible]

theorem Shows.read_eq (hp : Shows c p u) : read c p = .ok u := by
  have h := hp.read_append []
  rw [List.append_nil, read_nil] at h
  simpa [Except.map] using h

theorem Shows.legible (hp : Shows c p u) : Legible c p := by
  have h := hp.legible_append_iff []
  rw [List.append_nil] at h
  exact h.2 legible_nil

theorem exists_close_nil (c : Terminal) (w : Text) : ∃ f, close c w [] = .error f := by
  cases w with
  | nil => exact ⟨_, rfl⟩
  | cons x w =>
    cases hnormal : Style.normalForm c.numberDigits (x :: w) with
    | ok normal => exact ⟨.unmatchedTag (x :: w), by simp [close, closed, hnormal, Except.bind]⟩
    | error f => exact ⟨f, by simp [close, closed, hnormal, Except.bind]⟩

theorem close_singleton (h : Style.normalForm c.numberDigits w = .ok w) :
    close c w [⟨w, none⟩] = .ok [] := by
  have hclosed : closed c w [⟨w, none⟩] = .ok (⟨w, none⟩, []) := by
    cases w with
    | nil => rfl
    | cons x w => simp [closed, h, Except.bind]
  rw [close, hclosed]
  rfl

theorem shows_styled (hw : IsStyleWord w) (ht : Untagged t) (hcodeless : Codeless t) :
    Shows c (styled w t) t := by
  have hpieces (rest : Text) : pieces [] 0 (styled w t ++ rest) =
      [.plain [], .plain [], .opening w none, .plain t, .plain [], .closing w] ++
        pieces [] 0 rest := by
    have hopen : styled w t ++ rest = CodePoint.scalar '[' :: (w ++ CodePoint.scalar ']' ::
        (t ++ CodePoint.scalar '[' :: CodePoint.scalar '/' ::
          (w ++ CodePoint.scalar ']' :: rest))) := by
      simp [styled]
    rw [hopen, pieces_tag (hw.opened _), pieces_append ht, pieces_tag (hw.closed rest), hw.opening,
      hw.closing]
    simp [backslashes]
  constructor
  · intro rest
    have hempty : c.emoji.draw [] = [] := Emoji.Table.draw_of_codeless trivial
    rw [read, read, hpieces]
    simp only [List.cons_append, List.nil_append, shown, hw.normal, Except.bind, hempty,
      Emoji.Table.draw_of_codeless hcodeless, close_singleton (hw.normal _)]
    cases shown c [] (pieces [] 0 rest) <;> simp [Except.map]
  · intro rest
    rw [Legible, Legible, hpieces]
    simp [Piece.fault?]

theorem strain?_of_legible (h : Legible c t) : strain? c t = none := by
  refine List.findSome?_eq_none_iff.2 fun ⟨piece, tag⟩ hpiece => ?_
  dsimp only
  split
  · exact h piece (List.fst_mem_of_mem_zipIdx hpiece)
  · rfl

theorem read_of_render (h : render c t = .ok u) : read c t = .ok u := by
  unfold render at h
  cases hread : read c t with
  | error f => simp [hread, Except.bind] at h
  | ok v =>
    simp only [hread, Except.bind] at h
    split at h
    · simpa using h
    · simp at h

theorem render_of_legible (h : Legible c t) : render c t = read c t := by
  rw [render, strain?_of_legible h]
  cases read c t <;> rfl

theorem Shows.render_eq (hp : Shows c p u) : render c p = .ok u :=
  (render_of_legible hp.legible).trans hp.read_eq

end BundleGraph.Markup
