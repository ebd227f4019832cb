import BundleGraph.Json.Reader
import Mathlib.Data.List.TakeWhile
import Mathlib.Tactic

/-!
# Limits of the reader

A limit is passed for a reason that stands in the document: it has more opening brackets than values
may be nested, or a longer run of digits than an integer may have. Every reader answers for the text
in front of it and leaves an end of that text, so what is said of an inner value holds of the whole.
-/
namespace BundleGraph.Json

open CodePoint (scalar)

def openings (t : Text) : Nat := t.countP fun c => c = scalar '[' ∨ c = scalar '\x7b'

/-- The reason for an error that a text must hold. Malformed it may be in any way. -/
inductive Reason (limits : Limits) (depth : Nat) (t : Text) : ReadError → Prop
  | malformed (problem : Problem) (offset : Nat) : Reason limits depth t (.malformed problem offset)
  | integerTooLong (digits : Text) (all : ∀ c ∈ digits, c.isDigit) (run : digits <:+: t)
      (long : limits.digits < digits.length) :
      Reason limits depth t (.integerTooLong digits.length)
  | tooDeep (deep : depth < openings t) : Reason limits depth t .tooDeep

variable {α : Type} {limits : Limits} {depth : Nat} {t u : Text} {c : Cursor} {e : ReadError}

theorem Reason.of_suffix (h : Reason limits depth t e) (hsuffix : t <:+ u) :
    Reason limits depth u e := by
  cases h with
  | malformed problem offset => exact .malformed problem offset
  | integerTooLong digits all run long =>
    exact .integerTooLong digits all (run.trans hsuffix.isInfix) long
  | tooDeep deep => exact .tooDeep (deep.trans_le (hsuffix.sublist.countP_le))

/-- What a reader may come to in front of `t`: an end of it is left, or it holds the reason. -/
def Fair (limits : Limits) (depth : Nat) (t : Text) : Except ReadError (Read α c) → Prop
  | .ok r => r.1.2.rest <:+ t
  | .error e => Reason limits depth t e

theorem Fair.ok {x : Except ReadError (Read α c)} {r : Read α c} (h : Fair limits depth t x)
    (hx : x = .ok r) : r.1.2.rest <:+ t := by
  rwa [hx] at h

theorem Fair.error {x : Except ReadError (Read α c)} (h : Fair limits depth t x)
    (hx : x = .error e) : Reason limits depth t e := by
  rwa [hx] at h

theorem Fair.of_suffix {x : Except ReadError (Read α c)} (h : Fair limits depth t x)
    (hsuffix : t <:+ u) : Fair limits depth u x := by
  cases x with
  | ok r => exact List.IsSuffix.trans h hsuffix
  | error e => exact Reason.of_suffix h hsuffix

theorem Fair.map {β : Type} {d : Cursor} {x : Except ReadError (Read α c)}
    (h : Fair limits depth t x) {f : Read α c → Read β d} (hf : ∀ r, (f r).1.2 = r.1.2) :
    Fair limits depth t (x.map f) := by
  cases x with
  | ok r =>
    change (f r).1.2.rest <:+ t
    rw [hf]
    exact h
  | error e => exact h

theorem Fair.weaken {d : Cursor} {x : Except ReadError (Read α d)} (h : Fair limits depth t x)
    (hlt : d.rest.length < c.rest.length) : Fair limits depth t (x.map (Read.weaken hlt)) :=
  h.map fun _ => rfl

theorem advance_suffix (c : Cursor) (n : Nat) : (c.advance n).rest <:+ c.rest :=
  List.drop_suffix n c.rest

theorem skipSpace_suffix (c : Cursor) : c.skipSpace.rest <:+ c.rest := advance_suffix c _

theorem token?_suffix {r : Read CodePoint c} (h : c.token? = some r) : r.1.2.rest <:+ c.rest := by
  unfold Cursor.token? at h
  split at h
  · simp at h
  · rename_i x rest hrest
    obtain rfl := Option.some.inj h
    exact (List.suffix_cons x rest).trans (hrest ▸ skipSpace_suffix c)

theorem readEscape_malformed {start offset : Nat} {after : Text}
    (h : readEscape start offset after = .error e) :
    ∃ problem place, e = .malformed problem place := by
  unfold readEscape at h
  grind

theorem fair_readString (start : Nat) (acc : Text) (c : Cursor) :
    Fair limits depth c.rest (readString start acc c) := by
  fun_induction readString start acc c with
  | case1 => exact .malformed _ _
  | case2 => exact advance_suffix _ 1
  | case3 acc c rest e hescape =>
    obtain ⟨problem, place, rfl⟩ := readEscape_malformed hescape
    exact .malformed problem place
  | case4 acc c rest y n hescape hc next hquote ih =>
    exact (ih.weaken _).of_suffix (advance_suffix _ _)
  | case5 => exact .malformed _ _
  | case6 acc c x rest hc next hquote hbackslash hcontrol ih =>
    exact (ih.weaken _).of_suffix (advance_suffix _ _)

theorem fair_readKey (limits : Limits) (depth : Nat) (c : Cursor) :
    Fair limits depth c.rest (readKey c) := by
  have hstring : ∀ rest, c.rest = scalar '"' :: rest →
      Fair limits depth c.rest (readString c.offset [] ⟨rest, c.offset + 1⟩) := fun rest hc =>
    (fair_readString _ _ _).of_suffix (hc ▸ List.suffix_cons _ _)
  fun_cases readKey c with
  | case1 => exact .malformed _ _
  | case2 rest e hread hc => exact (hstring rest hc).error hread
  | case3 => exact .malformed _ _
  | case4 rest key after progress hread next hc begun step htoken =>
    exact ((skipSpace_suffix next).trans (token?_suffix htoken)).trans ((hstring rest hc).ok hread)
  | case5 => exact .malformed _ _
  | case6 => exact .malformed _ _

/-- A reader that is fair in front of every text. -/
def Reader.Honest (limits : Limits) (depth : Nat) (item : Reader α) : Prop :=
  ∀ c, Fair limits depth c.rest (item c)

theorem honest_readItems {item : Reader Value} (hitem : Reader.Honest limits depth item)
    (acc : List Value) : Reader.Honest limits depth (readItems item acc) := by
  intro c
  fun_induction readItems item acc c with
  | case1 acc c e hread => exact (hitem c).error hread
  | case2 => exact .malformed _ _
  | case3 acc c v after progress hread next step htoken nearer =>
    exact (token?_suffix htoken).trans ((hitem c).ok hread)
  | case4 acc c v after progress hread next step htoken nearer hclose ih =>
    exact (ih.weaken nearer).of_suffix
      (((skipSpace_suffix next).trans (token?_suffix htoken)).trans ((hitem c).ok hread))
  | case5 => exact .malformed _ _

theorem honest_readMembers {item : Reader Value} (hitem : Reader.Honest limits depth item)
    (acc : List (Text × Value)) : Reader.Honest limits depth (readMembers item acc) := by
  intro c
  fun_induction readMembers item acc c with
  | case1 acc c e hkey => exact (fair_readKey limits depth c).error hkey
  | case2 acc c key start begun hkey e hread =>
    exact ((hitem start).error hread).of_suffix
      ((fair_readKey limits depth c).ok hkey)
  | case3 => exact .malformed _ _
  | case4 acc c key start begun hkey v after progress hread next members step htoken near nearer =>
    exact (token?_suffix htoken).trans (((hitem start).ok hread).trans
      ((fair_readKey limits depth c).ok hkey))
  | case5 acc c key start begun hkey v after progress hread next members step htoken near nearer
      hclose ih =>
    exact (ih.weaken nearer).of_suffix (((skipSpace_suffix next).trans (token?_suffix htoken)).trans
      (((hitem start).ok hread).trans
        ((fair_readKey limits depth c).ok hkey)))
  | case6 => exact .malformed _ _

theorem numeral?_whole {n : Numeral} {length : Nat} (h : numeral? t = some (n, length)) :
    n.whole <:+: t ∧ ∀ x ∈ n.whole, x.isDigit := by
  have hdigits : ∀ n, ((t.drop n).takeWhile CodePoint.isDigit) <:+: t ∧
      ∀ x ∈ (t.drop n).takeWhile CodePoint.isDigit, x.isDigit := fun n =>
    ⟨(List.takeWhile_prefix _).isInfix.trans (List.drop_suffix n t).isInfix,
      fun _ hx => List.mem_takeWhile_imp hx⟩
  unfold numeral? at h
  extract_lets negative sign whole body fraction pointed power at h
  split_ifs at h
  obtain ⟨rfl, -⟩ := Prod.mk.inj (Option.some.inj h)
  have hwhole : whole <+: (t.drop sign).takeWhile CodePoint.isDigit := by
    cases hrun : (t.drop sign).takeWhile CodePoint.isDigit with
    | nil => simp [whole, hrun]
    | cons d ds =>
      simp only [whole, hrun]
      split
      · simp
      · exact List.prefix_refl _
  obtain ⟨hrun, hall⟩ := hdigits sign
  exact ⟨hwhole.isInfix.trans hrun, fun x hx => hall x (hwhole.subset hx)⟩

theorem readAtom_reason {offset : Nat} (h : readAtom limits offset t = .error e) :
    Reason limits depth t e := by
  unfold readAtom at h
  split at h
  · simp at h
  · split at h
    · rename_i n length hn
      obtain ⟨hrun, hall⟩ := numeral?_whole hn
      unfold Numeral.value at h
      split_ifs at h with hint hlong
      · obtain rfl := Except.error.inj h
        exact .integerTooLong _ hall hrun hlong
      all_goals simp [Except.map] at h
    · obtain rfl := Except.error.inj h
      exact .malformed _ _

theorem honest_readPlain : Reader.Honest limits depth (readPlain limits) := by
  intro c
  fun_cases readPlain limits c with
  | case1 e hatom => exact readAtom_reason hatom
  | case2 v length hatom hprogress => exact advance_suffix c length
  | case3 => exact .malformed _ _

theorem Reason.inside {x : CodePoint} (h : Reason limits depth t e) (hsuffix : t <:+ u)
    (hx : x = scalar '[' ∨ x = scalar '\x7b') : Reason limits (depth + 1) (x :: u) e := by
  cases h with
  | malformed problem offset => exact .malformed problem offset
  | integerTooLong digits all run long =>
    exact .integerTooLong digits all
      (run.trans (hsuffix.trans (List.suffix_cons x u)).isInfix) long
  | tooDeep deep =>
    have hle : openings t ≤ openings u := hsuffix.sublist.countP_le
    have hcons : openings (x :: u) = openings u + 1 := List.countP_cons_of_pos (by simpa using hx)
    exact .tooDeep (by omega)

theorem Fair.inside {x : CodePoint} {rest : Text} {y : Except ReadError (Read α c)}
    (h : Fair limits depth t y) (hsuffix : t <:+ rest) (hx : x = scalar '[' ∨ x = scalar '\x7b')
    (hu : u = x :: rest) : Fair limits (depth + 1) u y := by
  subst hu
  cases y with
  | ok r => exact (List.IsSuffix.trans h hsuffix).trans (List.suffix_cons x rest)
  | error e => exact Reason.inside h hsuffix hx

theorem fair_readBracketed {close : CodePoint} {empty : Value} {more : Reader Value}
    (hmore : Reader.Honest limits depth more) {x : CodePoint} {rest : Text}
    (hc : c.rest = x :: rest) (hx : x = scalar '[' ∨ x = scalar '\x7b') :
    Fair limits (depth + 1) c.rest (readBracketed close empty more c) := by
  fun_cases readBracketed close empty more c with
  | case1 => exact .malformed _ _
  | case2 x' rest' hc' inside shorter hclose =>
    have hrest : rest' <:+ c.rest := hc' ▸ List.suffix_cons x' rest'
    exact ((advance_suffix inside 1).trans (skipSpace_suffix _)).trans hrest
  | case3 x' rest' hc' inside shorter hclose =>
    obtain ⟨rfl, rfl⟩ := List.cons.inj (hc'.symm.trans hc)
    exact ((hmore inside).weaken shorter).inside (skipSpace_suffix _) hx hc

/-- A reader of one value may nest it one level deeper than its items. -/
theorem honest_readOne {item : Option (Reader Value)} (hnone : item = none → depth = 0)
    (hsome : ∀ inner ∈ item, ∃ k, depth = k + 1 ∧ Reader.Honest limits k inner) :
    Reader.Honest limits depth (readOne limits item) := by
  intro c
  fun_cases readOne limits item c with
  | case1 => exact .malformed _ _
  | case2 item rest hc =>
    have hrest : rest <:+ c.rest := hc ▸ List.suffix_cons _ rest
    refine Fair.of_suffix (Fair.map (fair_readString c.offset [] ⟨rest, c.offset + 1⟩) ?_) hrest
    exact fun _ => rfl
  | case3 x rest hc hquote hx =>
    obtain rfl := hnone rfl
    rw [hc]
    exact .tooDeep (List.countP_pos_iff.2 ⟨x, List.mem_cons_self, by simpa using hx⟩)
  | case4 rest inner hc =>
    obtain ⟨k, rfl, hinner⟩ := hsome inner rfl
    exact fair_readBracketed (honest_readItems hinner []) hc (.inl rfl)
  | case5 x rest hc hquote hx inner =>
    obtain ⟨k, rfl, hinner⟩ := hsome inner rfl
    exact fair_readBracketed (honest_readMembers hinner []) hc hx
  | case6 => exact honest_readPlain c

theorem honest_readValue (limits : Limits) (depth : Nat) :
    Reader.Honest limits depth (readValue limits depth) := by
  induction depth with
  | zero => exact honest_readOne (fun _ => rfl) (by simp)
  | succ depth ih =>
    refine honest_readOne (by simp) fun inner hinner => ⟨depth, rfl, ?_⟩
    obtain rfl := Option.some.inj hinner
    exact ih

/-- A document that cannot be read holds the reason. -/
theorem read_reason (h : read limits t = .error e) : Reason limits limits.depth t e := by
  unfold read at h
  split_ifs at h
  · obtain rfl := Except.error.inj h
    exact .malformed _ _
  · have hvalue := (honest_readValue limits limits.depth (Cursor.mk t 0).skipSpace)
    split at h
    · rename_i e' hread
      obtain rfl := Except.error.inj h
      exact (hvalue.error hread).of_suffix (skipSpace_suffix _)
    · split_ifs at h
      obtain rfl := Except.error.inj h
      exact .malformed _ _

theorem skipSpace_eq_self {x : CodePoint} {rest : Text} {offset : Nat} (hx : ¬Cursor.isSpace x) :
    (Cursor.mk (x :: rest) offset).skipSpace = ⟨x :: rest, offset⟩ := by
  simp [Cursor.skipSpace, Cursor.advance, hx]

section Digits

variable {d : CodePoint} {ds : Text}

theorem words_find?_digit (hd : d.isDigit) :
    words.find? (fun w => w.1.isPrefixOf (d :: ds)) = none := by
  have hwords : ∀ w ∈ words, w.1 ≠ [] ∧ ∀ x ∈ w.1.head?, ¬x.isDigit := by decide
  refine List.find?_eq_none.2 fun w hw => ?_
  obtain ⟨hne, hhead⟩ := hwords w hw
  intro hprefix
  obtain ⟨x, xs, hx⟩ := List.exists_cons_of_ne_nil hne
  rw [hx] at hprefix hhead
  obtain ⟨rfl, -⟩ := List.cons_prefix_cons.1 (List.isPrefixOf_iff_prefix.1 hprefix)
  exact hhead x rfl hd

end Digits

end BundleGraph.Json
