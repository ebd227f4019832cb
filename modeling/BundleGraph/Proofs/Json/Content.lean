import BundleGraph.Proofs.Json.Limits
import BundleGraph.Proofs.Json.Printer
import BundleGraph.Proofs.Json.Spelling

/-!
# What a document holds

A reader finds no more values in a text than the text has code points, and no string in which the
halves of a surrogate pair stand next to each other: two escapes that name them are read as one
character, and a text that was decoded has no lone surrogates of its own.
-/
namespace BundleGraph.Json

open CodePoint (scalar)
open Relation (ReflTransGen)
open Text (Unpaired WellFormed)

mutual

/-- The number of values in a value, itself included. -/
def Value.count : Value → Nat
  | .array items => Value.countItems items + 1
  | .object members => Value.countMembers members + 1
  | _ => 1

def Value.countItems : List Value → Nat
  | [] => 0
  | v :: rest => v.count + countItems rest

def Value.countMembers : List (Text × Value) → Nat
  | [] => 0
  | (_, v) :: rest => v.count + countMembers rest

end

namespace Value

variable {v w : Value} {items : List Value} {members : List (Text × Value)} {k : Text}

theorem countItems_eq (items : List Value) : countItems items = (items.map count).sum := by
  induction items with
  | nil => rfl
  | cons v items ih => rw [countItems, ih, List.map_cons, List.sum_cons]

theorem countMembers_eq (members : List (Text × Value)) :
    countMembers members = (members.map fun p => p.2.count).sum := by
  induction members with
  | nil => rfl
  | cons p members ih =>
    obtain ⟨k, v⟩ := p
    rw [countMembers, ih, List.map_cons, List.sum_cons]

theorem countItems_reverse (items : List Value) : countItems items.reverse = countItems items := by
  rw [countItems_eq, countItems_eq, List.map_reverse, List.sum_reverse]

theorem countMembers_insert_le (k : Text) (v : Value) (members : List (Text × Value)) :
    countMembers (Assoc.insert k v members) ≤ countMembers members + v.count := by
  induction members with
  | nil => simp [Assoc.insert, countMembers]
  | cons p members ih =>
    obtain ⟨k', v'⟩ := p
    rw [Assoc.insert]
    split
    · simp only [countMembers]
      omega
    · simp only [countMembers]
      omega

theorem count_pos (v : Value) : 0 < v.count := by
  cases v <;> simp [count]

theorem count_le_of_child (h : Child v w) : v.count ≤ w.count := by
  cases h with
  | @item v items h =>
    have hle := List.le_sum_of_mem (List.mem_map_of_mem (f := count) h)
    rw [← countItems_eq] at hle
    rw [count.eq_def (array items)]
    exact Nat.le_succ_of_le hle
  | @member k v members h =>
    have hle := List.le_sum_of_mem (List.mem_map_of_mem (f := fun p => p.2.count) h)
    rw [← countMembers_eq] at hle
    rw [count.eq_def (object members)]
    exact Nat.le_succ_of_le hle

/-- In no string of the value the halves of a surrogate pair stand next to each other. -/
def Stable (v : Value) : Prop := ∀ t, ReflTransGen Child (.string t) v → t.Unpaired

theorem stable_of_children (hself : ∀ t, v = .string t → t.Unpaired)
    (h : ∀ w, Child w v → w.Stable) : v.Stable := by
  intro t ht
  rcases ht.cases_tail with heq | ⟨w, hw, hchild⟩
  · exact hself t heq
  · exact h w hchild t hw

theorem stable_array (h : ∀ v ∈ items, v.Stable) : (array items).Stable := by
  apply stable_of_children (fun t ht => by simp at ht)
  intro w hchild
  cases hchild with
  | item hw => exact h w hw

theorem stable_object (h : ∀ p ∈ members, p.2.Stable) : (object members).Stable := by
  apply stable_of_children (fun t ht => by simp at ht)
  intro w hchild
  cases hchild with
  | member hw => exact h _ hw

theorem stable_string {t : Text} (ht : t.Unpaired) : (string t).Stable := by
  apply stable_of_children
  · rintro u heq
    obtain rfl := string.inj heq
    exact ht
  · exact fun _ h => by cases h

end Value

theorem exists_of_map_weaken {α : Type} {c d : Cursor} {hlt : d.rest.length < c.rest.length}
    {x : Except ReadError (Read α d)} {r : Read α c} (h : x.map (Read.weaken hlt) = .ok r) :
    ∃ r', x = .ok r' ∧ r'.1 = r.1 := by
  cases x with
  | error e => simp [Except.map] at h
  | ok r' =>
    obtain rfl := Except.ok.inj h
    exact ⟨r', rfl, rfl⟩

section Strings

variable {start offset n : Nat} {after acc t : Text} {x y : CodePoint} {c : Cursor}

theorem simpleEscape?_not_isSurrogate (h : simpleEscape? x = some y) : ¬y.isSurrogate := by
  unfold simpleEscape? at h
  split_ifs at h <;> (obtain rfl := Option.some.inj h; decide)

theorem joinSurrogates?_not_isSurrogate {high low : Nat} (h : joinSurrogates? high low = some n) :
    ¬(CodePoint.ofNat n).isSurrogate := by
  unfold joinSurrogates? at h
  split_ifs at h
  obtain rfl := Option.some.inj h
  exact CodePoint.not_isSurrogate_ofNat (by omega)

/-- An escape names a half of a pair only by the digits of its unit, and only where the other half
does not follow. -/
theorem exists_digits_of_readEscape (h : readEscape start offset after = .ok (y, n))
    (hsurrogate : y.isSurrogate) :
    ∃ digits, after = scalar 'u' :: digits ∧ 4 < digits.length ∧
      hexValue? (digits.take 4) = some y.toNat ∧ Alone y.toNat (after.drop n) := by
  revert h
  fun_cases readEscape start offset after with
  | case5 digits hlong m hdigits low hlow joined hjoin =>
    intro h
    obtain ⟨rfl, -⟩ := Prod.mk.inj (Except.ok.inj h)
    obtain ⟨second, -, hjoin⟩ := Option.bind_eq_some_iff.1 hjoin
    exact absurd hsurrogate (joinSurrogates?_not_isSurrogate hjoin)
  | case6 digits hlong m hdigits low hlow hnone =>
    intro h
    obtain ⟨rfl, rfl⟩ := Prod.mk.inj (Except.ok.inj h)
    rw [CodePoint.toNat_ofNat hsurrogate]
    exact ⟨digits, rfl, not_le.1 hlong, hdigits, low, hlow, hnone⟩
  | case7 x digits hx y' hsimple =>
    intro h
    obtain ⟨rfl, -⟩ := Prod.mk.inj (Except.ok.inj h)
    exact absurd hsurrogate (simpleEscape?_not_isSurrogate hsimple)
  | _ => simp

/-- Behind the first half of a pair no escape is read as the second one. -/
theorem not_isLow_of_readEscape {high : Nat} (hhigh : 0xD800 ≤ high ∧ high < 0xDC00)
    (halone : Alone high (scalar '\\' :: after))
    (h : readEscape start offset after = .ok (y, n)) : ¬y.isLow := by
  intro hlow
  obtain ⟨digits, rfl, hlong, hdigits, -⟩ :=
    exists_digits_of_readEscape h (CodePoint.isSurrogate_of_isLow hlow)
  obtain ⟨low, hread, hjoin⟩ := halone
  have hpair : 6 < (scalar '\\' :: scalar 'u' :: digits).length := by
    simp only [List.length_cons]
    omega
  rw [lowHalf?, if_pos ⟨hhigh.1, hhigh.2, hpair, rfl⟩] at hread
  simp only [List.drop_succ_cons, List.drop_zero, hdigits] at hread
  obtain rfl := Except.ok.inj hread
  simp only [CodePoint.isLow, Bool.and_eq_true, decide_eq_true_eq] at hlow
  rw [Option.bind_some, joinSurrogates?, if_pos ⟨hhigh.1, hhigh.2, hlow⟩] at hjoin
  simp at hjoin

/-- A string read from a text without lone surrogates. What `acc` ends with has been read as a half
of a pair only where the other half does not follow. -/
theorem unpaired_of_readString {r : Read Text c} (h : readString start acc c = .ok r)
    (hformed : c.rest.WellFormed) (hacc : Unpaired acc.reverse)
    (halone : ∀ x ∈ acc.head?, x.isHigh → Alone x.toNat c.rest) : r.1.1.Unpaired := by
  fun_induction readString start acc c with
  | case1 => simp at h
  | case2 =>
    obtain rfl := Except.ok.inj h
    exact hacc
  | case3 => simp at h
  | case4 acc c rest y n hescape hc next hquote ih =>
    obtain ⟨r, hread, hr⟩ := exists_of_map_weaken h
    rw [← hr]
    have hrest : (c.advance (n + 1)).rest.WellFormed :=
      WellFormed.subset hformed (advance_suffix c _).subset
    refine ih hread hrest (hacc.reverse_cons ?_) ?_
    · intro x hx hhigh
      have hbehind := halone x hx hhigh
      rw [hc] at hbehind
      simp only [CodePoint.isHigh, Bool.and_eq_true, decide_eq_true_eq] at hhigh
      exact not_isLow_of_readEscape hhigh hbehind hescape
    · intro x hx hhigh
      obtain rfl := Option.some.inj hx
      obtain ⟨digits, -, -, -, hbehind⟩ :=
        exists_digits_of_readEscape hescape (CodePoint.isSurrogate_of_isHigh hhigh)
      rwa [Cursor.advance, hc, List.drop_succ_cons]
  | case5 => simp at h
  | case6 acc c x rest hc next hquote hbackslash hcontrol ih =>
    obtain ⟨r, hread, hr⟩ := exists_of_map_weaken h
    rw [← hr]
    -- A code point that stands for itself is no half of a pair.
    have hx : ¬x.isSurrogate := hformed x (hc ▸ List.mem_cons_self)
    have hrest : (c.advance 1).rest.WellFormed :=
      WellFormed.subset hformed (advance_suffix c _).subset
    refine ih hread hrest (hacc.reverse_cons ?_) ?_
    · exact fun _ _ _ hlow => hx (CodePoint.isSurrogate_of_isLow hlow)
    · intro y hy hhigh
      obtain rfl := Option.some.inj hy
      exact absurd (CodePoint.isSurrogate_of_isHigh hhigh) hx

end Strings

/-- What a reader takes from `t`, leaving `rest`: a value without halves of pairs side by side, and
no more values than code points beyond those that were `held` before. -/
structure Takes (t : Text) (held : Nat) (v : Value) (rest : Text) : Prop where
  suffix : rest <:+ t
  stable : v.Stable
  count_le : v.count + rest.length ≤ t.length + held

namespace Takes

variable {t u rest : Text} {held held' : Nat} {v : Value} {c : Cursor}

theorem weaken (h : Takes t held v rest) (hsuffix : t <:+ u)
    (hle : t.length + held ≤ u.length + held') : Takes u held' v rest :=
  ⟨h.suffix.trans hsuffix, h.stable, h.count_le.trans hle⟩

theorem token {r : Read CodePoint c} (h : Takes t held v c.rest) (htoken : c.token? = some r) :
    r.1.2.rest <:+ t ∧ v.count + r.1.2.rest.length < t.length + held := by
  have hlt : r.1.2.rest.length < c.rest.length := r.2
  have hle := h.count_le
  exact ⟨(token?_suffix htoken).trans h.suffix, by omega⟩

end Takes

/-- A reader that takes what is in front of it. -/
def Reader.Sound (item : Reader Value) : Prop :=
  ∀ ⦃c : Cursor⦄ ⦃r : Read Value c⦄, item c = .ok r → c.rest.WellFormed →
    Takes c.rest 0 r.1.1 r.1.2.rest

section Values

variable {c : Cursor} {item : Reader Value} {limits : Limits}

theorem sound_readItems (hitem : Reader.Sound item) {acc : List Value}
    (hacc : ∀ v ∈ acc, v.Stable) {r : Read Value c} (h : readItems item acc c = .ok r)
    (hformed : c.rest.WellFormed) :
    Takes c.rest (Value.countItems acc) r.1.1 r.1.2.rest := by
  fun_induction readItems item acc c with
  | case1 => simp at h
  | case2 => simp at h
  | case3 acc c v after progress hread next step htoken nearer =>
    obtain rfl := Except.ok.inj h
    have htakes := hitem hread hformed
    obtain ⟨hsuffix, hcount⟩ := htakes.token htoken
    refine ⟨hsuffix, ?_, ?_⟩
    · refine Value.stable_array fun w hw => ?_
      exact List.forall_mem_cons.2 ⟨htakes.stable, hacc⟩ w (List.mem_reverse.1 hw)
    · rw [Value.count, Value.countItems_reverse, Value.countItems]
      simp only at hcount ⊢
      omega
  | case4 acc c v after progress hread next step htoken nearer hclose ih =>
    obtain ⟨r, hmore, hr⟩ := exists_of_map_weaken h
    rw [← hr]
    have htakes := hitem hread hformed
    obtain ⟨hsuffix, hcount⟩ := htakes.token htoken
    have hrest := (skipSpace_suffix next).trans hsuffix
    have hskip := next.skipSpace_length
    refine (ih (List.forall_mem_cons.2 ⟨htakes.stable, hacc⟩) hmore
      (WellFormed.subset hformed hrest.subset)).weaken hrest ?_
    rw [Value.countItems]
    simp only at hcount
    omega
  | case5 => simp at h

theorem sound_readMembers (hitem : Reader.Sound item) {acc : List (Text × Value)}
    (hacc : ∀ p ∈ acc, p.2.Stable) {r : Read Value c} (h : readMembers item acc c = .ok r)
    (hformed : c.rest.WellFormed) :
    Takes c.rest (Value.countMembers acc) r.1.1 r.1.2.rest := by
  -- A key leaves an end of the text, in front of which the value is read.
  have hvalue : ∀ {c : Cursor} {key : Text} {start : Cursor} {begun : _} {r : Read Value start},
      readKey c = .ok ⟨(key, start), begun⟩ → item start = .ok r → c.rest.WellFormed →
      Takes c.rest 0 r.1.1 r.1.2.rest := by
    intro c key start begun r hkey hread hformed
    have hstart := (fair_readKey .standard 0 c).ok hkey
    exact (hitem hread (WellFormed.subset hformed hstart.subset)).weaken hstart
      (Nat.add_le_add_right hstart.length_le 0)
  fun_induction readMembers item acc c with
  | case1 => simp at h
  | case2 => simp at h
  | case3 => simp at h
  | case4 acc c key start begun hkey v after progress hread next members step htoken near nearer =>
    obtain rfl := Except.ok.inj h
    have htakes := hvalue hkey hread hformed
    obtain ⟨hsuffix, hcount⟩ := htakes.token htoken
    have hmembers : Value.countMembers members ≤ Value.countMembers acc + v.count :=
      Value.countMembers_insert_le key v acc
    refine ⟨hsuffix, Value.stable_object (Assoc.forall_mem_insert htakes.stable hacc), ?_⟩
    rw [Value.count]
    simp only at hcount ⊢
    omega
  | case5 acc c key start begun hkey v after progress hread next members step htoken near nearer
      hclose ih =>
    obtain ⟨r, hmore, hr⟩ := exists_of_map_weaken h
    rw [← hr]
    have htakes := hvalue hkey hread hformed
    obtain ⟨hsuffix, hcount⟩ := htakes.token htoken
    have hrest := (skipSpace_suffix next).trans hsuffix
    have hskip := next.skipSpace_length
    have hmembers : Value.countMembers members ≤ Value.countMembers acc + v.count :=
      Value.countMembers_insert_le key v acc
    refine (ih (Assoc.forall_mem_insert htakes.stable hacc) hmore
      (WellFormed.subset hformed hrest.subset)).weaken hrest ?_
    simp only at hcount
    omega
  | case6 => simp at h

theorem sound_readBracketed {close : CodePoint} {empty : Value} {more : Reader Value}
    (hempty : empty.Stable ∧ empty.count = 1) (hmore : Reader.Sound more) :
    Reader.Sound (readBracketed close empty more) := by
  intro c r h hformed
  have hinside : ∀ {x rest}, c.rest = x :: rest →
      (Cursor.mk rest (c.offset + 1)).skipSpace.rest <:+ c.rest := fun {x rest} hc =>
    (skipSpace_suffix _).trans (hc ▸ List.suffix_cons x rest)
  revert h
  fun_cases readBracketed close empty more c with
  | case1 => simp
  | case2 x rest hc inside shorter hclose =>
    intro h
    obtain rfl := Except.ok.inj h
    have hadvance := inside.advance_length 1
    refine ⟨(advance_suffix inside 1).trans (hinside hc), hempty.1, ?_⟩
    rw [hempty.2]
    simp only
    omega
  | case3 x rest hc inside shorter hclose =>
    intro h
    obtain ⟨r, hread, hr⟩ := exists_of_map_weaken h
    rw [← hr]
    exact (hmore hread (WellFormed.subset hformed (hinside hc).subset)).weaken (hinside hc)
      (by omega)

theorem stable_value {n : Numeral} {v : Value} (h : n.value limits = .ok v) :
    v.Stable ∧ v.count = 1 := by
  unfold Numeral.value at h
  extract_lets magnitude at h
  split_ifs at h
  all_goals
    obtain rfl := Except.ok.inj h
    exact ⟨Value.stable_of_children (by simp) (fun _ h => by cases h), rfl⟩

theorem stable_readAtom {offset n : Nat} {t : Text} {v : Value}
    (h : readAtom limits offset t = .ok (v, n)) : v.Stable ∧ v.count = 1 := by
  unfold readAtom at h
  split at h
  · rename_i word w hword
    obtain ⟨rfl, -⟩ := Prod.mk.inj (Except.ok.inj h)
    have hmem := List.mem_of_find?_eq_some hword
    simp only [words, List.mem_cons, Prod.mk.injEq, List.not_mem_nil, or_false] at hmem
    rcases hmem with ⟨-, rfl⟩ | ⟨-, rfl⟩ | ⟨-, rfl⟩ | ⟨-, rfl⟩ | ⟨-, rfl⟩ | ⟨-, rfl⟩
    all_goals exact ⟨Value.stable_of_children (by simp) (fun _ h => by cases h), rfl⟩
  · split at h
    · rename_i numeral length hnumeral
      cases hvalue : numeral.value limits with
      | error e => simp [hvalue, Except.map] at h
      | ok w =>
        rw [hvalue] at h
        obtain ⟨rfl, -⟩ := Prod.mk.inj (Except.ok.inj h)
        exact stable_value hvalue
    · simp at h

theorem sound_readPlain : Reader.Sound (readPlain limits) := by
  intro c r h hformed
  revert h
  fun_cases readPlain limits c with
  | case1 => simp
  | case2 v length hatom hprogress =>
    intro h
    obtain rfl := Except.ok.inj h
    obtain ⟨hstable, hcount⟩ := stable_readAtom hatom
    refine ⟨advance_suffix c length, hstable, ?_⟩
    have hadvance : (c.advance length).rest.length = c.rest.length - length := List.length_drop
    rw [hcount]
    simp only
    omega
  | case3 => simp

theorem sound_readOne {inner : Option (Reader Value)} (hinner : ∀ item ∈ inner, Reader.Sound item) :
    Reader.Sound (readOne limits inner) := by
  intro c r h hformed
  revert h
  fun_cases readOne limits inner c with
  | case1 => simp
  | case2 inner rest hc =>
    intro h
    have hrest : rest <:+ c.rest := hc ▸ List.suffix_cons _ rest
    cases hread : readString c.offset [] ⟨rest, c.offset + 1⟩ with
    | error e => simp [hread, Except.map] at h
    | ok s =>
      rw [hread] at h
      obtain rfl := Except.ok.inj h
      have hfair : Fair .standard 0 rest _ := fair_readString c.offset [] ⟨rest, c.offset + 1⟩
      refine ⟨(hfair.ok hread).trans hrest, Value.stable_string ?_, ?_⟩
      · exact unpaired_of_readString hread (WellFormed.subset hformed hrest.subset)
          Text.unpaired_nil (by simp)
      · have hlength : s.1.2.rest.length < rest.length := s.2
        have hle := hrest.length_le
        rw [Value.count.eq_def]
        simp only
        omega
  | case3 => simp
  | case4 rest item hc =>
    have hitem := hinner item rfl
    have hmore : Reader.Sound (readItems item []) := fun _ _ h hformed =>
      sound_readItems hitem (by simp) h hformed
    intro h
    exact sound_readBracketed ⟨Value.stable_array (by simp), rfl⟩ hmore h hformed
  | case5 x rest hc hquote hx inner =>
    have hitem := hinner inner rfl
    have hmore : Reader.Sound (readMembers inner []) := fun _ _ h hformed =>
      sound_readMembers hitem (by simp) h hformed
    intro h
    exact sound_readBracketed ⟨Value.stable_object (by simp), rfl⟩ hmore h hformed
  | case6 => exact fun h => sound_readPlain h hformed

theorem sound_readValue (limits : Limits) (depth : Nat) :
    Reader.Sound (readValue limits depth) := by
  induction depth with
  | zero => exact sound_readOne (by simp)
  | succ depth ih => exact sound_readOne (by simpa using ih)

/-- A document without lone surrogates of its own is read as a value without halves of pairs side
by side, and with no more values than the document has code points. -/
theorem content_of_read {v : Value} {document : Text} (h : read limits document = .ok v)
    (hformed : document.WellFormed) : v.Stable ∧ v.count ≤ document.length := by
  unfold read at h
  split_ifs at h
  split at h
  · simp at h
  · rename_i v' after progress hread
    split_ifs at h
    obtain rfl := Except.ok.inj h
    have hstart : (Cursor.mk document 0).skipSpace.rest <:+ document := skipSpace_suffix _
    have htakes := sound_readValue limits limits.depth hread
      (WellFormed.subset hformed hstart.subset)
    have hle := htakes.count_le
    have hlength := hstart.length_le
    simp only at hle
    exact ⟨htakes.stable, by omega⟩

end Values

end BundleGraph.Json
