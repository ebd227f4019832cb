import BundleGraph.Proofs.Assoc
import BundleGraph.Proofs.Schema.Decode

/-!
# Grammars of values

A grammar says which value stands for what, and at which places a value breaks it. A decoder decides
a grammar if it takes just the values that stand for something, and otherwise tells every place
where the value breaks the grammar, each of them once.
-/
namespace BundleGraph.Schema

open Json (Value)

/-- Which value stands for what, and the places at which a value breaks this. -/
structure Grammar (α : Type) where
  Reads : Value → α → Prop
  Breaks : Value → List Step → Prop

namespace Grammar

variable {α : Type}

/-- A value that has no parts of its own: it stands for something or is wrong as a whole. -/
def plain (Reads : Value → α → Prop) : Grammar α where
  Reads := Reads
  Breaks v l := l = [] ∧ ∀ a, ¬Reads v a

def text : Grammar Text := plain fun v t => v = .string t

def nonemptyText : Grammar Text := plain fun v t => v = .string t ∧ t.WellFormed ∧ t ≠ []

/-- The values that stand for a flag. -/
inductive Flag : Value → Bool → Prop
  | bool (b : Bool) : Flag (.bool b) b
  | zero : Flag (.int 0) false
  | one : Flag (.int 1) true
  | floatZero (x : Binary64) (h : x.toInt? = some 0) : Flag (.float x) false
  | floatOne (x : Binary64) (h : x.toInt? = some 1) : Flag (.float x) true
  | word (t : Text) (b : Bool) (h : (t.map CodePoint.toLower, b) ∈ flagWords) : Flag (.string t) b

/-- A boolean, or what stands for one. -/
def flag : Grammar Bool := plain Flag

def nullable (g : Grammar α) : Grammar (Option α) where
  Reads v x := v = .null ∧ x = none ∨ v ≠ .null ∧ ∃ a, g.Reads v a ∧ x = some a
  Breaks v l := v ≠ .null ∧ g.Breaks v l

/-- The places at which a value is no list of what `Breaks` is about. -/
inductive ListBreaks (Breaks : Value → List Step → Prop) : Value → List Step → Prop
  | notList {v : Value} (h : ∀ items, v ≠ .array items) : ListBreaks Breaks v []
  | item {items : List Value} {i : Nat} {v : Value} {l : List Step} (hv : items[i]? = some v)
      (h : Breaks v l) : ListBreaks Breaks (.array items) (.index i :: l)

def listOf (g : Grammar α) : Grammar (List α) where
  Reads v as := ∃ items, v = .array items ∧ List.Forall₂ g.Reads items as
  Breaks := ListBreaks g.Breaks

end Grammar

variable {α β : Type} {x : Decoded α} {y : Decoded β} {P Q : List Step → Prop} {step : Step}

def Decoded.locations : Decoded α → List (List Step)
  | .ok _ => []
  | .error defects => defects.map Defect.location

/-- Every place with the property `P` is told, each once, and failing is telling one. -/
structure Tells (x : Decoded α) (P : List Step → Prop) : Prop where
  ne_nil : x ≠ .error []
  nodup : x.locations.Nodup
  mem_iff : ∀ l, l ∈ x.locations ↔ P l

section Tells

theorem locations_both (x : Decoded α) (y : Decoded β) :
    (x.both y).locations = x.locations ++ y.locations := by
  cases x <;> cases y <;> simp [Decoded.both, Decoded.locations]

theorem locations_under (step : Step) (x : Decoded α) :
    (x.under step).locations = x.locations.map (step :: ·) := by
  cases x <;> simp [Decoded.under, Decoded.locations, Defect.under, Function.comp_def]

theorem locations_map (f : α → β) (x : Decoded α) :
    Decoded.locations (x.map f) = x.locations := by
  cases x <;> rfl

theorem both_ne_error_nil (hx : x ≠ .error []) (hy : y ≠ .error []) : x.both y ≠ .error [] := by
  cases x <;> cases y <;> simp_all [Decoded.both]

theorem under_ne_error_nil (hx : x ≠ .error []) : x.under step ≠ .error [] := by
  cases x <;> simp_all [Decoded.under]

theorem map_ne_error_nil {f : α → β} (hx : x ≠ .error []) : x.map f ≠ .error [] := by
  cases x <;> simp_all [Except.map]

theorem tells_ok (a : α) : Tells (.ok a : Decoded α) fun _ => False where
  ne_nil := nofun
  nodup := List.nodup_nil
  mem_iff l := by simp [Decoded.locations]

theorem tells_single (d : Defect) : Tells (.error [d] : Decoded α) (· = d.location) where
  ne_nil := by simp
  nodup := List.nodup_singleton _
  mem_iff l := by simp [Decoded.locations]

theorem Tells.congr (h : Tells x P) (hiff : ∀ l, P l ↔ Q l) : Tells x Q where
  ne_nil := h.ne_nil
  nodup := h.nodup
  mem_iff l := (h.mem_iff l).trans (hiff l)

/-- Something was decoded just where there is nothing to tell. -/
theorem Tells.isOk_iff (h : Tells x P) : (∃ a, x = .ok a) ↔ ∀ l, ¬P l := by
  simp only [← h.mem_iff, ← List.eq_nil_iff_forall_not_mem]
  cases x with
  | ok a => simp [Decoded.locations]
  | error defects =>
    have hne : defects ≠ [] := fun hnil => h.ne_nil (hnil ▸ rfl)
    simp [Decoded.locations, hne]

theorem Tells.map (h : Tells x P) (f : α → β) : Tells (x.map f) P where
  ne_nil := map_ne_error_nil h.ne_nil
  nodup := by rw [locations_map]; exact h.nodup
  mem_iff l := by rw [locations_map]; exact h.mem_iff l

theorem Tells.under (h : Tells x P) (step : Step) :
    Tells (x.under step) fun l => ∃ l', P l' ∧ l = step :: l' where
  ne_nil := under_ne_error_nil h.ne_nil
  nodup := by
    rw [locations_under]
    exact h.nodup.map fun _ _ heq => List.tail_eq_of_cons_eq heq
  mem_iff l := by
    rw [locations_under, List.mem_map]
    simp only [h.mem_iff, eq_comm (a := l)]

/-- Two decoders that never tell the same place tell together what each of them tells. -/
theorem Tells.both (hx : Tells x P) (hy : Tells y Q) (hapart : ∀ l, P l → ¬Q l) :
    Tells (x.both y) fun l => P l ∨ Q l where
  ne_nil := both_ne_error_nil hx.ne_nil hy.ne_nil
  nodup := by
    rw [locations_both]
    refine hx.nodup.append hy.nodup fun l hl hl' => ?_
    exact hapart l ((hx.mem_iff l).1 hl) ((hy.mem_iff l).1 hl')
  mem_iff l := by rw [locations_both, List.mem_append, hx.mem_iff, hy.mem_iff]

end Tells

/-- A decoder takes just what the grammar reads, and tells the places where a value breaks it. -/
structure Grammar.Decides (g : Grammar α) (decode : Value → Decoded α) (v : Value) : Prop where
  ok_iff : ∀ a, decode v = .ok a ↔ g.Reads v a
  tells : Tells (decode v) (g.Breaks v)

section Leaves

variable {decode : Value → Decoded α} {Reads : Value → α → Prop} {g : Grammar α} {v : Value}

/-- What a decoder comes to that tells at most the value as a whole. -/
theorem decides_plain (hok : ∀ a, decode v = .ok a ↔ Reads v a)
    (hcases : (∃ a, decode v = .ok a) ∨ ∃ kind w, decode v = defect kind w) :
    (Grammar.plain Reads).Decides decode v where
  ok_iff := hok
  tells := by
    rcases hcases with ⟨a, ha⟩ | ⟨kind, w, hdefect⟩
    · rw [ha]
      refine (tells_ok a).congr fun l => ⟨False.elim, fun hbreaks => ?_⟩
      exact hbreaks.2 a ((hok a).1 ha)
    · rw [hdefect]
      refine (tells_single ⟨[], kind, w⟩).congr fun l => ⟨fun hl => ⟨hl, fun a ha => ?_⟩, And.left⟩
      rw [← hok, hdefect] at ha
      exact nomatch ha

theorem decides_text (v : Value) : Grammar.text.Decides text v := by
  refine decides_plain (fun a => text_eq_ok_iff) ?_
  cases v with
  | string t => exact .inl ⟨t, rfl⟩
  | _ => exact .inr ⟨_, _, rfl⟩

theorem nonemptyText_string (t : Text) : nonemptyText (.string t) =
    if t.hasSurrogate then defect .notUnicode (.string t)
    else if t.isEmpty then defect .emptyText (.string t) else .ok t := rfl

theorem nonemptyText_eq_ok_iff {t : Text} :
    nonemptyText v = .ok t ↔ v = .string t ∧ t.WellFormed ∧ t ≠ [] := by
  constructor
  · intro h
    refine ⟨?_, nonemptyText_of_ok h⟩
    cases v with
    | string u =>
      rw [nonemptyText_string] at h
      split_ifs at h
      · exact nomatch h
      · exact nomatch h
      · rw [Except.ok.inj h]
    | _ => simp [nonemptyText, defect] at h
  · rintro ⟨rfl, hformed, hne⟩
    have hsurrogate : t.hasSurrogate = false := by
      simpa [Text.hasSurrogate, Text.WellFormed] using hformed
    simp [nonemptyText, hsurrogate, hne]

theorem decides_nonemptyText (v : Value) : Grammar.nonemptyText.Decides nonemptyText v := by
  refine decides_plain (fun a => nonemptyText_eq_ok_iff) ?_
  cases v with
  | string t =>
    rw [nonemptyText_string]
    split_ifs
    · exact .inr ⟨_, _, rfl⟩
    · exact .inr ⟨_, _, rfl⟩
    · exact .inl ⟨t, rfl⟩
  | _ => exact .inr ⟨_, _, rfl⟩

theorem flag_string (t : Text) : flag (.string t) =
    if t.hasSurrogate then defect .notUnicode (.string t)
    else match flagWords.lookup (t.map CodePoint.toLower) with
      | some b => .ok b
      | none => defect .unreadableFlag (.string t) := rfl

theorem flag_float (x : Binary64) : flag (.float x) = match x.toInt? with
    | some n => flagOfInt (.float x) n
    | none => defect .notFlag (.float x) := rfl

theorem flagOfInt_eq_ok_iff {n : Int} {b : Bool} :
    flagOfInt v n = .ok b ↔ n = 0 ∧ b = false ∨ n = 1 ∧ b = true := by
  unfold flagOfInt
  split_ifs with hzero hone
  · simp [hzero, eq_comm]
  · simp [hone, eq_comm]
  · simp [defect, hzero, hone]
  · simp [defect, hzero, hone]

theorem flagOfInt_cases (v : Value) (n : Int) :
    (∃ b, flagOfInt v n = .ok b) ∨ ∃ kind w, flagOfInt v n = defect kind w := by
  unfold flagOfInt
  split_ifs
  · exact .inl ⟨_, rfl⟩
  · exact .inl ⟨_, rfl⟩
  · exact .inr ⟨_, _, rfl⟩
  · exact .inr ⟨_, _, rfl⟩

theorem lookup_flagWords_iff {t : Text} {b : Bool} :
    flagWords.lookup t = some b ↔ (t, b) ∈ flagWords :=
  Assoc.lookup_eq_some_iff (by decide)

/-- The words for flags are ASCII, so no text with a lone surrogate is one. -/
theorem not_hasSurrogate_of_word {t : Text} {b : Bool}
    (h : (t.map CodePoint.toLower, b) ∈ flagWords) : t.hasSurrogate = false := by
  have hwords : ∀ p ∈ flagWords, p.1.hasSurrogate = false := by decide
  have hlower : ∀ c : CodePoint, c.toLower.isSurrogate = c.isSurrogate := by
    rintro (c | i) <;> rfl
  have hword := hwords _ h
  rw [Text.hasSurrogate, List.any_map] at hword
  simpa [Text.hasSurrogate, Function.comp_def, hlower] using hword

theorem flag_eq_ok_iff {b : Bool} : flag v = .ok b ↔ Grammar.Flag v b := by
  constructor
  · intro h
    cases v with
    | bool b' => rw [← Except.ok.inj h]; exact .bool b'
    | int n =>
      rcases flagOfInt_eq_ok_iff.1 h with ⟨rfl, rfl⟩ | ⟨rfl, rfl⟩
      · exact .zero
      · exact .one
    | float x =>
      rw [flag_float] at h
      split at h
      · rename_i n hn
        rcases flagOfInt_eq_ok_iff.1 h with ⟨rfl, rfl⟩ | ⟨rfl, rfl⟩
        · exact .floatZero x hn
        · exact .floatOne x hn
      · exact nomatch h
    | string t =>
      rw [flag_string] at h
      split_ifs at h
      · exact nomatch h
      split at h
      · rename_i b' hb'
        rw [← Except.ok.inj h]
        exact .word t b' (lookup_flagWords_iff.1 hb')
      · exact nomatch h
    | _ => exact nomatch h
  · rintro (b | _ | _ | ⟨x, hx⟩ | ⟨x, hx⟩ | ⟨t, b, ht⟩)
    · rfl
    · rfl
    · rfl
    · simp [flag, hx, flagOfInt]
    · simp [flag, hx, flagOfInt]
    · simp [flag, not_hasSurrogate_of_word ht, lookup_flagWords_iff.2 ht]

theorem decides_flag (v : Value) : Grammar.flag.Decides flag v := by
  refine decides_plain (fun b => flag_eq_ok_iff) ?_
  cases v with
  | bool b => exact .inl ⟨b, rfl⟩
  | int n => exact flagOfInt_cases _ n
  | float x =>
    rw [flag_float]
    split
    · exact flagOfInt_cases _ _
    · exact .inr ⟨_, _, rfl⟩
  | string t =>
    rw [flag_string]
    split_ifs
    · exact .inr ⟨_, _, rfl⟩
    · split
      · exact .inl ⟨_, rfl⟩
      · exact .inr ⟨_, _, rfl⟩
  | _ => exact .inr ⟨_, _, rfl⟩

theorem nullable_of_ne_null (h : v ≠ .null) : nullable decode v = (decode v).map some := by
  unfold nullable
  split
  · exact absurd rfl h
  · rfl

theorem decides_nullable (h : g.Decides decode v) : g.nullable.Decides (nullable decode) v := by
  by_cases hnull : v = .null
  · subst hnull
    refine ⟨fun a => ?_, (tells_ok none).congr fun l => ?_⟩
    · simp [nullable, Grammar.nullable, eq_comm]
    · simp [Grammar.nullable]
  · refine ⟨fun a => ?_, ?_⟩
    · rw [nullable_of_ne_null hnull, map_eq_ok_iff]
      simp [h.ok_iff, Grammar.nullable, hnull, eq_comm]
    · rw [nullable_of_ne_null hnull]
      exact (h.tells.map some).congr fun l => by simp [Grammar.nullable, hnull]

end Leaves

section Lists

variable {decode : Value → Decoded α} {g : Grammar α} {v : Value} {items : List Value}

theorem itemsFrom_eq_ok_iff {i : Nat} {as : List α} : itemsFrom decode i items = .ok as ↔
    List.Forall₂ (fun v a => decode v = .ok a) items as := by
  refine ⟨forall₂_of_itemsFrom, fun h => ?_⟩
  induction h generalizing i with
  | nil => rfl
  | cons hfirst _ ih =>
    rw [itemsFrom, map_eq_ok_iff]
    exact ⟨(_, _), Decoded.both_eq_ok_iff.2 ⟨Decoded.under_eq_ok_iff.2 hfirst, ih⟩, rfl⟩

theorem arrayOf_eq_ok_iff {otherwise : Kind} {as : List α} : arrayOf otherwise decode v = .ok as ↔
    ∃ items, v = .array items ∧ List.Forall₂ (fun v a => decode v = .ok a) items as := by
  refine ⟨exists_of_arrayOf, ?_⟩
  rintro ⟨items, rfl, h⟩
  exact itemsFrom_eq_ok_iff.2 h

theorem tells_itemsFrom {Breaks : Value → List Step → Prop}
    (h : ∀ v ∈ items, Tells (decode v) (Breaks v)) (i : Nat) :
    Tells (itemsFrom decode i items) fun l => ∃ j v, items[j]? = some v ∧
      ∃ l', Breaks v l' ∧ l = .index (i + j) :: l' := by
  induction items generalizing i with
  | nil => exact (tells_ok []).congr fun l => by simp
  | cons v items ih =>
    have hfirst := (h v List.mem_cons_self).under (.index i)
    have hrest := ih (fun w hw => h w (List.mem_cons_of_mem _ hw)) (i + 1)
    refine ((hfirst.both hrest ?_).map _).congr fun l => ?_
    · rintro _ ⟨l', -, rfl⟩ ⟨j, w, -, l'', -, heq⟩
      simp only [List.cons.injEq, Step.index.injEq] at heq
      omega
    · constructor
      · rintro (⟨l', hl', rfl⟩ | ⟨j, w, hw, l', hl', rfl⟩)
        · exact ⟨0, v, rfl, l', hl', rfl⟩
        · exact ⟨j + 1, w, by simpa using hw, l', hl', by rw [Nat.add_assoc, Nat.add_comm 1 j]⟩
      · rintro ⟨j, w, hw, l', hl', rfl⟩
        cases j with
        | zero =>
          obtain rfl : v = w := by simpa using hw
          exact .inl ⟨l', hl', rfl⟩
        | succ j =>
          exact .inr ⟨j, w, by simpa using hw, l', hl', by rw [Nat.add_assoc, Nat.add_comm 1 j]⟩

theorem forall₂_congr_of_mem {R S : Value → α → Prop} {as : List α}
    (h : ∀ v ∈ items, ∀ a, R v a ↔ S v a) : List.Forall₂ R items as ↔ List.Forall₂ S items as := by
  induction items generalizing as with
  | nil => simp [List.forall₂_nil_left_iff]
  | cons v items ih =>
    have hrest {bs : List α} : List.Forall₂ R items bs ↔ List.Forall₂ S items bs :=
      ih fun w hw => h w (List.mem_cons_of_mem _ hw)
    simp only [List.forall₂_cons_left_iff, h v List.mem_cons_self, hrest]

theorem decides_arrayOf (otherwise : Kind) (h : ∀ items, v = .array items → ∀ w ∈ items,
    g.Decides decode w) : g.listOf.Decides (arrayOf otherwise decode) v := by
  cases v with
  | array items =>
    have hitems := h items rfl
    refine ⟨fun as => ?_, (tells_itemsFrom (fun w hw => (hitems w hw).tells) 0).congr fun l => ?_⟩
    · rw [arrayOf_eq_ok_iff]
      simp only [Value.array.injEq, exists_eq_left', Grammar.listOf]
      exact forall₂_congr_of_mem fun w hw => (hitems w hw).ok_iff
    · constructor
      · rintro ⟨j, w, hw, l', hl', rfl⟩
        rw [Nat.zero_add]
        exact .item hw hl'
      · rintro (hnot | ⟨hw, hl'⟩)
        · exact absurd rfl (hnot items)
        · exact ⟨_, _, hw, _, hl', by rw [Nat.zero_add]⟩
  | _ =>
    refine ⟨fun as => ?_, (tells_single ⟨[], otherwise, _⟩).congr fun l => ?_⟩
    · simp [arrayOf, defect, Grammar.listOf]
    · constructor
      · rintro rfl
        exact .notList (by simp)
      · rintro ⟨⟩
        rfl

end Lists

end BundleGraph.Schema
