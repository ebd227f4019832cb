import BundleGraph.Proofs.Assoc
import BundleGraph.Proofs.First
import BundleGraph.Proofs.Schema.Decode

/-!
# Fields of a record

A field is given under the first of its spellings that is a key of the object, so a decoder looks at
one member for it. If no two spellings of a field are keys, any spelling found is the one that
counts. An object without members beyond the fields is just one that is orderly: its keys are
spellings of the fields, and no field is spelled in two ways.
-/
namespace BundleGraph.Schema

open Json (Value)

namespace Field

def spellings (f : Field) : List Text := f.name :: f.others

/-- No spelling of the field is a key. -/
def IsAbsent (f : Field) (members : Members) : Prop := ∀ key ∈ f.spellings, key ∉ Assoc.keys members

/-- The field is given as `v` under the first of its spellings that is a key. -/
def GivenAs (f : Field) (members : Members) (key : Text) (v : Value) : Prop :=
  IsFirst (fun k => k ∈ Assoc.keys members) f.spellings key ∧ members.lookup key = some v

/-- No two spellings of the field are keys. -/
def SpelledOnce (f : Field) (members : Members) : Prop :=
  ∀ key ∈ f.spellings, ∀ key' ∈ f.spellings,
    key ∈ Assoc.keys members → key' ∈ Assoc.keys members → key = key'

/-- A value that stands for `a` is given under some spelling of the field. -/
def Gives {α : Type} (f : Field) (members : Members) (Reads : Value → α → Prop) (a : α) : Prop :=
  ∃ key ∈ f.spellings, ∃ v, members.lookup key = some v ∧ Reads v a

/-- The field is left out and `a` is the default, or a value that stands for `a` is given. -/
def GivesOr {α : Type} (f : Field) (default : α) (members : Members) (Reads : Value → α → Prop)
    (a : α) : Prop :=
  f.IsAbsent members ∧ a = default ∨ f.Gives members Reads a

variable {α : Type} {a default : α} {key : Text} {v : Value} {members : Members}
variable {f : Field} {decode : Value → Decoded α} {Reads : Value → α → Prop}

theorem find?_eq_some_iff : f.find? members = some (key, v) ↔ f.GivenAs members key v := by
  have hsome {k : Text} : ((members.lookup k).map (k, ·)).isSome ↔ k ∈ Assoc.keys members := by
    rw [Option.isSome_map, Assoc.isSome_lookup_iff]
  unfold find? GivenAs spellings
  rw [findSome?_eq_some_iff_isFirst]
  simp only [hsome, Option.map_eq_some_iff, Prod.mk.injEq]
  constructor
  · rintro ⟨k, hfirst, w, hlookup, rfl, rfl⟩
    exact ⟨hfirst, hlookup⟩
  · rintro ⟨hfirst, hlookup⟩
    exact ⟨key, hfirst, v, hlookup, rfl, rfl⟩

theorem find?_eq_none_iff : f.find? members = none ↔ f.IsAbsent members := by
  simp only [find?, List.findSome?_eq_none_iff, Option.map_eq_none_iff, Assoc.lookup_eq_none_iff]
  rfl

theorem find?_single (name : Text) (members : Members) :
    (Field.mk name []).find? members = (members.lookup name).map (name, ·) := by
  cases hlookup : members.lookup name <;> simp [find?, hlookup]

theorem givenAs_single_iff {name : Text} : (Field.mk name []).GivenAs members key v ↔
    members.lookup name = some v ∧ key = name := by
  rw [← find?_eq_some_iff, find?_single, Option.map_eq_some_iff]
  constructor
  · rintro ⟨w, hlookup, heq⟩
    obtain ⟨rfl, rfl⟩ := Prod.mk.inj heq
    exact ⟨hlookup, rfl⟩
  · rintro ⟨hlookup, rfl⟩
    exact ⟨v, hlookup, rfl⟩

theorem isAbsent_single_iff {name : Text} :
    (Field.mk name []).IsAbsent members ↔ members.lookup name = none := by
  rw [← find?_eq_none_iff, find?_single, Option.map_eq_none_iff]

theorem find?_insert {key : Text} (h : key ∉ f.spellings) (v : Value) (members : Members) :
    f.find? (Assoc.insert key v members) = f.find? members := by
  have hlookup : ∀ k ∈ f.spellings,
      (Assoc.insert key v members).lookup k = members.lookup k := by
    intro k hk
    rw [Assoc.lookup_insert, if_neg]
    rintro rfl
    exact h hk
  change f.spellings.findSome? _ = f.spellings.findSome? _
  generalize f.spellings = ks at hlookup
  induction ks with
  | nil => rfl
  | cons k ks ih =>
    rw [List.forall_mem_cons] at hlookup
    rw [List.findSome?_cons, List.findSome?_cons, hlookup.1, ih hlookup.2]

namespace GivenAs

theorem mem_spellings (h : f.GivenAs members key v) : key ∈ f.spellings := h.1.mem

theorem mem_keys (h : f.GivenAs members key v) : key ∈ Assoc.keys members := h.1.holds

theorem not_isAbsent (h : f.GivenAs members key v) : ¬f.IsAbsent members :=
  fun habsent => habsent key h.mem_spellings h.mem_keys

theorem unique {key' : Text} {v' : Value} (h : f.GivenAs members key v)
    (h' : f.GivenAs members key' v') : key = key' ∧ v = v' := by
  have heq := find?_eq_some_iff.2 h
  rw [find?_eq_some_iff.2 h', Option.some.injEq, Prod.mk.injEq] at heq
  exact ⟨heq.1.symm, heq.2.symm⟩

end GivenAs

/-- Where a field is spelled once, its spelling that is a key is the one that counts. -/
theorem givenAs_of_spelledOnce (h : f.SpelledOnce members) (hkey : key ∈ f.spellings)
    (hv : members.lookup key = some v) : f.GivenAs members key v := by
  have hmem := Assoc.mem_keys_of_lookup hv
  obtain ⟨first, hfirst⟩ := exists_isFirst_iff.2 ⟨key, hkey, hmem⟩
  obtain rfl := h key hkey first hfirst.mem hmem hfirst.holds
  exact ⟨hfirst, hv⟩

theorem gives_iff (h : f.SpelledOnce members) :
    f.Gives members Reads a ↔ ∃ key v, f.GivenAs members key v ∧ Reads v a := by
  constructor
  · rintro ⟨key, hkey, v, hv, ha⟩
    exact ⟨key, v, givenAs_of_spelledOnce h hkey hv, ha⟩
  · rintro ⟨key, v, hgiven, ha⟩
    exact ⟨key, hgiven.mem_spellings, v, hgiven.2, ha⟩

theorem required_eq_ok_iff : f.required decode members = .ok a ↔
    ∃ key v, f.GivenAs members key v ∧ decode v = .ok a := by
  unfold required
  split
  · rename_i key v hfind
    have hgiven := find?_eq_some_iff.1 hfind
    rw [Decoded.under_eq_ok_iff]
    constructor
    · exact fun h => ⟨key, v, hgiven, h⟩
    · rintro ⟨key', v', hgiven', h⟩
      obtain ⟨-, rfl⟩ := hgiven.unique hgiven'
      exact h
  · rename_i hfind
    have habsent := find?_eq_none_iff.1 hfind
    constructor
    · exact nofun
    · rintro ⟨key, v, hgiven, -⟩
      exact absurd habsent hgiven.not_isAbsent

theorem optional_eq_ok_iff : f.optional default decode members = .ok a ↔
    (f.IsAbsent members ∧ a = default) ∨ ∃ key v, f.GivenAs members key v ∧ decode v = .ok a := by
  unfold optional
  split
  · rename_i key v hfind
    have hgiven := find?_eq_some_iff.1 hfind
    rw [Decoded.under_eq_ok_iff]
    constructor
    · exact fun h => .inr ⟨key, v, hgiven, h⟩
    · rintro (⟨habsent, -⟩ | ⟨key', v', hgiven', h⟩)
      · exact absurd habsent hgiven.not_isAbsent
      · obtain ⟨-, rfl⟩ := hgiven.unique hgiven'
        exact h
  · rename_i hfind
    have habsent := find?_eq_none_iff.1 hfind
    constructor
    · exact fun h => .inl ⟨habsent, (Except.ok.inj h).symm⟩
    · rintro (⟨-, rfl⟩ | ⟨key, v, hgiven, -⟩)
      · rfl
      · exact absurd habsent hgiven.not_isAbsent

theorem required_of_find? (h : f.find? members = some (key, v)) (hv : decode v = .ok a) :
    f.required decode members = .ok a :=
  required_eq_ok_iff.2 ⟨key, v, find?_eq_some_iff.1 h, hv⟩

theorem optional_of_find? (h : f.find? members = some (key, v)) (hv : decode v = .ok a) :
    f.optional default decode members = .ok a :=
  optional_eq_ok_iff.2 (.inr ⟨key, v, find?_eq_some_iff.1 h, hv⟩)

theorem required_insert (hkey : key ∉ f.spellings) :
    f.required decode (Assoc.insert key v members) = .ok a ↔ f.required decode members = .ok a := by
  simp only [required_eq_ok_iff, ← find?_eq_some_iff, find?_insert hkey]

theorem optional_insert (hkey : key ∉ f.spellings) :
    f.optional default decode (Assoc.insert key v members) = f.optional default decode members := by
  rw [optional, optional, find?_insert hkey]

end Field

/-- Every key is a spelling of a field, and no field is spelled in two ways. -/
structure Orderly (fields : List Field) (members : Members) : Prop where
  known : ∀ key ∈ Assoc.keys members, ∃ f ∈ fields, key ∈ f.spellings
  spelledOnce : ∀ f ∈ fields, f.SpelledOnce members

variable {α : Type} {a : α} {key : Text} {v : Value} {members : Members} {fields : List Field}
variable {title : Text} {decode : Members → Decoded α}

theorem mem_unusedMembers_iff {m : Text × Value} : m ∈ unusedMembers fields members ↔
    m ∈ members ∧ ∀ f ∈ fields, ∀ v, ¬f.GivenAs members m.1 v := by
  simp only [unusedMembers, List.mem_filter, List.mem_filterMap, Option.map_eq_some_iff,
    decide_eq_true_eq, not_exists, not_and, ← Field.find?_eq_some_iff, Prod.forall]
  grind

/-- A key belongs to one field only, if no two fields share a spelling. -/
theorem eq_of_mem_spellings {f g : Field} (h : (fields.flatMap Field.spellings).Nodup)
    (hf : f ∈ fields) (hg : g ∈ fields) (hkey : key ∈ f.spellings) (hkey' : key ∈ g.spellings) :
    f = g := by
  by_contra hne
  have : Std.Symm (Function.onFun List.Disjoint Field.spellings) := ⟨fun _ _ h => h.symm⟩
  have hdisjoint := (List.nodup_flatMap.1 h).2.forall hf hg hne
  exact hdisjoint hkey hkey'

theorem unusedMembers_eq_nil_iff (h : (fields.flatMap Field.spellings).Nodup) :
    unusedMembers fields members = [] ↔ Orderly fields members := by
  have hused : unusedMembers fields members = [] ↔
      ∀ key ∈ Assoc.keys members, ∃ f ∈ fields, ∃ v, f.GivenAs members key v := by
    simp only [List.eq_nil_iff_forall_not_mem, mem_unusedMembers_iff, Assoc.keys, List.mem_map,
      forall_exists_index, and_imp, forall_apply_eq_imp_iff₂, not_and, not_forall, not_not,
      exists_prop]
  rw [hused]
  constructor
  · intro hall
    refine ⟨fun key hkey => ?_, fun f hf key hkey key' hkey' hmem hmem' => ?_⟩
    · obtain ⟨f, hf, v, hgiven⟩ := hall key hkey
      exact ⟨f, hf, hgiven.mem_spellings⟩
    · obtain ⟨g, hg, v, hgiven⟩ := hall key hmem
      obtain ⟨g', hg', v', hgiven'⟩ := hall key' hmem'
      obtain rfl := eq_of_mem_spellings h hf hg hkey hgiven.mem_spellings
      obtain rfl := eq_of_mem_spellings h hf hg' hkey' hgiven'.mem_spellings
      exact (hgiven.unique hgiven').1
  · intro horderly key hkey
    obtain ⟨f, hf, hspelling⟩ := horderly.known key hkey
    obtain ⟨v, hv⟩ := Option.isSome_iff_exists.1 (Assoc.isSome_lookup_iff.2 hkey)
    exact ⟨f, hf, v, Field.givenAs_of_spelledOnce (horderly.spelledOnce f hf) hspelling hv⟩

theorem noOthers_eq_ok_iff :
    noOthers fields members = .ok () ↔ unusedMembers fields members = [] := by
  unfold noOthers
  split <;> simp_all

theorem closedRecord_eq_ok_iff : closedRecord title fields decode v = .ok a ↔
    ∃ members, v = .object members ∧ (∀ key ∈ Assoc.keys members, ¬key.hasSurrogate) ∧
      decode members = .ok a ∧ unusedMembers fields members = [] := by
  cases v with
  | object members =>
    have hkeys : (∀ key ∈ Assoc.keys members, ¬key.hasSurrogate) ↔
        (members.find? fun m => Text.hasSurrogate m.1) = none := by
      simp [Assoc.keys, List.find?_eq_none]
    simp only [Value.object.injEq, exists_eq_left', hkeys, closedRecord]
    cases members.find? fun m => Text.hasSurrogate m.1 with
    | some m => simp [defect]
    | none =>
      simp only [true_and, map_eq_ok_iff, Prod.exists, Decoded.both_eq_ok_iff,
        ← noOthers_eq_ok_iff]
      constructor
      · rintro ⟨a', u, ⟨ha, hothers⟩, rfl⟩
        exact ⟨ha, hothers⟩
      · rintro ⟨ha, hothers⟩
        exact ⟨a, (), ⟨ha, hothers⟩, rfl⟩
  | _ => simp [closedRecord, defect]

end BundleGraph.Schema
