import BundleGraph.Proofs.Schema.Field
import BundleGraph.Proofs.Schema.Grammar

/-!
# Grammars of records

A record has slots for its fields. An object breaks it where a field is missing that must be given,
where a value is wrong that is given for a field, and at every key that no field takes up. These
places are apart from one another, so a decoder that goes through the fields tells each of them
once.
-/
namespace BundleGraph.Schema

open Json (Value)

namespace Grammar

variable {α : Type}

/-- A field of a record: whether it must be given, and where a value given for it is wrong. -/
structure Slot where
  field : Field
  required : Bool
  Breaks : Value → List Step → Prop

/-- The places at which an object breaks what a slot asks for. -/
inductive Slot.BreaksIn (s : Slot) (members : Members) : List Step → Prop
  | missing (h : s.required) (absent : s.field.IsAbsent members) :
      s.BreaksIn members [.key s.field.name]
  | value {key : Text} {v : Value} {l : List Step} (given : s.field.GivenAs members key v)
      (h : s.Breaks v l) : s.BreaksIn members (.key key :: l)

/-- The places at which a value is no record of the slots. A key without a UTF-8 form makes the
object wrong as a whole. -/
inductive RecordBreaks (slots : List Slot) : Value → List Step → Prop
  | notObject {v : Value} (h : ∀ members, v ≠ .object members) : RecordBreaks slots v []
  | surrogate {members : Members} {key : Text} (hkey : key ∈ Assoc.keys members)
      (h : key.hasSurrogate) : RecordBreaks slots (.object members) []
  | slot {members : Members} {s : Slot} {l : List Step}
      (formed : ∀ key ∈ Assoc.keys members, ¬key.hasSurrogate) (hs : s ∈ slots)
      (h : s.BreaksIn members l) : RecordBreaks slots (.object members) l
  | unused {members : Members} {key : Text}
      (formed : ∀ key ∈ Assoc.keys members, ¬key.hasSurrogate) (hkey : key ∈ Assoc.keys members)
      (h : ∀ s ∈ slots, ∀ v, ¬s.field.GivenAs members key v) :
      RecordBreaks slots (.object members) [.key key]

def record (slots : List Slot) (Content : Members → α → Prop) : Grammar α where
  Reads v a := ∃ members, v = .object members ∧ Orderly (slots.map Slot.field) members ∧
    Content members a
  Breaks := RecordBreaks slots

end Grammar

open Grammar (Slot RecordBreaks)

variable {α β : Type} {x : Decoded α} {y : Decoded β} {decode : Value → Decoded α} {f : Field}
variable {s : Slot} {slots : List Slot} {v : Value} {members : Members} {fields : List Field}
variable {l : List Step}

theorem breaksIn_iff {Breaks : Value → List Step → Prop} {required : Bool} :
    (Slot.mk f required Breaks).BreaksIn members l ↔
      (required ∧ f.IsAbsent members ∧ l = [.key f.name]) ∨
        ∃ key v, f.GivenAs members key v ∧ ∃ l', Breaks v l' ∧ l = .key key :: l' := by
  constructor
  · rintro (⟨h, absent⟩ | ⟨given, h⟩)
    · exact .inl ⟨h, absent, rfl⟩
    · exact .inr ⟨_, _, given, _, h, rfl⟩
  · rintro (⟨h, absent, rfl⟩ | ⟨key, v, given, l', h, rfl⟩)
    · exact .missing h absent
    · exact .value given h

/-- A field that is given tells where its value is wrong, under the spelling in use. -/
theorem tells_given {key : Text} {Breaks : Value → List Step → Prop} {required : Bool}
    (given : f.GivenAs members key v) (h : Tells (decode v) (Breaks v)) :
    Tells ((decode v).under (.key key)) ((Slot.mk f required Breaks).BreaksIn members) := by
  refine (h.under (.key key)).congr fun l => ?_
  rw [breaksIn_iff]
  constructor
  · exact fun hl => .inr ⟨key, v, given, hl⟩
  · rintro (⟨-, absent, -⟩ | ⟨key', v', given', hl⟩)
    · exact absurd absent given.not_isAbsent
    · obtain ⟨rfl, rfl⟩ := given.unique given'
      exact hl

theorem tells_optional (default : α) {Breaks : Value → List Step → Prop}
    (h : ∀ key v, f.GivenAs members key v → Tells (decode v) (Breaks v)) :
    Tells (f.optional default decode members) ((Slot.mk f false Breaks).BreaksIn members) := by
  unfold Field.optional
  split
  · rename_i key v hfind
    have given := Field.find?_eq_some_iff.1 hfind
    exact tells_given given (h key v given)
  · rename_i hfind
    refine (tells_ok default).congr fun l => ⟨False.elim, fun hl => ?_⟩
    obtain ⟨hrequired, -⟩ | ⟨key, v, given, -⟩ := breaksIn_iff.1 hl
    · exact absurd hrequired (by simp)
    · exact given.not_isAbsent (Field.find?_eq_none_iff.1 hfind)

theorem tells_required {Breaks : Value → List Step → Prop}
    (h : ∀ key v, f.GivenAs members key v → Tells (decode v) (Breaks v)) :
    Tells (f.required decode members) ((Slot.mk f true Breaks).BreaksIn members) := by
  unfold Field.required
  split
  · rename_i key v hfind
    have given := Field.find?_eq_some_iff.1 hfind
    exact tells_given given (h key v given)
  · rename_i hfind
    have absent := Field.find?_eq_none_iff.1 hfind
    refine (tells_single _).congr fun l => ?_
    rw [breaksIn_iff]
    constructor
    · exact fun hl => .inl ⟨rfl, absent, hl⟩
    · rintro (⟨-, -, hl⟩ | ⟨key, v, given, -⟩)
      · exact hl
      · exact absurd absent given.not_isAbsent

theorem required_iff_gives {g : Grammar α} {a : α} (h : f.SpelledOnce members)
    (hdecides : ∀ key v, f.GivenAs members key v → g.Decides decode v) :
    f.required decode members = .ok a ↔ f.Gives members g.Reads a := by
  rw [Field.required_eq_ok_iff, Field.gives_iff h]
  exact exists₂_congr fun key v => and_congr_right fun given => (hdecides key v given).ok_iff a

theorem optional_iff_givesOr {g : Grammar α} {a : α} (default : α) (h : f.SpelledOnce members)
    (hdecides : ∀ key v, f.GivenAs members key v → g.Decides decode v) :
    f.optional default decode members = .ok a ↔ f.GivesOr default members g.Reads a := by
  rw [Field.optional_eq_ok_iff, Field.GivesOr, Field.gives_iff h]
  refine or_congr_right (exists₂_congr fun key v => and_congr_right fun given => ?_)
  exact (hdecides key v given).ok_iff a

/-- What a slot tells stands under a spelling of its field. -/
theorem Grammar.Slot.BreaksIn.exists_spelling (h : s.BreaksIn members l) :
    ∃ key ∈ s.field.spellings, ∃ l', l = .key key :: l' := by
  cases h with
  | missing => exact ⟨_, List.mem_cons_self, _, rfl⟩
  | value given => exact ⟨_, given.mem_spellings, _, rfl⟩

/-- Some slot tells that something is wrong at a place of the object. -/
def AnyBreaks (slots : List Slot) (members : Members) (l : List Step) : Prop :=
  ∃ s ∈ slots, s.BreaksIn members l

theorem tells_slot (h : Tells x (s.BreaksIn members)) : Tells x (AnyBreaks [s] members) :=
  h.congr fun l => by simp [AnyBreaks]

theorem tells_slots (hx : Tells x (s.BreaksIn members)) (hy : Tells y (AnyBreaks slots members))
    (hspellings : (((s :: slots).map Slot.field).flatMap Field.spellings).Nodup) :
    Tells (x.both y) (AnyBreaks (s :: slots) members) := by
  have hapart : ∀ t ∈ slots, s.field.spellings.Disjoint t.field.spellings := fun t ht =>
    (List.pairwise_cons.1 (List.nodup_flatMap.1 hspellings).2).1 _ (List.mem_map_of_mem ht)
  refine (hx.both hy ?_).congr fun l => by simp [AnyBreaks]
  rintro l hs ⟨t, ht, htl⟩
  obtain ⟨key, hkey, l', rfl⟩ := hs.exists_spelling
  obtain ⟨key', hkey', l'', heq⟩ := htl.exists_spelling
  obtain ⟨rfl, -⟩ : key = key' ∧ l' = l'' := by simpa using heq
  exact hapart t ht hkey hkey'

theorem tells_noOthers (fields : List Field) (hkeys : (Assoc.keys members).Nodup) :
    Tells (noOthers fields members) fun l => ∃ key ∈ Assoc.keys members,
      (∀ f ∈ fields, ∀ v, ¬f.GivenAs members key v) ∧ l = [.key key] := by
  have hlocations : (noOthers fields members).locations =
      (Assoc.keys (unusedMembers fields members)).map fun key => [.key key] := by
    unfold noOthers
    split
    · rename_i hnil
      rw [hnil]
      rfl
    · simp [Decoded.locations, Assoc.keys]
  refine ⟨?_, ?_, fun l => ?_⟩
  · unfold noOthers
    split <;> simp_all
  · rw [hlocations]
    have hsub : (Assoc.keys (unusedMembers fields members)).Sublist (Assoc.keys members) :=
      List.filter_sublist.map Prod.fst
    exact (hkeys.sublist hsub).map fun _ _ heq => by simpa using heq
  · rw [hlocations]
    simp only [Assoc.keys, List.mem_map, mem_unusedMembers_iff, exists_exists_and_eq_and]
    constructor
    · rintro ⟨m, ⟨hm, hunused⟩, rfl⟩
      exact ⟨m, hm, hunused, rfl⟩
    · rintro ⟨m, hm, hunused, rfl⟩
      exact ⟨m, ⟨hm, hunused⟩, rfl⟩

theorem tells_notObject (h : ∀ members, v ≠ .object members) (kind : Kind) (w : Value) :
    Tells (defect kind w : Decoded α) (RecordBreaks slots v) := by
  refine (tells_single ⟨[], kind, w⟩).congr fun l => ?_
  constructor
  · rintro rfl
    exact .notObject h
  · rintro (_ | _ | _ | _)
    · rfl
    · exact absurd rfl (h _)
    · exact absurd rfl (h _)
    · exact absurd rfl (h _)

theorem tells_surrogate {key : Text} (hkey : key ∈ Assoc.keys members) (h : key.hasSurrogate)
    (kind : Kind) (w : Value) :
    Tells (defect kind w : Decoded α) (RecordBreaks slots (.object members)) := by
  refine (tells_single ⟨[], kind, w⟩).congr fun l => ?_
  constructor
  · rintro rfl
    exact .surrogate hkey h
  · rintro (hnot | _ | ⟨formed, -, -⟩ | ⟨formed, -, -⟩)
    · exact absurd rfl (hnot members)
    · rfl
    · exact absurd h (formed key hkey)
    · exact absurd h (formed key hkey)

/-- The slots and the keys that are left over never tell the same place: a slot tells of a key in
use or of a spelling that is no key. -/
theorem tells_members (hfields : slots.map Slot.field = fields)
    (formed : ∀ key ∈ Assoc.keys members, ¬key.hasSurrogate) (hkeys : (Assoc.keys members).Nodup)
    (h : Tells x (AnyBreaks slots members)) :
    Tells (x.both (noOthers fields members)) (RecordBreaks slots (.object members)) := by
  have hunused {key : Text} : (∀ f ∈ fields, ∀ v, ¬f.GivenAs members key v) ↔
      ∀ s ∈ slots, ∀ v, ¬s.field.GivenAs members key v := by
    simp [← hfields]
  refine (h.both (tells_noOthers fields hkeys) ?_).congr fun l => ?_
  · rintro l ⟨s, hs, hl⟩ ⟨key, hkey, hnone, rfl⟩
    obtain ⟨-, absent, heq⟩ | ⟨key', v, given, l', -, heq⟩ := breaksIn_iff.1 hl
    · obtain rfl : key = s.field.name := by simpa using heq
      exact absent _ List.mem_cons_self hkey
    · obtain ⟨rfl, -⟩ : key = key' ∧ [] = l' := by simpa using heq
      exact hunused.1 hnone s hs v given
  · constructor
    · rintro (⟨s, hs, hl⟩ | ⟨key, hkey, hnone, rfl⟩)
      · exact .slot formed hs hl
      · exact .unused formed hkey (hunused.1 hnone)
    · rintro (hnot | ⟨hkey, hsurrogate⟩ | ⟨-, hs, hl⟩ | ⟨-, hkey, hnone⟩)
      · exact absurd rfl (hnot members)
      · exact absurd hsurrogate (formed _ hkey)
      · exact .inl ⟨_, hs, hl⟩
      · exact .inr ⟨_, hkey, hunused.2 hnone, rfl⟩

/-- A record is decided if its members are: what they hold where the object is orderly, and where
they are wrong in any object. -/
theorem decides_closedRecord {title : Text} {decode : Members → Decoded α}
    {Content : Members → α → Prop} (hfields : slots.map Slot.field = fields)
    (hspellings : (fields.flatMap Field.spellings).Nodup)
    (hformed : ∀ key ∈ fields.flatMap Field.spellings, ¬key.hasSurrogate)
    (hkeys : ∀ members, v = .object members → (Assoc.keys members).Nodup)
    (hok : ∀ members, v = .object members → Orderly fields members →
      ∀ a, decode members = .ok a ↔ Content members a)
    (htells : ∀ members, v = .object members → Tells (decode members) (AnyBreaks slots members)) :
    (Grammar.record slots Content).Decides (closedRecord title fields decode) v := by
  refine ⟨fun a => ?_, ?_⟩
  · rw [closedRecord_eq_ok_iff]
    simp only [Grammar.record, hfields, unusedMembers_eq_nil_iff hspellings]
    constructor
    · rintro ⟨members, hv, -, ha, horderly⟩
      exact ⟨members, hv, horderly, (hok members hv horderly a).1 ha⟩
    · rintro ⟨members, hv, horderly, ha⟩
      refine ⟨members, hv, fun key hkey => ?_, (hok members hv horderly a).2 ha, horderly⟩
      obtain ⟨f, hf, hspelling⟩ := horderly.known key hkey
      exact hformed key (List.mem_flatMap.2 ⟨f, hf, hspelling⟩)
  · cases v with
    | object members =>
      cases hfind : members.find? fun m => Text.hasSurrogate m.1 with
      | some m =>
        have hm : m.1 ∈ Assoc.keys members := List.mem_map_of_mem (List.mem_of_find?_eq_some hfind)
        have hsurrogate := List.find?_some hfind
        simp only [closedRecord, hfind]
        exact tells_surrogate hm hsurrogate _ _
      | none =>
        have formed : ∀ key ∈ Assoc.keys members, ¬key.hasSurrogate := by
          simpa [Assoc.keys, List.find?_eq_none] using hfind
        simp only [closedRecord, hfind]
        exact (tells_members hfields formed (hkeys members rfl) (htells members rfl)).map Prod.fst
    | _ => exact tells_notObject (by simp) _ _

end BundleGraph.Schema
