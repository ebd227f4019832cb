import BundleGraph.Bundle.Descriptor
import BundleGraph.Proofs.Json.Keyed
import BundleGraph.Proofs.Schema.Record

/-!
# The grammar of bundle descriptors

Which JSON values describe a bundle, said without the order in which a decoder goes about it, and
the places at which any other value fails to. A field is wrong where it is given, or at its
preferred spelling if it is missing; a second spelling of a field is a key like any other that has
no business there.
-/
namespace BundleGraph

open Json (Value)
open Schema (Decoded Field Grammar Members Tells)
open Schema.Grammar (Slot)

namespace Descriptor

variable {v w : Value} {members : Members} {f : Field} {key : Text}

namespace Entry

structure Content (members : Members) (e : Entry) : Prop where
  name : Manifest.nameField.Gives members Grammar.nonemptyText.Reads e.name
  base : baseField.GivesOr none members Grammar.flag.nullable.Reads e.base
  onDemand : Manifest.onDemandField.GivesOr false members Grammar.flag.Reads e.onDemand
  splitId : Manifest.splitIdField.GivesOr none members Grammar.text.nullable.Reads e.splitId
  usesSplits : Manifest.usesSplitsField.GivesOr [] members Grammar.text.listOf.Reads e.usesSplits

def slots : List Slot :=
  [⟨Manifest.nameField, true, Grammar.nonemptyText.Breaks⟩,
    ⟨baseField, false, Grammar.flag.nullable.Breaks⟩,
    ⟨Manifest.onDemandField, false, Grammar.flag.Breaks⟩,
    ⟨Manifest.splitIdField, false, Grammar.text.nullable.Breaks⟩,
    ⟨Manifest.usesSplitsField, false, Grammar.text.listOf.Breaks⟩]

def grammar : Grammar Entry := .record slots Content

theorem decides (hkeys : ∀ members, v = .object members → (Assoc.keys members).Nodup) :
    grammar.Decides decode v := by
  have flagOrNull (w : Value) := Schema.decides_nullable (Schema.decides_flag w)
  have textOrNull (w : Value) := Schema.decides_nullable (Schema.decides_text w)
  have texts (w : Value) := Schema.decides_arrayOf (v := w) .notList
    fun _ _ w _ => Schema.decides_text w
  refine Schema.decides_closedRecord rfl (by decide) (by decide) hkeys ?_ ?_
  · rintro members - horderly e
    have hname a := Schema.required_iff_gives (a := a)
      (horderly.spelledOnce Manifest.nameField (by simp [fields]))
      fun _ w _ => Schema.decides_nonemptyText w
    have hbase a := Schema.optional_iff_givesOr (a := a) none
      (horderly.spelledOnce baseField (by simp [fields])) fun _ w _ => flagOrNull w
    have hdemand a := Schema.optional_iff_givesOr (a := a) false
      (horderly.spelledOnce Manifest.onDemandField (by simp [fields]))
      fun _ w _ => Schema.decides_flag w
    have hsplit a := Schema.optional_iff_givesOr (a := a) none
      (horderly.spelledOnce Manifest.splitIdField (by simp [fields])) fun _ w _ => textOrNull w
    have huses a := Schema.optional_iff_givesOr (a := a) []
      (horderly.spelledOnce Manifest.usesSplitsField (by simp [fields])) fun _ w _ => texts w
    simp only [Schema.map_eq_ok_iff, Prod.exists, Schema.Decoded.both_eq_ok_iff, hname, hbase,
      hdemand, hsplit, huses]
    constructor
    · rintro ⟨name, base, onDemand, splitId, usesSplits, ⟨h₁, h₂, h₃, h₄, h₅⟩, rfl⟩
      exact ⟨h₁, h₂, h₃, h₄, h₅⟩
    · rintro ⟨h₁, h₂, h₃, h₄, h₅⟩
      exact ⟨_, _, _, _, _, ⟨h₁, h₂, h₃, h₄, h₅⟩, rfl⟩
  · rintro members -
    refine Tells.map ?_ _
    refine Schema.tells_slots (Schema.tells_required fun _ w _ =>
      (Schema.decides_nonemptyText w).tells) ?_ (by decide)
    refine Schema.tells_slots (Schema.tells_optional none fun _ w _ =>
      (flagOrNull w).tells) ?_ (by decide)
    refine Schema.tells_slots (Schema.tells_optional false fun _ w _ =>
      (Schema.decides_flag w).tells) ?_ (by decide)
    refine Schema.tells_slots (Schema.tells_optional none fun _ w _ =>
      (textOrNull w).tells) ?_ (by decide)
    exact Schema.tells_slot (Schema.tells_optional [] fun _ w _ => (texts w).tells)

end Entry

structure Content (members : Members) (d : Descriptor) : Prop where
  bundle : bundleField.GivesOr none members Grammar.text.nullable.Reads d.bundle
  entries : modulesField.GivesOr [] members Entry.grammar.listOf.Reads d.entries

def slots : List Slot :=
  [⟨bundleField, false, Grammar.text.nullable.Breaks⟩,
    ⟨modulesField, false, Entry.grammar.listOf.Breaks⟩]

def grammar : Grammar Descriptor := .record slots Content

theorem decides (h : v.Keyed) : grammar.Decides decode v := by
  have textOrNull (w : Value) := Schema.decides_nullable (Schema.decides_text w)
  have hkeys {w : Value} (hw : Relation.ReflTransGen Json.Child w v) (members : Members)
      (heq : w = .object members) : (Assoc.keys members).Nodup :=
    h members (heq ▸ hw)
  refine Schema.decides_closedRecord rfl (by decide) (by decide) (hkeys .refl) ?_ ?_
  all_goals
    rintro members rfl
    have entries {key : Text} {w : Value} (given : modulesField.GivenAs members key w) :
        Entry.grammar.listOf.Decides (Schema.arrayOf .notList Entry.decode) w := by
      refine Schema.decides_arrayOf .notList fun items heq u hu => Entry.decides (hkeys ?_)
      have hmember : Json.Child w (.object members) :=
        .member (Assoc.mem_of_lookup given.2)
      exact .head (heq ▸ .item hu) (.single hmember)
  · intro horderly d
    have hbundle a := Schema.optional_iff_givesOr (a := a) none
      (horderly.spelledOnce bundleField (by simp)) fun _ w _ => textOrNull w
    have hentries a := Schema.optional_iff_givesOr (a := a) []
      (horderly.spelledOnce modulesField (by simp)) fun _ _ given => entries given
    simp only [Schema.map_eq_ok_iff, Prod.exists, Schema.Decoded.both_eq_ok_iff, hbundle, hentries]
    constructor
    · rintro ⟨bundle, entries, ⟨h₁, h₂⟩, rfl⟩
      exact ⟨h₁, h₂⟩
    · rintro ⟨h₁, h₂⟩
      exact ⟨_, _, ⟨h₁, h₂⟩, rfl⟩
  · refine Tells.map ?_ _
    refine Schema.tells_slots (Schema.tells_optional none fun _ w _ =>
      (textOrNull w).tells) ?_ (by decide)
    exact Schema.tells_slot (Schema.tells_optional [] fun _ _ given => (entries given).tells)

/-- A bundle is described by just the values that the grammar reads. In any other value there is a
place that breaks the grammar, and the defects are at all such places, each of them once. -/
theorem decode_by_grammar (h : v.Keyed) :
    (∀ d, decode v = .ok d ↔ grammar.Reads v d) ∧
      ((∃ d, grammar.Reads v d) ↔ ∀ l, ¬grammar.Breaks v l) ∧
      ∀ defects, decode v = .error defects → defects ≠ [] ∧
        (defects.map Schema.Defect.location).Nodup ∧
        ∀ l, l ∈ defects.map Schema.Defect.location ↔ grammar.Breaks v l := by
  obtain ⟨hok, htells⟩ := decides h
  refine ⟨hok, ?_, fun defects hdefects => ?_⟩
  · rw [← htells.isOk_iff]
    exact exists_congr fun d => (hok d).symm
  · rw [hdefects] at htells
    refine ⟨?_, htells.nodup, htells.mem_iff⟩
    rintro rfl
    exact htells.ne_nil rfl

/-- A split ID that is no string is told under the spelling it has, and nothing else is wrong. -/
theorem decode_by_grammar_misspelt :
    let v : Value := .object [("modules", .array
      [.object [("name", .string "m"), ("split_id", .int 7)]])]
    v.Keyed ∧ ∀ l, grammar.Breaks v l ↔ l = [.key "modules", .index 0, .key "split_id"] := by
  intro v
  have hkeyed : v.Keyed := by
    refine Json.Value.keyed_object (by decide) fun p hp => ?_
    obtain rfl := List.mem_singleton.1 hp
    refine Json.Value.keyed_array fun w hw => ?_
    obtain rfl := List.mem_singleton.1 hw
    refine Json.Value.keyed_object (by decide) fun p hp => ?_
    simp only [List.mem_cons, List.not_mem_nil, or_false] at hp
    rcases hp with rfl | rfl
    · exact Json.Value.keyed_of_count rfl
    · exact Json.Value.keyed_of_count rfl
  obtain ⟨-, -, herror⟩ := decode_by_grammar hkeyed
  obtain ⟨-, -, hbreaks⟩ := herror [⟨[.key "modules", .index 0, .key "split_id"], .notText, .int 7⟩]
    rfl
  refine ⟨hkeyed, fun l => ?_⟩
  rw [← hbreaks]
  simp

/-- The place of a wrong value is not the preferred spelling of its field, if it is given under
another one; and a key without UTF-8 form is told at the object, not at itself. -/
theorem places_told_otherwise :
    (∃ defects, decode (.object [("modules", .array
        [.object [("name", .string "m"), ("split_id", .int 7)]])]) = .error defects ∧
      [.key "modules", .index 0, .key Manifest.splitIdField.name] ∉
        defects.map Schema.Defect.location) ∧
    ∃ defects, decode (.object [("modules", .array
        [.object [("name", .string "m"), ([.surrogate 0], .int 1)]])]) = .error defects ∧
      defects.map Schema.Defect.location = [[.key "modules", .index 0]] := by
  refine ⟨⟨[⟨[.key "modules", .index 0, .key "split_id"], .notText, .int 7⟩], rfl, ?_⟩, ?_⟩
  · decide
  · exact ⟨[⟨[.key "modules", .index 0], .notUnicode, .string [.surrogate 0]⟩], rfl, rfl⟩

end Descriptor

end BundleGraph
