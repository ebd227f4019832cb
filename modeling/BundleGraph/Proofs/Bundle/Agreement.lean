import BundleGraph.Bundle.Descriptor
import BundleGraph.Proofs.Bundle.Descriptor
import BundleGraph.Proofs.Schema.Record

/-!
# Entries and manifests agree

A manifest can be given on its own or by an entry of a bundle, which has a schema of its own: an
entry has no members beyond its fields and may leave open whether its module is the base module.
What an entry lets through is a manifest as well, and the same one that is read from the object
itself once it says which module is the base module. A manifest that is written as an entry is
read back.
-/
namespace BundleGraph

open Json (Value)
open Schema (Field Members)

namespace Schema

variable {α : Type} {f : Field} {decode : Value → Decoded α} {members : Members}

/-- The last spelling of a field, which is the one that programs use. -/
def Field.lastSpelling (f : Field) : Text := f.others.getLastD f.name

theorem nullable_text_ofText? (t : Option Text) : nullable text (.ofText? t) = .ok t := by
  cases t <;> rfl

theorem arrayOf_text_ofTexts (otherwise : Kind) (ts : List Text) :
    arrayOf otherwise text (.ofTexts ts) = .ok ts := by
  refine arrayOf_eq_ok_iff.2 ⟨_, rfl, List.forall₂_map_left_iff.2 ?_⟩
  exact List.forall₂_same.2 fun t _ => rfl

/-- Which defect a value has that is no array makes no difference to what arrays hold. -/
theorem optional_arrayOf_eq_ok_iff {otherwise otherwise' : Kind} {as default : List α} :
    f.optional default (arrayOf otherwise decode) members = .ok as ↔
      f.optional default (arrayOf otherwise' decode) members = .ok as := by
  simp only [Field.optional_eq_ok_iff, arrayOf_eq_ok_iff]

end Schema

namespace Manifest

/-- A manifest as the members of an object, with a spelling for every field. -/
def members (spelling : Field → Text) (m : Manifest) : Members :=
  [(spelling nameField, .string m.name), (spelling baseField, .bool m.isBase),
    (spelling onDemandField, .bool m.onDemand), (spelling splitIdField, .ofText? m.splitId),
    (spelling usesSplitsField, .ofTexts m.usesSplits)]

variable {v : Value} {m : Manifest}

theorem decode_object_iff {members : Members} : decode (.object members) = .ok m ↔
    nameField.required Schema.nonemptyText members = .ok m.name ∧
    baseField.optional false Schema.flag members = .ok m.isBase ∧
    onDemandField.optional false Schema.flag members = .ok m.onDemand ∧
    splitIdField.optional none (Schema.nullable Schema.text) members = .ok m.splitId ∧
    usesSplitsField.optional [] (Schema.arrayOf .notTuple Schema.text) members =
      .ok m.usesSplits := by
  simp only [decode, Schema.openRecord, Schema.map_eq_ok_iff, Prod.exists,
    Schema.Decoded.both_eq_ok_iff]
  constructor
  · rintro ⟨_, _, _, _, _, h, rfl⟩
    exact h
  · exact fun h => ⟨_, _, _, _, _, h, rfl⟩

theorem name_of_decode (h : decode v = .ok m) : m.name.WellFormed ∧ m.name ≠ [] := by
  obtain ⟨members, rfl, -⟩ := Schema.exists_of_openRecord h
  obtain ⟨hname, -⟩ := decode_object_iff.1 h
  obtain ⟨p, -, hp⟩ := Schema.exists_of_required hname
  exact Schema.nonemptyText_of_ok hp

theorem decode_members (hname : m.name.WellFormed ∧ m.name ≠ []) :
    decode (.object (m.members Field.lastSpelling)) = .ok m := by
  refine decode_object_iff.2 ⟨?_, ?_, ?_, ?_, ?_⟩
  · exact Field.required_of_find? rfl (Schema.nonemptyText_eq_ok_iff.2 ⟨rfl, hname⟩)
  · exact Field.optional_of_find? rfl rfl
  · exact Field.optional_of_find? rfl rfl
  · exact Field.optional_of_find? rfl (Schema.nullable_text_ofText? m.splitId)
  · exact Field.optional_of_find? rfl (Schema.arrayOf_text_ofTexts .notTuple m.usesSplits)

end Manifest

namespace Descriptor

variable {v : Value} {m : Manifest} {e : Entry} {members : Members} {expected : Name}

namespace Entry

/-- The base flag that the members of an entry resolve to: the one that they give, and if they give
none, whether the module has the expected name. -/
inductive Resolves (members : Members) (expected name : Name) : Bool → Prop
  | given {v : Value} {b : Bool} (h : members.lookup baseField.name = some v) (hnull : v ≠ .null)
      (hb : Schema.flag v = .ok b) : Resolves members expected name b
  | byName (h : ∀ v, members.lookup baseField.name = some v → v = .null) :
      Resolves members expected name (name = expected)

theorem decode_object_iff : decode (.object members) = .ok e ↔
    (∀ key ∈ Assoc.keys members, ¬key.hasSurrogate) ∧
    (Manifest.nameField.required Schema.nonemptyText members = .ok e.name ∧
      baseField.optional none (Schema.nullable Schema.flag) members = .ok e.base ∧
      Manifest.onDemandField.optional false Schema.flag members = .ok e.onDemand ∧
      Manifest.splitIdField.optional none (Schema.nullable Schema.text) members = .ok e.splitId ∧
      Manifest.usesSplitsField.optional [] (Schema.arrayOf .notList Schema.text) members =
        .ok e.usesSplits) ∧
    Schema.unusedMembers fields members = [] := by
  simp only [decode, Schema.closedRecord_eq_ok_iff, Value.object.injEq, exists_eq_left',
    Schema.map_eq_ok_iff, Prod.exists, Schema.Decoded.both_eq_ok_iff]
  refine and_congr_right' (and_congr_left' ?_)
  constructor
  · rintro ⟨_, _, _, _, _, h, rfl⟩
    exact h
  · exact fun h => ⟨_, _, _, _, _, h, rfl⟩

theorem decode_members (hname : m.name.WellFormed ∧ m.name ≠ []) :
    decode (.object (m.members Field.name)) =
      .ok ⟨m.name, some m.isBase, m.onDemand, m.splitId, m.usesSplits⟩ := by
  refine decode_object_iff.2 ⟨?_, ⟨?_, ?_, ?_, ?_, ?_⟩, rfl⟩
  · have hkeys : Assoc.keys (m.members Field.name) = fields.map Field.name := rfl
    rw [hkeys]
    decide
  · exact Field.required_of_find? rfl (Schema.nonemptyText_eq_ok_iff.2 ⟨rfl, hname⟩)
  · exact Field.optional_of_find? rfl rfl
  · exact Field.optional_of_find? rfl rfl
  · exact Field.optional_of_find? rfl (Schema.nullable_text_ofText? m.splitId)
  · exact Field.optional_of_find? rfl (Schema.arrayOf_text_ofTexts .notList m.usesSplits)

/-- With a base flag put in, the object of an entry is read as a manifest with this flag. -/
theorem decode_insert_base (h : decode (.object members) = .ok e) (b : Bool) :
    Manifest.decode (.object (Assoc.insert baseField.name (.bool b) members)) =
      .ok ⟨e.name, b, e.onDemand, e.splitId, e.usesSplits⟩ := by
  obtain ⟨-, ⟨hname, -, hdemand, hsplit, huses⟩, -⟩ := decode_object_iff.1 h
  have hbase : Manifest.baseField.find? (Assoc.insert baseField.name (.bool b) members) =
      some (baseField.name, .bool b) := by
    rw [Field.find?, List.findSome?_cons, Assoc.lookup_insert]
    rfl
  refine Manifest.decode_object_iff.2 ⟨?_, ?_, ?_, ?_, ?_⟩
  · exact (Field.required_insert (by decide)).2 hname
  · exact Field.optional_of_find? hbase rfl
  · rwa [Field.optional_insert (by decide)]
  · rwa [Field.optional_insert (by decide)]
  · rwa [Field.optional_insert (by decide), Schema.optional_arrayOf_eq_ok_iff]

theorem resolves_of_decode (h : decode (.object members) = .ok e) (expected : Name) :
    Resolves members expected e.name (e.manifest expected).isBase := by
  obtain ⟨-, ⟨-, hbase, -⟩, -⟩ := decode_object_iff.1 h
  rcases Field.optional_eq_ok_iff.1 hbase with ⟨absent, hnone⟩ | ⟨key, v, given, hv⟩
  · rw [manifest, hnone]
    refine .byName fun v hlookup => ?_
    have hmissing : members.lookup baseField.name = none := Field.isAbsent_single_iff.1 absent
    simp [hmissing] at hlookup
  · obtain ⟨hlookup, rfl⟩ := Field.givenAs_single_iff.1 given
    by_cases hnull : v = .null
    · subst hnull
      rw [manifest, ← Except.ok.inj hv]
      refine .byName fun w hw => ?_
      exact Option.some.inj (hw.symm.trans hlookup)
    · rw [Schema.nullable_of_ne_null hnull] at hv
      obtain ⟨b, hb, hsome⟩ := Schema.map_eq_ok_iff.1 hv
      rw [manifest, ← hsome]
      exact .given hlookup hnull hb

end Entry

def items : Value → List Value
  | .object members => match members.lookup modulesField.name with
    | some (.array items) => items
    | _ => []
  | _ => []

theorem decode_object_iff {d : Descriptor} : decode (.object members) = .ok d ↔
    (∀ key ∈ Assoc.keys members, ¬key.hasSurrogate) ∧
    (bundleField.optional none (Schema.nullable Schema.text) members = .ok d.bundle ∧
      modulesField.optional [] (Schema.arrayOf .notList Entry.decode) members = .ok d.entries) ∧
    Schema.unusedMembers [bundleField, modulesField] members = [] := by
  simp only [decode, Schema.closedRecord_eq_ok_iff, Value.object.injEq, exists_eq_left',
    Schema.map_eq_ok_iff, Prod.exists, Schema.Decoded.both_eq_ok_iff]
  refine and_congr_right' (and_congr_left' ?_)
  constructor
  · rintro ⟨_, _, h, rfl⟩
    exact h
  · exact fun h => ⟨_, _, h, rfl⟩

theorem forall₂_items_of_decode {d : Descriptor} (h : decode v = .ok d) :
    List.Forall₂ (fun w e => Entry.decode w = .ok e) (items v) d.entries := by
  obtain ⟨members, rfl, -⟩ := Schema.exists_of_closedRecord h
  obtain ⟨-, ⟨-, hentries⟩, -⟩ := decode_object_iff.1 h
  rcases Field.optional_eq_ok_iff.1 hentries with ⟨absent, hnone⟩ | ⟨key, w, given, hw⟩
  · have hlookup : members.lookup modulesField.name = none := Field.isAbsent_single_iff.1 absent
    rw [hnone, items, hlookup]
    exact .nil
  · obtain ⟨values, rfl, hvalues⟩ := Schema.exists_of_arrayOf hw
    have hlookup : members.lookup modulesField.name = some (.array values) :=
      (Field.givenAs_single_iff.1 given).1
    rw [items, hlookup]
    exact hvalues

/-- The two schemas of modules agree. What an entry lets through is a manifest under the names that
programs use, and the manifest that is read from the object with the base flag that it resolves to;
a bundle has one manifest for each value that it lists, in the same order; and a manifest written
as an entry is read back, whatever name is expected. -/
theorem schemas_agree :
    (∀ members e expected, Entry.decode (.object members) = .ok e →
      let m := e.manifest expected
      Manifest.decode (.object (m.members Field.lastSpelling)) = .ok m ∧
        Entry.Resolves members expected e.name m.isBase ∧
        Manifest.decode (.object (Assoc.insert Manifest.baseField.name (.bool m.isBase) members)) =
          .ok m) ∧
      (∀ v d expected, decode v = .ok d → List.Forall₂ (fun w m => ∃ e, Entry.decode w = .ok e ∧
        e.manifest expected = m) (items v) (d.manifests expected)) ∧
      ∀ v m, Manifest.decode v = .ok m →
        ∃ e, Entry.decode (.object (m.members Field.name)) = .ok e ∧
          ∀ expected, e.manifest expected = m := by
  refine ⟨?_, ?_, ?_⟩
  · intro members e expected h m
    refine ⟨?_, ?_, ?_⟩
    · exact Manifest.decode_members (Entry.name_of_decode h)
    · exact Entry.resolves_of_decode h expected
    · exact Entry.decode_insert_base h m.isBase
  · intro v d expected h
    refine List.forall₂_map_right_iff.2 ((forall₂_items_of_decode h).imp fun w e hw => ?_)
    exact ⟨e, hw, rfl⟩
  · intro v m h
    exact ⟨_, Entry.decode_members (Manifest.name_of_decode h), fun _ => rfl⟩

/-- An entry that leaves its base flag open, alone and in a bundle whose base module is `main`. -/
theorem schemas_agree_main :
    let members : Members :=
      [("name", .string "main"), ("base", .null), ("uses_splits", .ofTexts ["a"])]
    let e : Entry := ⟨"main", none, false, none, ["a"]⟩
    let m : Manifest := ⟨"main", true, false, none, ["a"]⟩
    let v : Value := .object [("modules", .array [.object members])]
    (Entry.decode (.object members) = .ok e ∧ decode v = .ok ⟨none, [e]⟩) ∧
      Entry.Resolves members "main" "main" true ∧
      Manifest.decode (.object (Assoc.insert "base" (.bool true) members)) = .ok m ∧
      List.Forall₂ (fun w m => ∃ e, Entry.decode w = .ok e ∧ e.manifest "main" = m)
        [.object members] [m] ∧
      ∃ e, Entry.decode (.object (m.members Field.name)) = .ok e ∧
        ∀ expected, e.manifest expected = m := by
  intro members e m v
  have hentry : Entry.decode (.object members) = .ok e := rfl
  have hdescriptor : decode v = .ok ⟨none, [e]⟩ := rfl
  obtain ⟨haccepted, hlisted, hwritten⟩ := schemas_agree
  obtain ⟨hmanifest, hresolves, hinsert⟩ := haccepted members e "main" hentry
  exact ⟨⟨hentry, hdescriptor⟩, hresolves, hinsert, hlisted v _ "main" hdescriptor,
    hwritten _ m hmanifest⟩

end Descriptor

end BundleGraph
