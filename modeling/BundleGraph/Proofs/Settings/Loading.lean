import BundleGraph.Proofs.Files.Document
import BundleGraph.Proofs.Schema.Decode

/-!
# Loaded settings

The name under which the base module is expected is the default one or a string in the settings
file. It may hold lone surrogates, but no halves of a pair side by side.
-/
namespace BundleGraph.Settings

open Json (Child Value)
open Relation (ReflTransGen)

variable {limits : Json.Limits} {files : FileTree} {path : Path} {v : Value} {s : Settings}
variable {name : Name}

theorem decodeName_eq_ok (h : decodeName v = .ok name) : v = .string name := by
  cases v with
  | string t =>
    rw [decodeName] at h
    split_ifs at h
    · simp [Schema.defect] at h
    · rw [Except.ok.inj h]
  | _ => simp [decodeName, Schema.defect] at h

theorem expectedBase_of_decodeValidation (h : decodeValidation v = .ok name) :
    name = Manifest.defaultBase ∨ Child (.string name) v := by
  obtain ⟨members, rfl, hmembers⟩ := Schema.exists_of_openRecord h
  rcases Schema.exists_of_optional hmembers with hdefault | ⟨p, hp, hname⟩
  · exact .inl hdefault
  · exact .inr (decodeName_eq_ok hname ▸ .member hp)

/-- The expected name is the default one or a string in the settings. -/
theorem expectedBase_of_decode (h : decode v = .ok s) :
    s.expectedBase = Manifest.defaultBase ∨ ReflTransGen Child (.string s.expectedBase) v := by
  obtain ⟨members, rfl, hmembers⟩ := Schema.exists_of_closedRecord h
  obtain ⟨⟨expectedBase, format, level⟩, hboth, rfl⟩ := Schema.map_eq_ok_iff.1 hmembers
  rcases Schema.exists_of_optional (Schema.Decoded.both_eq_ok_iff.1 hboth).1 with
    hdefault | ⟨p, hp, hvalidation⟩
  · exact .inl hdefault
  · rcases expectedBase_of_decodeValidation hvalidation with hdefault | hname
    · exact .inl hdefault
    · exact .inr (.tail (.single hname) (.member hp))

theorem exists_decode_of_loadFrom (h : loadFrom limits files path = .ok s) :
    ∃ bytes v, Document.read limits bytes = .ok v ∧ decode v = .ok s := by
  unfold loadFrom at h
  split at h
  · simp at h
  · simp at h
  · rename_i entry _
    split_ifs at h
    cases entry with
    | directory => simp [loadEntry] at h
    | file bytes =>
      simp only [loadEntry, Document.load] at h
      split at h
      · simp at h
      · simp at h
      · rename_i v hread
        refine ⟨bytes, v, hread, ?_⟩
        unfold ofValue at h
        split at h
        · rename_i members
          cases hv : decode (.object members) with
          | error defects => simp [hv, Except.mapError] at h
          | ok s' => simpa [hv, Except.mapError] using h
        · simp [Except.mapError] at h

theorem exists_decode_of_load {given : Option Path} (h : load limits files given = .ok s) :
    s = {} ∨ ∃ bytes v, Document.read limits bytes = .ok v ∧ decode v = .ok s := by
  unfold load at h
  split at h
  · exact .inr (exists_decode_of_loadFrom h)
  · split at h
    · simp at h
    · exact .inl (Except.ok.inj h).symm
    · exact .inr (exists_decode_of_loadFrom h)

theorem unpaired_of_load {given : Option Path} (h : load limits files given = .ok s) :
    s.expectedBase.Unpaired := by
  have hdefault : Manifest.defaultBase.Unpaired :=
    Text.unpaired_of_wellFormed (Text.wellFormed_ofString _)
  rcases exists_decode_of_load h with rfl | ⟨bytes, v, hread, hv⟩
  · exact hdefault
  · rcases expectedBase_of_decode hv with hname | hname
    · rwa [hname]
    · exact (Document.content_of_read hread).1 _ hname

end BundleGraph.Settings
