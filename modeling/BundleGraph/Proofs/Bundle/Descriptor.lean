import BundleGraph.Bundle.Loading
import BundleGraph.Proofs.Files.Document
import BundleGraph.Proofs.Schema.Decode

/-!
# Loaded descriptors

The names of the modules in a descriptor that has been loaded are texts with at least one code
point and without lone surrogates. A split ID or a dependency may hold lone surrogates, but no
halves of a pair side by side. There are no more modules and dependencies than the file has bytes.
-/
namespace BundleGraph

open Json (Value)

def Manifest.texts (x : Manifest) : List Text := x.name :: (x.splitId.toList ++ x.usesSplits)

namespace Descriptor

variable {limits : Json.Limits} {files : FileTree} {path : Path} {bytes : List UInt8}
variable {v : Value} {d : Descriptor} {e : Entry} {t : Text} {expected : Name}

theorem Entry.name_of_decode (h : Entry.decode v = .ok e) : e.name.WellFormed ∧ e.name ≠ [] := by
  obtain ⟨members, -, h⟩ := Schema.exists_of_closedRecord h
  obtain ⟨⟨name, rest⟩, hboth, rfl⟩ := Schema.map_eq_ok_iff.1 h
  obtain ⟨p, -, hp⟩ := Schema.exists_of_required (Schema.Decoded.both_eq_ok_iff.1 hboth).1
  exact Schema.nonemptyText_of_ok hp

theorem Entry.usesSplits_of_decode (h : Entry.decode v = .ok e) :
    e.usesSplits = [] ∨ ∃ w, Json.Child w v ∧
      Schema.arrayOf .notList Schema.text w = .ok e.usesSplits := by
  obtain ⟨members, rfl, hmembers⟩ := Schema.exists_of_closedRecord h
  obtain ⟨⟨name, base, onDemand, splitId, usesSplits⟩, hboth, rfl⟩ :=
    Schema.map_eq_ok_iff.1 hmembers
  simp only [Schema.Decoded.both_eq_ok_iff] at hboth
  obtain ⟨-, -, -, -, huses⟩ := hboth
  rcases Schema.exists_of_optional huses with hnone | ⟨p, hp, huses⟩
  · exact .inl hnone
  · exact .inr ⟨p.2, .member hp, huses⟩

theorem Entry.splitId_of_decode (h : Entry.decode v = .ok e) (ht : t ∈ e.splitId) :
    Json.Child (.string t) v := by
  obtain ⟨members, rfl, hmembers⟩ := Schema.exists_of_closedRecord h
  obtain ⟨⟨name, base, onDemand, splitId, usesSplits⟩, hboth, rfl⟩ :=
    Schema.map_eq_ok_iff.1 hmembers
  simp only [Schema.Decoded.both_eq_ok_iff] at hboth
  obtain ⟨-, -, -, hsplit, -⟩ := hboth
  rcases Schema.exists_of_optional hsplit with hnone | ⟨p, hp, hsplit⟩
  · simp [hnone] at ht
  · have hstring := Schema.text_eq_ok_iff.1 (Schema.of_nullable hsplit t ht)
    exact hstring ▸ .member hp

/-- The texts of a decoded entry hold no halves of a pair side by side, if the value holds none. -/
theorem Entry.unpaired_of_decode (h : Entry.decode v = .ok e) (hv : v.Stable)
    (ht : t ∈ (e.manifest expected).texts) : t.Unpaired := by
  simp only [Manifest.texts, Entry.manifest, List.mem_cons, List.mem_append,
    Option.mem_toList] at ht
  rcases ht with rfl | ht | ht
  · exact Text.unpaired_of_wellFormed (Entry.name_of_decode h).1
  · exact hv t (.single (Entry.splitId_of_decode h ht))
  · rcases Entry.usesSplits_of_decode h with hnone | ⟨w, hw, huses⟩
    · simp [hnone] at ht
    · obtain ⟨u, hu, htext⟩ := Schema.exists_child_of_arrayOf huses ht
      rw [Schema.text_eq_ok_iff.1 htext] at hu
      exact hv t (.tail (.single hu) hw)

theorem Entry.length_usesSplits_of_decode (h : Entry.decode v = .ok e) :
    e.usesSplits.length + 1 ≤ v.count := by
  rcases Entry.usesSplits_of_decode h with hnone | ⟨w, hw, huses⟩
  · rw [hnone]
    exact v.count_pos
  · have hsum := Schema.sum_lt_count_of_arrayOf (fun _ => 1) (fun v _ _ => v.count_pos) huses
    have hle := Value.count_le_of_child hw
    simp only [List.map_const', List.sum_replicate, smul_eq_mul, mul_one] at hsum
    omega

theorem entries_of_decode (h : decode v = .ok d) :
    d.entries = [] ∨ ∃ w, Json.Child w v ∧
      Schema.arrayOf .notList Entry.decode w = .ok d.entries := by
  obtain ⟨members, rfl, hmembers⟩ := Schema.exists_of_closedRecord h
  obtain ⟨⟨bundle, entries⟩, hboth, rfl⟩ := Schema.map_eq_ok_iff.1 hmembers
  rcases Schema.exists_of_optional (Schema.Decoded.both_eq_ok_iff.1 hboth).2 with
    hnone | ⟨p, hp, hentries⟩
  · exact .inl hnone
  · exact .inr ⟨p.2, .member hp, hentries⟩

theorem exists_entry_of_decode (h : decode v = .ok d) (he : e ∈ d.entries) :
    ∃ w, Relation.ReflTransGen Json.Child w v ∧ Entry.decode w = .ok e := by
  rcases entries_of_decode h with hnone | ⟨w, hw, hentries⟩
  · simp [hnone] at he
  · obtain ⟨u, hu, hdecode⟩ := Schema.exists_child_of_arrayOf hentries he
    exact ⟨u, .tail (.single hu) hw, hdecode⟩

theorem name_of_decode (h : decode v = .ok d) (he : e ∈ d.entries) :
    e.name.WellFormed ∧ e.name ≠ [] := by
  obtain ⟨w, -, hw⟩ := exists_entry_of_decode h he
  exact Entry.name_of_decode hw

theorem unpaired_of_decode (h : decode v = .ok d) (hv : v.Stable) {x : Manifest}
    (hx : x ∈ d.manifests expected) (ht : t ∈ x.texts) : t.Unpaired := by
  obtain ⟨e, he, rfl⟩ := List.mem_map.1 hx
  obtain ⟨w, hw, hdecode⟩ := exists_entry_of_decode h he
  exact Entry.unpaired_of_decode hdecode (fun t ht => hv t (ht.trans hw)) ht

theorem length_of_decode (h : decode v = .ok d) :
    (d.manifests expected).length + ((d.manifests expected).flatMap Manifest.usesSplits).length ≤
      v.count := by
  rcases entries_of_decode h with hnone | ⟨w, hw, hentries⟩
  · simp [manifests, hnone]
  · have hsum := Schema.sum_lt_count_of_arrayOf (fun e : Entry => e.usesSplits.length + 1)
      (fun _ _ => Entry.length_usesSplits_of_decode) hentries
    have hle := Value.count_le_of_child hw
    have hlength : (d.manifests expected).length = d.entries.length := List.length_map _
    have huses : ((d.manifests expected).flatMap Manifest.usesSplits).length =
        (d.entries.map fun e => e.usesSplits.length).sum := by
      rw [List.length_flatMap, manifests, List.map_map]
      rfl
    rw [List.sum_map_add] at hsum
    simp only [List.map_const', List.sum_replicate, smul_eq_mul, mul_one] at hsum
    omega

theorem exists_decode_of_load (h : load limits files path = .ok d) : ∃ bytes v,
    files.lookup path = .ok (some (.file bytes)) ∧ Document.read limits bytes = .ok v ∧
      decode v = .ok d := by
  unfold load at h
  split at h
  · simp at h
  · split_ifs at h
    unfold Document.load at h
    split at h
    · simp at h
    · simp at h
    · rename_i bytes hlookup _ _ v hread
      refine ⟨bytes, v, hlookup, hread, ?_⟩
      cases hv : decode v with
      | error defects => simp [ofValue, hv, Except.mapError] at h
      | ok d' => simpa [ofValue, hv, Except.mapError] using h
  · simp at h

theorem unpaired_of_load (h : load limits files path = .ok d) {x : Manifest}
    (hx : x ∈ d.manifests expected) (ht : t ∈ x.texts) : t.Unpaired := by
  obtain ⟨bytes, v, -, hread, hv⟩ := exists_decode_of_load h
  exact unpaired_of_decode hv (Document.content_of_read hread).1 hx ht

theorem length_of_load (h : load limits files path = .ok d)
    (hfile : files.lookup path = .ok (some (.file bytes))) :
    (d.manifests expected).length + ((d.manifests expected).flatMap Manifest.usesSplits).length ≤
      bytes.length := by
  obtain ⟨bytes', v, hlookup, hread, hv⟩ := exists_decode_of_load h
  obtain rfl : bytes' = bytes := by simpa [hlookup] using hfile
  exact (length_of_decode hv).trans (Document.content_of_read hread).2

end Descriptor

end BundleGraph
