import BundleGraph.Proofs.Files.Loading
import BundleGraph.Proofs.Json.Content
import BundleGraph.Proofs.Json.RoundTrip

/-!
# Reading documents

What is read from the bytes of a document has no halves of surrogate pairs side by side and no more
values than the document has bytes. A value that was written is read back.
-/
namespace BundleGraph.Document

open CodePoint (scalar)
open Json (Limits Restorable Value)

variable {limits : Limits} {bytes : List UInt8} {t : Text} {v : Value}

theorem mem_unifyLineBreaks {c : CodePoint} (h : c ∈ unifyLineBreaks t) :
    c = scalar '\n' ∨ c ∈ t := by
  fun_induction unifyLineBreaks t with
  | case1 => simp at h
  | case2 => exact .inl (List.mem_singleton.1 h)
  | case3 rest ih =>
    rcases List.mem_cons.1 h with rfl | h
    · exact .inl rfl
    · exact (ih h).imp_right fun hc => List.mem_cons_of_mem _ (List.mem_cons_of_mem _ hc)
  | case4 d rest hd ih =>
    rcases List.mem_cons.1 h with rfl | h
    · exact .inl rfl
    · exact (ih h).imp_right (List.mem_cons_of_mem _)
  | case5 d rest hd ih =>
    rcases List.mem_cons.1 h with rfl | h
    · exact .inr List.mem_cons_self
    · exact (ih h).imp_right (List.mem_cons_of_mem _)

theorem wellFormed_unifyLineBreaks (h : t.WellFormed) : (unifyLineBreaks t).WellFormed := by
  intro c hc
  rcases mem_unifyLineBreaks hc with rfl | hc
  · decide
  · exact h c hc

theorem length_unifyLineBreaks_le (t : Text) : (unifyLineBreaks t).length ≤ t.length := by
  fun_induction unifyLineBreaks t with
  | case1 => simp
  | case2 => simp
  | case3 rest ih =>
    simp only [List.length_cons]
    omega
  | case4 d rest hd ih => exact Nat.succ_le_succ ih
  | case5 d rest hd ih => exact Nat.succ_le_succ ih

theorem content_of_read (h : read limits bytes = .ok v) : v.Stable ∧ v.count ≤ bytes.length := by
  unfold read at h
  split at h
  · simp at h
  · rename_i text htext
    obtain ⟨hformed, hlength⟩ := Utf8.wellFormed_of_decodeFrom htext
    extract_lets document at h
    split at h
    · rename_i w hread
      obtain rfl := Except.ok.inj h
      obtain ⟨hstable, hcount⟩ :=
        Json.content_of_read hread (wellFormed_unifyLineBreaks hformed)
      have hunified : document.length ≤ text.length := length_unifyLineBreaks_le text
      exact ⟨hstable, by omega⟩
    all_goals simp at h

theorem read_encode_print (h : Restorable limits limits.depth v) :
    read limits (Utf8.encode (Json.print v ++ Text.ofString "\n")) = .ok v := by
  have hascii : (Json.print v ++ Text.ofString "\n").Ascii :=
    Text.ascii_append.2 ⟨Json.ascii_printWith _ v, by decide⟩
  have hspaces : Json.Spaces (Text.ofString "\n") := fun x hx => by
    obtain rfl := List.mem_singleton.1 hx
    decide
  have hread : Json.read limits (Json.print v ++ Text.ofString "\n") = .ok v :=
    h.read_printWith (.indented 0) hspaces
  rw [read, Utf8.decode_encode hascii.wellFormed]
  simp only [unifyLineBreaks_eq_self hascii.return_not_mem, hread]

end BundleGraph.Document
