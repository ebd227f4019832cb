import BundleGraph.Text.Blank
import Mathlib.Tactic

/-!
# Words of ASCII

The letters, digits and underscores of ASCII, and where they come from: numerals have digits only,
and no two numbers have the same one. None of them is white space.
-/
namespace BundleGraph

theorem isDigit_of_mem_ofNat {n : Nat} {c : CodePoint} (hc : c ∈ Text.ofNat n) : c.isDigit := by
  obtain ⟨d, hd, rfl⟩ := List.mem_map.1 hc
  have hdigits : (toString n).toList = Nat.toDigits 10 n := by simp [Nat.toString_eq_repr, Nat.repr]
  rw [hdigits] at hd
  have hdigit : d.isDigit := Nat.isDigit_of_mem_toDigits (by decide) (by decide) hd
  simp only [Char.isDigit, Bool.and_eq_true, decide_eq_true_eq, UInt32.le_iff_toNat_le] at hdigit
  simp only [CodePoint.isDigit, Bool.and_eq_true, decide_eq_true_eq]
  exact hdigit

theorem Text.ofNat_injective : Function.Injective Text.ofNat := by
  intro i j h
  have hlist : (toString i).toList = (toString j).toList :=
    List.map_injective_iff.2 (fun _ _ => CodePoint.scalar.inj) h
  have hvalue := congrArg (fun ds => Nat.ofDigitChars 10 ds 0) hlist
  simpa [Nat.toString_eq_ofList_toDigits] using hvalue

namespace CodePoint

variable {c : CodePoint}

theorem isWord_iff : c.isWord ↔
    (0x30 ≤ c.toNat ∧ c.toNat ≤ 0x39 ∨ 0x41 ≤ c.toNat ∧ c.toNat ≤ 0x5A) ∨
      0x61 ≤ c.toNat ∧ c.toNat ≤ 0x7A ∨ c.toNat = 0x5F := by
  simp only [isWord, isDigit, Bool.or_eq_true, Bool.and_eq_true, decide_eq_true_eq, beq_iff_eq,
    or_assoc]

theorem isWord_of_isDigit (h : c.isDigit) : c.isWord := by
  simp [isWord, h]

theorem not_isBlank_of_isWord (h : c.isWord) : ¬c.isBlank := by
  rw [isWord_iff] at h
  simp only [isBlank, inRanges, blankRanges, List.any_cons, List.any_nil, Bool.or_eq_true,
    Bool.and_eq_true, decide_eq_true_eq, Bool.false_eq_true, or_false]
  omega

end CodePoint

end BundleGraph
