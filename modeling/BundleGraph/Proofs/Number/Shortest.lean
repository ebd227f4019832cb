import BundleGraph.Number.Shortest
import Mathlib.Tactic

/-!
# Characters of a numeral

The numeral of a finite binary64 value has digits, a point, signs and the mark of an exponent only.
-/
namespace BundleGraph.Binary64

def Symbol (c : Char) : Prop := c.isDigit ∨ c = '.' ∨ c = 'e' ∨ c = '+' ∨ c = '-'

theorem isDigit_of_mem_significantDigits {n : Nat} {c : Char} (hc : c ∈ significantDigits n) :
    c.isDigit := by
  rw [significantDigits, List.mem_reverse] at hc
  have hmem := (List.dropWhile_suffix _).subset hc
  exact Nat.isDigit_of_mem_toDigits (by decide) (by decide) (List.mem_reverse.1 hmem)

theorem symbol_positional {digits : List Char} (h : ∀ c ∈ digits, c.isDigit) (point : Int) :
    ∀ c ∈ positional digits point, Symbol c := by
  have hzeros (n : Nat) : ∀ c ∈ List.replicate n '0', c.isDigit := by
    intro c hc
    rw [List.eq_of_mem_replicate hc]
    decide
  intro c hc
  unfold positional at hc
  split at hc
  · rcases List.mem_append.1 hc with hc | hc
    · rcases List.mem_cons.1 hc with rfl | hc
      · exact .inl (by decide)
      · rcases List.mem_cons.1 hc with rfl | hc
        · exact .inr (.inl rfl)
        · exact .inl (hzeros _ c hc)
    · exact .inl (h c hc)
  · extract_lets whole padded rest at hc
    have hpadded : ∀ c ∈ padded, c.isDigit := List.forall_mem_append.2 ⟨h, hzeros _⟩
    rcases List.mem_append.1 hc with hc | hc
    · exact .inl (hpadded c (List.mem_of_mem_take hc))
    · rcases List.mem_cons.1 hc with rfl | hc
      · exact .inr (.inl rfl)
      · split at hc
        · obtain rfl := List.mem_singleton.1 hc
          exact .inl (by decide)
        · exact .inl (hpadded c (List.mem_of_mem_drop hc))

theorem symbol_scientific {digits : List Char} (h : ∀ c ∈ digits, c.isDigit) (lead : Int) :
    ∀ c ∈ scientific digits lead, Symbol c := by
  have hpower : ∀ c ∈ (Nat.toDigits 10 lead.natAbs).leftpad 2 '0', c.isDigit := by
    intro c hc
    rcases List.mem_append.1 hc with hc | hc
    · rw [List.eq_of_mem_replicate hc]
      decide
    · exact Nat.isDigit_of_mem_toDigits (by decide) (by decide) hc
  intro c hc
  unfold scientific at hc
  rcases List.mem_append.1 hc with hc | hc
  · rcases List.mem_append.1 hc with hc | hc
    · exact .inl (h c (List.mem_of_mem_take hc))
    · cases hrest : digits.drop 1 with
      | nil => simp [hrest] at hc
      | cons d ds =>
        rw [hrest] at hc
        rcases List.mem_cons.1 hc with rfl | hc
        · exact .inr (.inl rfl)
        · exact .inl (h c (List.mem_of_mem_drop (hrest ▸ hc)))
  · rcases List.mem_cons.1 hc with rfl | hc
    · exact .inr (.inr (.inl rfl))
    · rcases List.mem_cons.1 hc with rfl | hc
      · unfold Symbol
        split <;> simp
      · exact .inl (hpower c hc)

theorem symbol_of_mem_toText {negative : Bool} {m : Nat} {e : Int} {c : CodePoint}
    (hc : c ∈ (finite negative m e).toText) : ∃ d, c = CodePoint.scalar d ∧ Symbol d := by
  simp only [toText] at hc
  generalize hchars : (if m = 0 then ['0', '.', '0'] else _) = body at hc
  have hbody : ∀ d ∈ body, Symbol d := by
    intro d hd
    rw [← hchars] at hd
    split at hd
    · simp only [List.mem_cons, List.not_mem_nil, or_false] at hd
      rcases hd with rfl | rfl | rfl <;> simp [Symbol]
    · split at hd
      · exact symbol_positional (fun _ => isDigit_of_mem_significantDigits) _ d hd
      · exact symbol_scientific (fun _ => isDigit_of_mem_significantDigits) _ d hd
  obtain ⟨d, hd, rfl⟩ := List.mem_map.1 hc
  refine ⟨d, rfl, ?_⟩
  rw [String.toList_ofList] at hd
  split at hd
  · rcases List.mem_cons.1 hd with rfl | hd
    · simp [Symbol]
    · exact hbody d hd
  · exact hbody d hd

end BundleGraph.Binary64
