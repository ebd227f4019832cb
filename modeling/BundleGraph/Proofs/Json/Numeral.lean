import BundleGraph.Json.Printer
import BundleGraph.Proofs.Json.Limits
import BundleGraph.Proofs.Text.Word

/-!
# Written numbers

A number is found again from its digits: four hexadecimal ones in an escape, and as many decimal
ones as an integer needs. What stands behind an integer may not go on with it.
-/
namespace BundleGraph.Json

open CodePoint (scalar)

variable {limits : Limits} {rest : Text} {n : Nat}

section Hexadecimal

def hexDigits (n : Nat) : List Nat := [n / 4096, n / 256 % 16, n / 16 % 16, n % 16]

theorem hexDigits_lt (h : n < 0x10000) : ∀ d ∈ hexDigits n, d < 16 := by
  simp only [hexDigits, List.forall_mem_cons, List.not_mem_nil, false_implies, implies_true,
    and_true]
  omega

/-- The digits are found one by one from the last, and a zero stands where none is left. -/
theorem hex_four (h : n < 0x10000) :
    Text.hex 4 n = (hexDigits n).map fun d => scalar d.digitChar := by
  have step (m : Nat) := Nat.toDigits_eq_if (b := 16) (n := m) (by decide)
  have hdigits : (Nat.toDigits 16 n).leftpad 4 '0' = (hexDigits n).map Nat.digitChar := by
    have hzero : Nat.digitChar 0 = '0' := rfl
    by_cases h1 : n < 16
    · have h0 : n / 4096 = 0 ∧ n / 256 = 0 ∧ n / 16 = 0 ∧ n % 16 = n := by omega
      simp [step n, h1, h0, hexDigits, hzero, List.leftpad, List.replicate]
    by_cases h2 : n < 256
    · have h0 : n / 4096 = 0 ∧ n / 256 = 0 ∧ n / 16 % 16 = n / 16 ∧ n / 16 < 16 := by omega
      simp [step n, step (n / 16), h1, h0, hexDigits, hzero, List.leftpad, List.replicate]
    by_cases h3 : n < 4096
    · have h0 : n / 4096 = 0 ∧ n / 256 % 16 = n / 256 ∧ n / 16 / 16 = n / 256 ∧ n / 256 < 16 ∧
          ¬n / 16 < 16 := by omega
      simp [step n, step (n / 16), step (n / 256), h1, h0, hexDigits, hzero, List.leftpad]
    · have h0 : n / 16 / 16 = n / 256 ∧ n / 256 / 16 = n / 4096 ∧ n / 4096 < 16 ∧
          ¬n / 16 < 16 ∧ ¬n / 256 < 16 := by omega
      simp [step n, step (n / 16), step (n / 256), step (n / 4096), h1, h0, hexDigits,
        List.leftpad]
  rw [Text.hex, hdigits]
  simp [Text.ofString, Function.comp_def]

theorem hexDigit?_digitChar : ∀ d < 16, hexDigit? (scalar d.digitChar) = some d := by decide

theorem hexValue?_hex (h : n < 0x10000) : hexValue? (Text.hex 4 n) = some n := by
  have hread : ∀ ds : List Nat, (∀ d ∈ ds, d < 16) →
      (ds.map fun d => scalar d.digitChar).mapM hexDigit? = some ds := by
    intro ds hds
    induction ds with
    | nil => rfl
    | cons d ds ih =>
      obtain ⟨hd, hds⟩ := List.forall_mem_cons.1 hds
      simp [hexDigit?_digitChar d hd, ih hds]
  rw [hexValue?, hex_four h, hread _ (hexDigits_lt h)]
  simp only [hexDigits, Option.map_some, List.foldl_cons, List.foldl_nil, Option.some.injEq]
  omega

theorem length_hex (h : n < 0x10000) : (Text.hex 4 n).length = 4 := by
  rw [hex_four h, List.length_map]
  rfl

end Hexadecimal

section Decimal

theorem ofNat_eq (n : Nat) : Text.ofNat n = (Nat.toDigits 10 n).map scalar := by
  simp [Text.ofNat, Text.ofString, Nat.toString_eq_repr, Nat.repr]

theorem length_ofNat_le_iff {k : Nat} (hk : 0 < k) : (Text.ofNat n).length ≤ k ↔ n < 10 ^ k := by
  rw [ofNat_eq, List.length_map, Nat.length_toDigits_le_iff (by decide) hk]

theorem digitsValue_ofNat (n : Nat) : digitsValue (Text.ofNat n) = n := by
  have hread := Nat.ofDigitChars_toDigits (b := 10) (n := n) (by decide) (by decide)
  rw [Nat.ofDigitChars] at hread
  rw [digitsValue, ofNat_eq, List.foldl_map]
  simpa [CodePoint.toNat, Nat.mul_comm] using hread

theorem eq_zero_of_head?_toDigits (h : (Nat.toDigits 10 n).head? = some '0') : n = 0 := by
  induction n using Nat.strongRecOn with
  | ind n ih =>
    rw [Nat.toDigits_eq_if (by decide)] at h
    split at h
    · simpa using h
    · rw [List.head?_append_of_ne_nil _ Nat.toDigits_ne_nil] at h
      have hzero := ih (n / 10) (by omega) h
      omega

/-- Whether a text does not go on with an integer in front of it. -/
def Ends (rest : Text) : Prop :=
  ∀ c ∈ rest.head?, ¬c.isDigit ∧ c ≠ scalar '.' ∧ c ≠ scalar 'e' ∧ c ≠ scalar 'E'

theorem takeWhile_ofNat_append (n : Nat) (hrest : Ends rest) :
    (Text.ofNat n ++ rest).takeWhile CodePoint.isDigit = Text.ofNat n := by
  rw [List.takeWhile_append_of_pos fun c hc => isDigit_of_mem_ofNat hc]
  cases rest with
  | nil => simp
  | cons c rest => simp [(hrest c rfl).1]

theorem exists_ofNat_eq_cons (n : Nat) : ∃ d ds, Text.ofNat n = d :: ds ∧ d.isDigit ∧
    (if d = scalar '0' then [d] else d :: ds) = d :: ds := by
  obtain ⟨d, ds, hds⟩ := List.exists_cons_of_ne_nil (Nat.toDigits_ne_nil (b := 10) (n := n))
  have hofNat : Text.ofNat n = scalar d :: ds.map scalar := by
    rw [ofNat_eq, hds]
    rfl
  refine ⟨scalar d, ds.map scalar, hofNat, isDigit_of_mem_ofNat (n := n) (by simp [hofNat]), ?_⟩
  split
  · rename_i hzero
    obtain rfl := eq_zero_of_head?_toDigits (n := n) (by simpa [hds] using hzero)
    obtain ⟨-, rfl⟩ : d = '0' ∧ ds = [] := by simpa using hds.symm
    rfl
  · rfl

theorem fractionDigits_of_ends (hrest : Ends rest) : fractionDigits rest = [] := by
  cases rest with
  | nil => rfl
  | cons c rest => simp [fractionDigits, (hrest c rfl).2.1]

theorem exponentPart_of_ends (hrest : Ends rest) : exponentPart rest = none := by
  cases rest with
  | nil => rfl
  | cons c rest => simp [exponentPart, (hrest c rfl).2.2]

def sign (negative : Bool) : Text := if negative then [scalar '-'] else []

theorem ofInt_eq (n : Int) : Text.ofInt n = sign (n < 0) ++ Text.ofNat n.natAbs := by
  cases n with
  | ofNat n => simp [Text.ofInt, sign]
  | negSucc n => simp [Text.ofInt, sign, Int.negSucc_lt_zero, Int.natAbs_negSucc]

theorem ne_of_isDigit {c d : CodePoint} (hc : c.isDigit) (hd : ¬d.isDigit) : c ≠ d := by
  rintro rfl
  exact hd hc

theorem exists_ofInt_eq_cons (n : Int) :
    ∃ c t, Text.ofInt n = c :: t ∧ (c = scalar '-' ∨ c.isDigit) := by
  obtain ⟨d, ds, hds, hd, -⟩ := exists_ofNat_eq_cons n.natAbs
  rw [ofInt_eq, hds]
  by_cases hn : n < 0
  · exact ⟨scalar '-', d :: ds, by simp [sign, hn], .inl rfl⟩
  · exact ⟨d, ds, by simp [sign, hn], .inr hd⟩

theorem numeral?_sign (negative : Bool) (n : Nat) (hrest : Ends rest) :
    numeral? (sign negative ++ (Text.ofNat n ++ rest)) =
      some (⟨negative, Text.ofNat n, [], none⟩, (sign negative ++ Text.ofNat n).length) := by
  obtain ⟨d, ds, hds, hd, hwhole⟩ := exists_ofNat_eq_cons n
  have hrun := takeWhile_ofNat_append n hrest
  rw [hds] at hrun
  have hminus : d ≠ scalar '-' := ne_of_isDigit hd (by decide)
  have hnegative :
      ((sign negative ++ (Text.ofNat n ++ rest)).take 1 = [scalar '-']) ↔ negative := by
    cases negative <;> simp [sign, hds, hminus]
  have hsign : (sign negative ++ (Text.ofNat n ++ rest)).drop (if negative then 1 else 0) =
      Text.ofNat n ++ rest := by
    cases negative <;> simp [sign]
  have hbody : (sign negative ++ (Text.ofNat n ++ rest)).drop
      ((if negative then 1 else 0) + (Text.ofNat n).length) = rest := by
    rw [← List.drop_drop, hsign, List.drop_left]
  have hlength : (sign negative).length = if negative then 1 else 0 := by
    cases negative <;> rfl
  rw [hds] at hbody hsign hnegative ⊢
  simp only [numeral?, hnegative, Bool.decide_eq_true, hsign, hrun, hwhole, hbody,
    fractionDigits_of_ends hrest, List.length_append, hlength]
  simp [exponentPart_of_ends hrest]

theorem numeral?_ofInt (n : Int) (hrest : Ends rest) : numeral? (Text.ofInt n ++ rest) =
    some (⟨n < 0, Text.ofNat n.natAbs, [], none⟩, (Text.ofInt n).length) := by
  rw [ofInt_eq, List.append_assoc, numeral?_sign _ _ hrest]

theorem value_ofInt (n : Int) (hshort : (Text.ofNat n.natAbs).length ≤ limits.digits) :
    (Numeral.mk (n < 0) (Text.ofNat n.natAbs) [] none).value limits = .ok (.int n) := by
  simp only [Numeral.value, List.isEmpty_nil, Option.isNone_none, and_self, if_true,
    if_neg (not_lt.2 hshort), digitsValue_ofNat]
  congr 2
  simp only [decide_eq_true_eq]
  split <;> omega

theorem words_find?_ofInt (n : Int) :
    words.find? (fun w => w.1.isPrefixOf (Text.ofInt n ++ rest)) = none := by
  obtain ⟨d, ds, hds, hd, -⟩ := exists_ofNat_eq_cons n.natAbs
  rw [ofInt_eq, hds]
  by_cases hn : n < 0
  · have hword : scalar 'I' ≠ d := (ne_of_isDigit hd (by decide)).symm
    simp [words, sign, hn, Text.ofString, List.isPrefixOf, hword]
  · have hfind : words.find? (fun w => w.1.isPrefixOf (d :: (ds ++ rest))) = none :=
      words_find?_digit hd
    simpa [sign, hn] using hfind

theorem readAtom_ofInt (n : Int) (hrest : Ends rest)
    (hshort : (Text.ofNat n.natAbs).length ≤ limits.digits) (offset : Nat) :
    readAtom limits offset (Text.ofInt n ++ rest) = .ok (.int n, (Text.ofInt n).length) := by
  rw [readAtom, words_find?_ofInt, numeral?_ofInt n hrest]
  simp only [value_ofInt n hshort]
  rfl

end Decimal

end BundleGraph.Json
