import BundleGraph.Proofs.Console.Line

/-!
# Lone surrogates

Two escapes in a row that name the halves of a pair are read as one character. So the halves of a
pair never stand next to each other in a text that was read, and such a text is found again when it
is written and read once more.
-/
namespace BundleGraph

def CodePoint.isHigh (c : CodePoint) : Bool := 0xD800 ≤ c.toNat && c.toNat < 0xDC00

def CodePoint.isLow (c : CodePoint) : Bool := 0xDC00 ≤ c.toNat && c.toNat < 0xE000

theorem CodePoint.toNat_lt (c : CodePoint) : c.toNat < 0x110000 := by
  cases c with
  | scalar c =>
    have hvalid : c.toNat.isValidChar := c.valid
    rw [Nat.isValidChar] at hvalid
    simp only [toNat]
    omega
  | surrogate i =>
    have hi := i.isLt
    simp only [toNat]
    omega

theorem CodePoint.isSurrogate_iff {c : CodePoint} :
    c.isSurrogate ↔ 0xD800 ≤ c.toNat ∧ c.toNat < 0xE000 := by
  cases c with
  | scalar c =>
    have hvalid : c.toNat.isValidChar := c.valid
    rw [Nat.isValidChar] at hvalid
    simp only [isSurrogate, toNat, Bool.false_eq_true, false_iff]
    omega
  | surrogate i =>
    have hi := i.isLt
    simp only [isSurrogate, toNat, true_iff]
    omega

theorem CodePoint.toNat_ofNat {n : Nat} (h : (CodePoint.ofNat n).isSurrogate) :
    (CodePoint.ofNat n).toNat = n := by
  by_cases hvalid : n.isValidChar
  · rw [CodePoint.ofNat, dif_pos hvalid] at h
    exact absurd h Bool.false_ne_true
  · by_cases hrange : n - 0xD800 < 2048 ∧ 0xD800 ≤ n
    · rw [CodePoint.ofNat, dif_neg hvalid, dif_pos hrange]
      simp only [toNat]
      omega
    · rw [CodePoint.ofNat, dif_neg hvalid, dif_neg hrange] at h
      exact absurd h Bool.false_ne_true

theorem CodePoint.not_isSurrogate_ofNat {n : Nat} (h : ¬(0xD800 ≤ n ∧ n < 0xE000)) :
    ¬(CodePoint.ofNat n).isSurrogate := by
  intro hsurrogate
  have hrange := isSurrogate_iff.1 hsurrogate
  rw [toNat_ofNat hsurrogate] at hrange
  exact h hrange

theorem CodePoint.isSurrogate_of_isHigh {c : CodePoint} (h : c.isHigh) : c.isSurrogate := by
  rw [isHigh, Bool.and_eq_true, decide_eq_true_eq, decide_eq_true_eq] at h
  exact isSurrogate_iff.2 (by omega)

theorem CodePoint.isSurrogate_of_isLow {c : CodePoint} (h : c.isLow) : c.isSurrogate := by
  rw [isLow, Bool.and_eq_true, decide_eq_true_eq, decide_eq_true_eq] at h
  exact isSurrogate_iff.2 (by omega)

namespace Text

variable {s t w : Text}

/-- No two halves of a surrogate pair stand next to each other. -/
def Unpaired (t : Text) : Prop := t.IsChain fun a b => ¬(a.isHigh ∧ b.isLow)

instance (t : Text) : Decidable (Unpaired t) :=
  inferInstanceAs (Decidable (t.IsChain fun a b => ¬(a.isHigh ∧ b.isLow)))

theorem unpaired_nil : Unpaired [] := .nil

theorem unpaired_cons_iff {c : CodePoint} :
    Unpaired (c :: t) ↔ (∀ d ∈ t.head?, ¬(c.isHigh ∧ d.isLow)) ∧ Unpaired t :=
  List.isChain_cons

theorem unpaired_of_wellFormed (h : t.WellFormed) : t.Unpaired := by
  induction t with
  | nil => exact unpaired_nil
  | cons c t ih =>
    obtain ⟨hc, ht⟩ := wellFormed_cons.1 h
    exact unpaired_cons_iff.2 ⟨fun d _ hd => hc (CodePoint.isSurrogate_of_isHigh hd.1), ih ht⟩

theorem Unpaired.wellFormed_append (hw : w.WellFormed) (ht : t.Unpaired) : (w ++ t).Unpaired := by
  refine List.IsChain.append (unpaired_of_wellFormed hw) ht fun a ha b _ hpair => ?_
  exact hw a (List.mem_of_mem_getLast? ha) (CodePoint.isSurrogate_of_isHigh hpair.1)

theorem Unpaired.append_between (hs : s.Unpaired) (hw : w.WellFormed) (hne : w ≠ [])
    (ht : t.Unpaired) : (s ++ (w ++ t)).Unpaired := by
  refine List.IsChain.append hs (ht.wellFormed_append hw) fun a _ b hb hpair => ?_
  rw [List.head?_append_of_ne_nil _ hne] at hb
  exact hw b (List.mem_of_mem_head? hb) (CodePoint.isSurrogate_of_isLow hpair.2)

/-- One more code point behind a text whose last one is not the other half of a pair. -/
theorem Unpaired.reverse_cons {c : CodePoint} (ht : Unpaired t.reverse)
    (hlast : ∀ d ∈ t.head?, d.isHigh → ¬c.isLow) : Unpaired (c :: t).reverse := by
  rw [List.reverse_cons]
  refine List.IsChain.append ht (List.isChain_singleton c) fun a ha b hb hpair => ?_
  rw [List.getLast?_reverse] at ha
  obtain rfl : c = b := by simpa using hb
  exact hlast a ha hpair.1 hpair.2

theorem unpaired_between {before behind : String} (ht : t.Unpaired) (hne : ofString behind ≠ []) :
    (concat [ofString before, t, ofString behind]).Unpaired := by
  have hrest : (concat [t, ofString behind]).Unpaired :=
    ht.append_between (wellFormed_ofString behind) hne unpaired_nil
  exact hrest.wellFormed_append (wellFormed_ofString before)

theorem unpaired_between_two {before middle behind : String} (hs : s.Unpaired) (ht : t.Unpaired)
    (hmiddle : ofString middle ≠ []) (hbehind : ofString behind ≠ []) :
    (concat [ofString before, s, ofString middle, t, ofString behind]).Unpaired := by
  have hrest : (concat [t, ofString behind]).Unpaired :=
    ht.append_between (wellFormed_ofString behind) hbehind unpaired_nil
  have htexts : (concat [s, ofString middle, t, ofString behind]).Unpaired :=
    hs.append_between (wellFormed_ofString middle) hmiddle hrest
  exact htexts.wellFormed_append (wellFormed_ofString before)

theorem unpaired_joinWith {sep : Text} {parts : List Text} (hsep : sep.WellFormed) (hne : sep ≠ [])
    (h : ∀ part ∈ parts, Unpaired part) : (joinWith sep parts).Unpaired := by
  rw [joinWith]
  induction parts with
  | nil => simpa using unpaired_nil
  | cons part parts ih =>
    obtain ⟨hpart, hparts⟩ := List.forall_mem_cons.1 h
    cases parts with
    | nil => simpa using hpart
    | cons next parts =>
      rw [List.intercalate_cons_cons, List.append_assoc]
      exact hpart.append_between hsep hne (ih hparts)

end Text

end BundleGraph
