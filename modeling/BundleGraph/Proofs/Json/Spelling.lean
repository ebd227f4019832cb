import BundleGraph.Proofs.Json.Numeral
import BundleGraph.Proofs.Text.Surrogate
import BundleGraph.Proofs.Text.Utf8

/-!
# Written strings

A code point is written in one of four ways, and each of them is read as this code point. Only the
escape of the first half of a surrogate pair depends on what follows it, so a string is found again
from its written form unless the two halves of a pair stand next to each other in it.
-/
namespace BundleGraph.Json

open CodePoint (scalar)
open Text (Unpaired)

variable {α : Type} {c d : Cursor} {a : α} {rest : Text}

/-- What a reader comes to that takes `a` and leaves `rest`. -/
def Reads (x : Except ReadError (Read α c)) (a : α) (rest : Text) : Prop :=
  ∃ (offset : Nat) (h : rest.length < c.rest.length), x = .ok ⟨(a, ⟨rest, offset⟩), h⟩

theorem reads_ok {r : Read α c} (ha : r.1.1 = a) (hrest : r.1.2.rest = rest) :
    Reads (.ok r) a rest := by
  obtain ⟨⟨a', rest', offset⟩, h⟩ := r
  obtain rfl : a' = a := ha
  obtain rfl : rest' = rest := hrest
  exact ⟨offset, h, rfl⟩

theorem Reads.weaken {x : Except ReadError (Read α d)} (h : Reads x a rest)
    (hlt : d.rest.length < c.rest.length) : Reads (x.map (Read.weaken hlt)) a rest := by
  obtain ⟨offset, hprogress, rfl⟩ := h
  exact ⟨offset, hprogress.trans hlt, rfl⟩

/-- The ways in which a code point is written inside a string. -/
inductive Spelling (c : CodePoint) : Text → Prop
  | plain (hquote : c ≠ scalar '"') (hbackslash : c ≠ scalar '\\')
      (hprintable : 0x20 ≤ c.toNat ∧ c.toNat < 0x7F) : Spelling c [c]
  | simple (x : CodePoint) (hx : x ≠ scalar 'u') (h : simpleEscape? x = some c) :
      Spelling c [scalar '\\', x]
  | unit (h : c.toNat < 0x10000) : Spelling c (unitEscape c.toNat)
  | pair (h : 0x10000 ≤ c.toNat) :
      Spelling c (unitEscape (0xD800 + (c.toNat - 0x10000) / 0x400) ++
        unitEscape (0xDC00 + (c.toNat - 0x10000) % 0x400))

theorem spelling_escaped (c : CodePoint) : Spelling c (escaped c) := by
  simp only [escaped]
  split_ifs with hself hplain hfeed hreturn htab hback hform hunit
  · rcases hself with rfl | rfl
    · exact .simple _ (by decide) (by decide)
    · exact .simple _ (by decide) (by decide)
  · push Not at hself
    exact .plain hself.1 hself.2 hplain
  · exact .simple (scalar 'n') (by decide) (by rw [hfeed]; decide)
  · exact .simple (scalar 'r') (by decide) (by rw [hreturn]; decide)
  · exact .simple (scalar 't') (by decide) (by rw [htab]; decide)
  · exact .simple (scalar 'b') (by decide) (by rw [hback]; decide)
  · exact .simple (scalar 'f') (by decide) (by rw [hform]; decide)
  · exact .unit hunit
  · exact .pair (by omega)

/-- What stands behind the escape of a unit and does not make a pair with it. -/
def Alone (n : Nat) (after : Text) : Prop :=
  ∃ low, lowHalf? n after = .ok low ∧ low.bind (joinSurrogates? n) = none

theorem alone_of_take {n : Nat} {after : Text} (h : after.take 2 ≠ Text.ofString "\\u") :
    Alone n after :=
  ⟨none, by simp [lowHalf?, h], rfl⟩

theorem unitEscape_append (n : Nat) (rest : Text) :
    unitEscape n ++ rest = scalar '\\' :: scalar 'u' :: (Text.hex 4 n ++ rest) := rfl

theorem length_unitEscape {n : Nat} (hn : n < 0x10000) : (unitEscape n).length = 6 := by
  rw [← List.append_nil (unitEscape n), unitEscape_append, List.append_nil, List.length_cons,
    List.length_cons, length_hex hn]

theorem hexValue?_take {n : Nat} (hn : n < 0x10000) (rest : Text) :
    hexValue? ((Text.hex 4 n ++ rest).take 4) = some n := by
  rw [List.take_left' (length_hex hn), hexValue?_hex hn]

theorem alone_unitEscape (n : Nat) {m : Nat} (hm : m < 0x10000)
    (hlow : ¬(0xDC00 ≤ m ∧ m < 0xE000)) (rest : Text) : Alone n (unitEscape m ++ rest) := by
  rw [unitEscape_append]
  by_cases hpair : 0xD800 ≤ n ∧ n < 0xDC00 ∧
      6 < (scalar '\\' :: scalar 'u' :: (Text.hex 4 m ++ rest)).length ∧
      (scalar '\\' :: scalar 'u' :: (Text.hex 4 m ++ rest)).take 2 = Text.ofString "\\u"
  · refine ⟨some m, ?_, ?_⟩
    · rw [lowHalf?, if_pos hpair, List.drop_succ_cons, List.drop_succ_cons, List.drop_zero,
        hexValue?_take hm]
    · rw [Option.bind_some, joinSurrogates?, if_neg]
      omega
  · exact ⟨none, by rw [lowHalf?, if_neg hpair], rfl⟩

theorem alone_of_spelling {n : Nat} {c : CodePoint} {s : Text} (h : Spelling c s)
    (hlow : ¬c.isLow) (rest : Text) : Alone n (s ++ rest) := by
  cases h with
  | plain hquote hbackslash =>
    apply alone_of_take
    intro htake
    exact hbackslash (List.cons.inj htake).1
  | simple x hx h =>
    apply alone_of_take
    intro htake
    exact hx (List.cons.inj (List.cons.inj htake).2).1
  | unit h => exact alone_unitEscape n h (by simpa [CodePoint.isLow] using hlow) rest
  | pair h =>
    have hlt := c.toNat_lt
    rw [List.append_assoc]
    exact alone_unitEscape n (by omega) (by omega) _

theorem readEscape_simple {x y : CodePoint} (start offset : Nat) (more : Text) (hx : x ≠ scalar 'u')
    (h : simpleEscape? x = some y) : readEscape start offset (x :: more) = .ok (y, 1) := by
  rw [readEscape]
  simp only [if_neg hx, h]

theorem readEscape_hex {n : Nat} {low : Option Nat} {more : Text} (start offset : Nat)
    (hn : n < 0x10000) (hmore : more ≠ []) (hlow : lowHalf? n more = .ok low) :
    readEscape start offset (scalar 'u' :: (Text.hex 4 n ++ more)) =
      (low.bind (joinSurrogates? n)).elim (.ok (.ofNat n, 5)) fun joined =>
        .ok (.ofNat joined, 11) := by
  have hlong : ¬(Text.hex 4 n ++ more).length ≤ 4 := by
    have hpos := List.length_pos_iff.2 hmore
    rw [List.length_append, length_hex hn]
    omega
  rw [readEscape]
  simp only [if_true, if_neg hlong, hexValue?_take hn, List.drop_left' (length_hex hn), hlow]
  cases low.bind (joinSurrogates? n) <;> rfl

theorem readEscape_unit {n : Nat} {more : Text} (start offset : Nat) (hn : n < 0x10000)
    (hmore : more ≠ []) (halone : Alone n more) :
    readEscape start offset (scalar 'u' :: (Text.hex 4 n ++ more)) = .ok (.ofNat n, 5) := by
  obtain ⟨low, hlow, hnone⟩ := halone
  rw [readEscape_hex start offset hn hmore hlow, hnone, Option.elim_none]

theorem joinSurrogates?_eq_some {n high low : Nat} (hn : 0x10000 ≤ n) (hlt : n < 0x110000)
    (hhigh : high = 0xD800 + (n - 0x10000) / 0x400)
    (hlow : low = 0xDC00 + (n - 0x10000) % 0x400) : joinSurrogates? high low = some n := by
  have hrange : 0xD800 ≤ high ∧ high < 0xDC00 ∧ 0xDC00 ≤ low ∧ low < 0xE000 := by omega
  have hvalue : 0x10000 + (high - 0xD800) * 0x400 + (low - 0xDC00) = n := by omega
  rw [joinSurrogates?, if_pos hrange, hvalue]

theorem lowHalf?_unitEscape {high low : Nat} {more : Text} (hhigh : 0xD800 ≤ high ∧ high < 0xDC00)
    (hlow : low < 0x10000) (hmore : more ≠ []) :
    lowHalf? high (unitEscape low ++ more) = .ok (some low) := by
  have hlong : 6 < (unitEscape low ++ more).length := by
    have hpos := List.length_pos_iff.2 hmore
    rw [List.length_append, length_unitEscape hlow]
    omega
  rw [lowHalf?, if_pos ⟨hhigh.1, hhigh.2, hlong, rfl⟩, unitEscape_append, List.drop_succ_cons,
    List.drop_succ_cons, List.drop_zero, hexValue?_take hlow]

theorem readEscape_pair {n high low : Nat} {more : Text} (start offset : Nat)
    (hhigh : 0xD800 ≤ high ∧ high < 0xDC00) (hlow : low < 0x10000) (hmore : more ≠ [])
    (hjoin : joinSurrogates? high low = some n) :
    readEscape start offset (scalar 'u' :: (Text.hex 4 high ++ (unitEscape low ++ more))) =
      .ok (.ofNat n, 11) := by
  have hread := lowHalf?_unitEscape hhigh hlow hmore
  rw [readEscape_hex start offset (by omega) (by simp [unitEscape_append]) hread]
  simp only [Option.bind_some, hjoin, Option.elim_some]

section Strings

variable {acc t : Text} {start offset : Nat}

theorem reads_quote (start offset : Nat) (acc rest : Text) :
    Reads (readString start acc ⟨scalar '"' :: rest, offset⟩) acc.reverse rest := by
  rw [readString]
  exact ⟨_, _, rfl⟩

theorem Reads.of_plain {x : CodePoint} {more : Text}
    (h : Reads (readString start (x :: acc) ⟨more, offset + 1⟩) t rest)
    (hquote : x ≠ scalar '"') (hbackslash : x ≠ scalar '\\') (hcontrol : ¬x.toNat < 0x20) :
    Reads (readString start acc ⟨x :: more, offset⟩) t rest := by
  rw [readString]
  simp only [if_neg hquote, if_neg hbackslash, if_neg hcontrol]
  exact h.weaken _

theorem Reads.of_escape {y : CodePoint} {n : Nat} {more : Text}
    (h : Reads (readString start (y :: acc) ⟨more.drop n, offset + (n + 1)⟩) t rest)
    (hescape : readEscape start offset more = .ok (y, n)) :
    Reads (readString start acc ⟨scalar '\\' :: more, offset⟩) t rest := by
  rw [readString]
  have hquote : scalar '\\' ≠ scalar '"' := by decide
  simp only [if_neg hquote, if_true, hescape]
  exact h.weaken _

theorem Reads.of_spelling {c : CodePoint} {s more : Text} (hspelling : Spelling c s)
    (hmore : more ≠ []) (halone : c.isHigh → Alone c.toNat more)
    (h : ∀ offset, Reads (readString start (c :: acc) ⟨more, offset⟩) t rest) :
    Reads (readString start acc ⟨s ++ more, offset⟩) t rest := by
  have hlt := c.toNat_lt
  cases hspelling with
  | plain hquote hbackslash hprintable =>
    exact (h _).of_plain hquote hbackslash (not_lt.2 hprintable.1)
  | simple x hx hsimple => exact (h _).of_escape (readEscape_simple start offset more hx hsimple)
  | unit hunit =>
    have halone : Alone c.toNat more := by
      by_cases hhigh : c.isHigh
      · exact halone hhigh
      · refine ⟨none, if_neg fun hpair => hhigh ?_, rfl⟩
        simp [CodePoint.isHigh, hpair.1, hpair.2.1]
    have hescape := readEscape_unit start offset hunit hmore halone
    rw [CodePoint.ofNat_toNat] at hescape
    rw [unitEscape_append]
    refine Reads.of_escape ?_ hescape
    rw [List.drop_succ_cons, List.drop_left' (length_hex hunit)]
    exact h _
  | pair hpair =>
    have hjoin := joinSurrogates?_eq_some hpair hlt rfl rfl
    have hhigh : 0xD800 ≤ 0xD800 + (c.toNat - 0x10000) / 0x400 ∧
        0xD800 + (c.toNat - 0x10000) / 0x400 < 0xDC00 := by omega
    have hlow : 0xDC00 + (c.toNat - 0x10000) % 0x400 < 0x10000 := by omega
    have hescape := readEscape_pair start offset hhigh hlow hmore hjoin
    rw [CodePoint.ofNat_toNat] at hescape
    rw [List.append_assoc, unitEscape_append]
    refine Reads.of_escape ?_ hescape
    rw [List.drop_succ_cons, ← List.append_assoc, List.drop_left']
    · exact h _
    · rw [List.length_append, length_hex (by omega), length_unitEscape hlow]

/-- A string is found again from its written form, without the opening quote. -/
theorem reads_string (ht : t.Unpaired) (start offset : Nat) (acc rest : Text) :
    Reads (readString start acc ⟨t.flatMap escaped ++ scalar '"' :: rest, offset⟩)
      (acc.reverse ++ t) rest := by
  induction t generalizing acc offset with
  | nil =>
    rw [List.flatMap_nil, List.nil_append, List.append_nil]
    exact reads_quote start offset acc rest
  | cons c t ih =>
    obtain ⟨hnext, ht⟩ := Text.unpaired_cons_iff.1 ht
    rw [List.flatMap_cons, List.append_assoc]
    refine Reads.of_spelling (spelling_escaped c) (by simp) (fun hhigh => ?_) fun offset => ?_
    · cases t with
      | nil => exact alone_of_take fun htake => absurd (List.cons.inj htake).1 (by decide)
      | cons d t =>
        rw [List.flatMap_cons, List.append_assoc]
        exact alone_of_spelling (spelling_escaped d) (fun hlow => hnext d rfl ⟨hhigh, hlow⟩) _
    · simpa using ih ht offset (c :: acc)

end Strings

end BundleGraph.Json
