import BundleGraph.Text.Utf8
import BundleGraph.Proofs.Text.Surrogate

/-!
# UTF-8 there and back

Every text without lone surrogates can be read from its bytes, and no other text is read. A code
point has one of four shapes, and in each the lead byte says how many bytes follow and how small or
large the first of them may be.
-/
namespace BundleGraph

variable {c : CodePoint}

theorem CodePoint.ofNat_toNat (c : CodePoint) : CodePoint.ofNat c.toNat = c := by
  cases c with
  | scalar c =>
    have hvalid : c.toNat.isValidChar := c.valid
    rw [CodePoint.ofNat, CodePoint.toNat, dif_pos hvalid]
    rfl
  | surrogate i =>
    have hi := i.isLt
    have hinvalid : ¬(0xD800 + i.val).isValidChar := by
      rw [Nat.isValidChar]
      omega
    have hrange : 0xD800 + i.val - 0xD800 < 2048 ∧ 0xD800 ≤ 0xD800 + i.val := by omega
    rw [CodePoint.ofNat, CodePoint.toNat, dif_neg hinvalid, dif_pos hrange]
    exact congrArg surrogate (Fin.ext (Nat.add_sub_cancel_left ..))

theorem CodePoint.isValidChar_toNat (h : ¬c.isSurrogate) : c.toNat.isValidChar := by
  cases c with
  | scalar c => exact c.valid
  | surrogate i => exact absurd rfl h

namespace Utf8

variable {low high lead : UInt8} {n m bits found offset : Nat} {rest rest' : List UInt8}
variable {t : Text} {bytes : List UInt8}

theorem decodeFrom_cons (hshape : shape? lead = some (n, low, high))
    (h : continuation low high n (leadBits n lead) 1 rest = .ok (bits, rest')) :
    decodeFrom offset (lead :: rest) =
      (decodeFrom (offset + n + 1) rest').map (CodePoint.ofNat bits :: ·) := by
  rw [decodeFrom]
  simp only [hshape]
  -- The reader matches on the continuation together with an equation for it.
  generalize hread : continuation low high n (leadBits n lead) 1 rest = read at h
  subst h
  simp only
  cases decodeFrom (offset + n + 1) rest' <;> rfl

theorem continuation_tail (hm : m < 64) (hlow : low.toNat ≤ 0x80 + m)
    (hhigh : 0x80 + m ≤ high.toNat) :
    continuation low high (n + 1) bits found (.ofNat (0x80 + m) :: rest) =
      continuation 0x80 0xBF n (bits * 64 + m) (found + 1) rest := by
  have hsize : 0x80 + m < UInt8.size := by
    simp only [UInt8.size]
    omega
  have hbyte : (UInt8.ofNat (0x80 + m)).toNat = 0x80 + m := UInt8.toNat_ofNat_of_lt' hsize
  have hrange : low ≤ .ofNat (0x80 + m) ∧ .ofNat (0x80 + m) ≤ high := by
    simp only [UInt8.le_iff_toNat_le, hbyte]
    exact ⟨hlow, hhigh⟩
  rw [continuation, if_pos hrange, hbyte, show (0x80 + m) % 64 = m by omega]

theorem shape?_one : ∀ n < 0x80, shape? (.ofNat n) = some (0, 0x80, 0xBF) := by decide

theorem shape?_two : ∀ k < 32, 2 ≤ k → shape? (.ofNat (0xC0 + k)) = some (1, 0x80, 0xBF) := by
  decide

theorem shape?_three : ∀ k < 16, shape? (.ofNat (0xE0 + k)) =
    some (2, if k = 0 then 0xA0 else 0x80, if k = 13 then 0x9F else 0xBF) := by
  decide

theorem shape?_four : ∀ k < 5, shape? (.ofNat (0xF0 + k)) =
    some (3, if k = 0 then 0x90 else 0x80, if k = 4 then 0x8F else 0xBF) := by
  decide

theorem leadBits_one : ∀ n < 0x80, leadBits 0 (.ofNat n) = n := by decide

theorem leadBits_two : ∀ k < 32, leadBits 1 (.ofNat (0xC0 + k)) = k := by decide

theorem leadBits_three : ∀ k < 16, leadBits 2 (.ofNat (0xE0 + k)) = k := by decide

theorem leadBits_four : ∀ k < 5, leadBits 3 (.ofNat (0xF0 + k)) = k := by decide

theorem decodeFrom_encodePoint (h : ¬c.isSurrogate) (offset : Nat) (rest : List UInt8) : ∃ next,
    decodeFrom offset (encodePoint c ++ rest) = (decodeFrom next rest).map (c :: ·) := by
  have hvalid := CodePoint.isValidChar_toNat h
  have hc := CodePoint.ofNat_toNat c
  generalize hn : c.toNat = n at hvalid hc
  unfold encodePoint
  simp only [h, hn, Bool.false_eq_true, if_false, Nat.pow_eq, pow_zero, pow_one, Nat.div_one,
    Nat.reducePow]
  subst hc
  split_ifs with h1 h2 h3 <;> simp only [List.cons_append, List.nil_append]
  · refine ⟨_, decodeFrom_cons (shape?_one n h1) ?_⟩
    rw [leadBits_one n h1, continuation]
  · refine ⟨_, decodeFrom_cons (shape?_two (n / 64) (by omega) (by omega)) ?_⟩
    have hbits : n / 64 * 64 + n % 64 = n := by omega
    rw [leadBits_two _ (by omega), continuation_tail (by omega) (by simp) (by simp; omega),
      continuation, hbits]
  · refine ⟨_, decodeFrom_cons (shape?_three (n / 4096) (by omega)) ?_⟩
    have hbits : (n / 4096 * 64 + n / 64 % 64) * 64 + n % 64 = n := by omega
    have hlow : (if n / 4096 = 0 then (0xA0 : UInt8) else 0x80).toNat ≤ 0x80 + n / 64 % 64 := by
      split_ifs
      · simp; omega
      · simp
    have hhigh : 0x80 + n / 64 % 64 ≤ (if n / 4096 = 13 then (0x9F : UInt8) else 0xBF).toNat := by
      rw [Nat.isValidChar] at hvalid
      split_ifs <;> (simp; omega)
    rw [leadBits_three _ (by omega), continuation_tail (by omega) hlow hhigh,
      continuation_tail (by omega) (by simp) (by simp; omega), continuation, hbits]
  · have hlt : n < 0x110000 := hvalid.elim (fun h => by omega) (·.2)
    refine ⟨_, decodeFrom_cons (shape?_four (n / 262144) (by omega)) ?_⟩
    have hbits : ((n / 262144 * 64 + n / 4096 % 64) * 64 + n / 64 % 64) * 64 + n % 64 = n := by
      omega
    have hlow : (if n / 262144 = 0 then (0x90 : UInt8) else 0x80).toNat ≤
        0x80 + n / 4096 % 64 := by
      split_ifs
      · simp; omega
      · simp
    have hhigh : 0x80 + n / 4096 % 64 ≤
        (if n / 262144 = 4 then (0x8F : UInt8) else 0xBF).toNat := by
      split_ifs <;> (simp; omega)
    rw [leadBits_four _ (by omega), continuation_tail (by omega) hlow hhigh,
      continuation_tail (by omega) (by simp) (by simp; omega),
      continuation_tail (by omega) (by simp) (by simp; omega), continuation, hbits]

theorem decodeFrom_encode (h : t.WellFormed) : decodeFrom offset (encode t) = .ok t := by
  induction t generalizing offset with
  | nil => rw [encode, List.flatMap_nil, decodeFrom]
  | cons c t ih =>
    obtain ⟨hc, ht⟩ := Text.wellFormed_cons.1 h
    obtain ⟨next, hnext⟩ := decodeFrom_encodePoint hc offset (encode t)
    rw [encode, List.flatMap_cons, ← encode, hnext, ih ht]
    rfl

theorem decode_encode (h : t.WellFormed) : decode (encode t) = .ok t := decodeFrom_encode h

/-- The first continuation byte leaves a range, which the others fill. -/
theorem continuation_bounds (h : continuation low high (n + 1) bits found bytes = .ok (m, rest)) :
    ∃ b, low ≤ b ∧ b ≤ high ∧ (bits * 64 + b.toNat % 64) * 64 ^ n ≤ m ∧
      m < (bits * 64 + b.toNat % 64 + 1) * 64 ^ n := by
  induction n generalizing low high bits found bytes with
  | zero =>
    cases bytes with
    | nil => simp [continuation] at h
    | cons b bytes =>
      rw [continuation] at h
      split_ifs at h with hb
      obtain ⟨rfl, -⟩ := Prod.mk.inj (Except.ok.inj h)
      exact ⟨b, hb.1, hb.2, by simp, by simp⟩
  | succ n ih =>
    cases bytes with
    | nil => simp [continuation] at h
    | cons b bytes =>
      rw [continuation] at h
      split_ifs at h with hb
      obtain ⟨d, -, -, hlow, hhigh⟩ := ih h
      refine ⟨b, hb.1, hb.2, ?_, ?_⟩
      · calc (bits * 64 + b.toNat % 64) * 64 ^ (n + 1)
            = ((bits * 64 + b.toNat % 64) * 64 + 0) * 64 ^ n := by ring
          _ ≤ ((bits * 64 + b.toNat % 64) * 64 + d.toNat % 64) * 64 ^ n :=
            Nat.mul_le_mul_right _ (by omega)
          _ ≤ m := hlow
      · calc m < ((bits * 64 + b.toNat % 64) * 64 + d.toNat % 64 + 1) * 64 ^ n := hhigh
          _ ≤ ((bits * 64 + b.toNat % 64) * 64 + 64) * 64 ^ n :=
            Nat.mul_le_mul_right _ (by omega)
          _ = (bits * 64 + b.toNat % 64 + 1) * 64 ^ (n + 1) := by ring

theorem shape?_bounds : ∀ k < 256, ∀ s ∈ shape? (.ofNat k), s.1 ≤ 3 ∧ 0x80 ≤ s.2.1 ∧ s.2.2 ≤ 0xBF ∧
    (s.1 = 2 → k % 16 = 13 → s.2.2 = 0x9F) ∧ (s.1 = 3 → 1 ≤ k % 8 ∨ s.2.1 = 0x90) := by
  decide +kernel

/-- The range of the first continuation byte keeps the surrogates out. -/
theorem bits_not_surrogate (hshape : shape? lead = some (n, low, high))
    (h : continuation low high n (leadBits n lead) 1 rest = .ok (bits, rest')) :
    ¬(0xD800 ≤ bits ∧ bits < 0xE000) := by
  have hbyte := lead.toNat_lt
  obtain ⟨hn, hlow, hhigh, htwo, hthree⟩ :=
    shape?_bounds lead.toNat hbyte (n, low, high) (by simpa using hshape)
  match n with
  | 0 =>
    obtain ⟨rfl, -⟩ := Prod.mk.inj (Except.ok.inj h)
    simp only [leadBits, if_true]
    omega
  | 1 =>
    obtain ⟨b, -, -, -, hlt⟩ := continuation_bounds h
    simp only [leadBits, pow_zero] at hlt
    norm_num at hlt
    omega
  | 2 =>
    obtain ⟨b, hfrom, hto, hle, hlt⟩ := continuation_bounds h
    simp only [leadBits, pow_one] at hle hlt
    norm_num at hle hlt
    rintro ⟨hleast, hmost⟩
    have hmod : lead.toNat % 16 = 13 := by omega
    obtain rfl := htwo rfl hmod
    have hb : 0x80 ≤ b.toNat ∧ b.toNat ≤ 0x9F := ⟨hlow.trans hfrom, hto⟩
    omega
  | 3 =>
    obtain ⟨b, hfrom, hto, hle, -⟩ := continuation_bounds h
    simp only [leadBits] at hle
    norm_num at hle
    rcases hthree rfl with hmod | rfl
    · omega
    · have hb : 0x90 ≤ b.toNat ∧ b.toNat ≤ 0xBF := ⟨hfrom, hto.trans hhigh⟩
      omega
  | n + 4 => omega

/-- A text that was read has no lone surrogates, and no more code points than bytes. -/
theorem wellFormed_of_decodeFrom (h : decodeFrom offset bytes = .ok t) :
    t.WellFormed ∧ t.length ≤ bytes.length := by
  fun_induction decodeFrom offset bytes generalizing t with
  | case1 =>
    obtain rfl := Except.ok.inj h
    simp
  | case2 => simp at h
  | case3 => simp at h
  | case4 offset lead rest n low high hshape bits rest' hbits ih =>
    cases htail : decodeFrom (offset + n + 1) rest' with
    | error defect =>
      rw [htail] at h
      exact absurd h nofun
    | ok tail =>
      rw [htail] at h
      obtain rfl := Except.ok.inj h
      obtain ⟨hformed, hlength⟩ := ih htail
      have hpoint := CodePoint.not_isSurrogate_ofNat (bits_not_surrogate hshape hbits)
      have hrest : rest'.length ≤ rest.length := continuation_length hbits
      refine ⟨Text.wellFormed_cons.2 ⟨hpoint, hformed⟩, ?_⟩
      simp only [List.length_cons]
      omega

end Utf8

end BundleGraph
