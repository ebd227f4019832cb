import BundleGraph.Proofs.Console.Line
import BundleGraph.Proofs.Text.Word

/-!
# Printable ASCII

Texts of printable ASCII characters and line feeds. They have a UTF-8 form, and no line break in
them is anything but a line feed.
-/
namespace BundleGraph.Text

open CodePoint (scalar)

variable {c : CodePoint} {t u : Text}

/-- Printable characters of ASCII and line feeds. -/
def Ascii (t : Text) : Prop := ∀ c ∈ t, c = scalar '\n' ∨ 0x20 ≤ c.toNat ∧ c.toNat < 0x7F

instance (t : Text) : Decidable (Ascii t) :=
  inferInstanceAs (Decidable (∀ c ∈ t, c = scalar '\n' ∨ 0x20 ≤ c.toNat ∧ c.toNat < 0x7F))

theorem ascii_cons :
    Ascii (c :: t) ↔ (c = scalar '\n' ∨ 0x20 ≤ c.toNat ∧ c.toNat < 0x7F) ∧ Ascii t :=
  List.forall_mem_cons

theorem ascii_append : Ascii (t ++ u) ↔ Ascii t ∧ Ascii u := List.forall_mem_append

theorem ascii_joinWith {sep : Text} {parts : List Text} (hsep : Ascii sep)
    (hparts : ∀ part ∈ parts, Ascii part) : Ascii (joinWith sep parts) := by
  intro c hc
  rcases mem_joinWith hc with hc | ⟨part, hpart, hc⟩
  · exact hsep c hc
  · exact hparts part hpart c hc

theorem ascii_ofNat (n : Nat) : Ascii (Text.ofNat n) := by
  intro c hc
  have hdigit := isDigit_of_mem_ofNat hc
  simp only [CodePoint.isDigit, Bool.and_eq_true, decide_eq_true_eq] at hdigit
  exact .inr (by omega)

theorem ascii_ofInt (n : Int) : Ascii (Text.ofInt n) := by
  cases n with
  | ofNat n => exact ascii_ofNat n
  | negSucc n => exact ascii_cons.2 ⟨by decide, ascii_ofNat _⟩

theorem Ascii.wellFormed (h : Ascii t) : t.WellFormed := by
  intro c hc
  cases c with
  | scalar c => simp [CodePoint.isSurrogate]
  | surrogate i =>
    rcases h _ hc with heq | hrange
    · simp at heq
    · simp only [CodePoint.toNat] at hrange
      omega

theorem Ascii.return_not_mem (h : Ascii t) : scalar '\r' ∉ t := by
  intro hmem
  exact absurd (h _ hmem) (by decide)

end BundleGraph.Text
