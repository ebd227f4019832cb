import BundleGraph.Bundle.Loading
import BundleGraph.Proofs.Files.Lookup
import BundleGraph.Proofs.Json.Limits
import BundleGraph.Proofs.Text.Utf8
import BundleGraph.Settings.Loading

/-!
# Loading documents

A document is loaded, or an error names its kind and its path, or a fault escapes. The faults that
escape are those of a path that is too long or leads through a closed directory, and of a document
that passes a limit of the reader, whatever kind of document is expected.
-/
namespace BundleGraph

open CodePoint (scalar)

/-- The text of the open file at a path, with unified line breaks. -/
def FileTree.Holds (files : FileTree) (path : Path) (document : Text) : Prop :=
  ∃ bytes text, files.lookup path = .ok (some (.file bytes)) ∧ files.isClosed path = false ∧
    Utf8.decode bytes = .ok text ∧ document = Document.unifyLineBreaks text

/-- The faults that escape when the document at a path is loaded. -/
inductive Escapes (limits : Json.Limits) (files : FileTree) (path : Path) : Fault → Prop
  | nameTooLong (long : files.TooLong path) : Escapes limits files path (.nameTooLong path)
  | forbidden (barred : files.Barred path) : Escapes limits files path (.forbidden path)
  | integerTooLong (document : Text) (digits : Nat) (held : files.Holds path document)
      (error : Json.read limits document = .error (.integerTooLong digits)) :
      Escapes limits files path (.integerTooLong limits.digits digits)
  | nestingTooDeep (document : Text) (held : files.Holds path document)
      (error : Json.read limits document = .error .tooDeep) :
      Escapes limits files path .nestingTooDeep

variable {α : Type} {limits : Json.Limits} {files : FileTree} {path : Path} {kind : DocumentKind}
variable {bytes : List UInt8}
variable {decode : Json.Value → Except DocumentDefect α} {f : Fault} {document t : Text}

namespace Document

theorem unifyLineBreaks_eq_self (h : scalar '\r' ∉ t) : unifyLineBreaks t = t := by
  induction t with
  | nil => rfl
  | cons c t ih =>
    obtain ⟨hc, ht⟩ := not_or.1 (mt List.mem_cons.2 h)
    rw [unifyLineBreaks.eq_def]
    simp [ih ht, Ne.symm hc]

end Document

section Limits

/-- What a path or the document there has too much of, or the closed directory on the way, if a
fault escapes. -/
inductive Excess (limits : Json.Limits) (files : FileTree) (path : Path) : Fault → Prop
  | name (long : files.TooLong path) : Excess limits files path (.nameTooLong path)
  | barrier (barred : files.Barred path) : Excess limits files path (.forbidden path)
  | digits (document run : Text) (held : files.Holds path document) (within : run <:+: document)
      (all : ∀ c ∈ run, c.isDigit) (long : limits.digits < run.length) :
      Excess limits files path (.integerTooLong limits.digits run.length)
  | brackets (document : Text) (held : files.Holds path document)
      (deep : limits.depth < Json.openings document) : Excess limits files path .nestingTooDeep

theorem Escapes.excess (h : Escapes limits files path f) : Excess limits files path f := by
  cases h with
  | nameTooLong long => exact .name long
  | forbidden barred => exact .barrier barred
  | integerTooLong document digits held error =>
    cases Json.read_reason error with
    | integerTooLong run all within long => exact .digits document run held within all long
  | nestingTooDeep document held error =>
    cases Json.read_reason error with
    | tooDeep deep => exact .brackets document held deep

end Limits

end BundleGraph
