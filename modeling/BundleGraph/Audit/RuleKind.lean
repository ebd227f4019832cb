import BundleGraph.Fault

/-!
# Kinds of rules

What a run has to know of its rules, whatever they look at and whatever they find: the state it
begins with, how a rule is called, which state a rule leaves or why it does not pass, and what of
that a report tells. The rules are run in order, up to the first one that does not pass.
-/
namespace BundleGraph

/-- Rules `ρ` that share a state `σ` while they are run. Of their failures `ε` some are told in a
report, the others are faults `φ`. -/
structure RuleKind (ρ σ ε φ : Type) where
  start : List Manifest → Name → σ
  name : ρ → Text
  check : σ → ρ → Except ε σ
  told : ε → Except φ Finding

namespace RuleKind

variable {ρ σ ε φ : Type} (k : RuleKind ρ σ ε φ)

/-- The rules run from a state; the first that does not pass is the end of it. -/
def raise (s : σ) : List ρ → Except ε Unit
  | [] => .ok ()
  | r :: rest =>
    match k.check s r with
    | .ok s' => raise s' rest
    | .error failure => .error failure

/-- Whether the modules pass the rules, with the first failure if they do not. -/
def validate (modules : List Manifest) (expected : Name) (rules : List ρ) : Except ε Unit :=
  k.raise (k.start modules expected) rules

end RuleKind

end BundleGraph
