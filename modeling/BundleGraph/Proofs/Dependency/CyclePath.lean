import Mathlib.Logic.Relation
import Mathlib.Data.List.Chain
import BundleGraph.Bundle.Manifest
import BundleGraph.Proofs.First

/-!
# Cycles and the path that shows one

A cycle leads through at least two names, so a name that depends on itself makes none. The path
that shows a cycle is determined: it starts at the first name from which a cycle can be reached and
follows, from each name, the first dependency that still leads into a cycle, until this one stands
on the path already.
-/
namespace BundleGraph

open Relation (ReflTransGen TransGen)

variable {deps : Name → List Name}

def DependsOn (deps : Name → List Name) (x y : Name) : Prop := y ∈ deps x ∧ y ≠ x

/-- A cycle can be reached from `x`. -/
def LeadsToCycle (deps : Name → List Name) (x : Name) : Prop :=
  ∃ y, ReflTransGen (DependsOn deps) x y ∧ TransGen (DependsOn deps) y y

/-- `y` is the first dependency of `x`, itself apart, from which a cycle can be reached. -/
def FollowedBy (deps : Name → List Name) (x y : Name) : Prop :=
  IsFirst (fun d => d ≠ x ∧ LeadsToCycle deps d) (deps x) y

/-- The path that shows a cycle among the dependencies of `keys`. -/
structure IsCyclePath (deps : Name → List Name) (keys path : List Name) : Prop where
  start : ∃ x ∈ path.head?, IsFirst (LeadsToCycle deps) keys x
  chain : path.IsChain (FollowedBy deps)
  nodup : path.Nodup
  closed : ∃ x ∈ path.getLast?, ∃ d ∈ path, FollowedBy deps x d

theorem IsCyclePath.exists_followedBy {keys path : List Name} (h : IsCyclePath deps keys path)
    {x : Name} (hx : x ∈ path) : ∃ d ∈ path, FollowedBy deps x d := by
  obtain ⟨before, after, rfl⟩ := List.append_of_mem hx
  cases after with
  | nil =>
    obtain ⟨y, hy, hclosed⟩ := h.closed
    obtain rfl : x = y := by simpa using hy
    exact hclosed
  | cons d after =>
    have hchain := (List.isChain_append.1 h.chain).2.1
    exact ⟨d, by simp, (List.isChain_cons_cons.1 hchain).1⟩

theorem LeadsToCycle.of_transGen {x : Name} (h : TransGen (DependsOn deps) x x) :
    LeadsToCycle deps x := ⟨x, .refl, h⟩

theorem LeadsToCycle.exists_dependsOn {x : Name} (hx : LeadsToCycle deps x) :
    ∃ y, DependsOn deps x y ∧ LeadsToCycle deps y := by
  obtain ⟨z, hxz, hz⟩ := hx
  rcases ReflTransGen.cases_head hxz with rfl | ⟨y, hxy, hyz⟩
  · obtain ⟨y, hxy, hyx⟩ := TransGen.head'_iff.1 hz
    exact ⟨y, hxy, _, hyx, hz⟩
  · exact ⟨y, hxy, z, hyz, hz⟩

theorem exists_followedBy {x : Name} (hx : LeadsToCycle deps x) : ∃ y, FollowedBy deps x y := by
  obtain ⟨y, hxy, hy⟩ := hx.exists_dependsOn
  exact exists_isFirst_iff.2 ⟨y, hxy.1, hxy.2, hy⟩

theorem not_leadsToCycle_of_acc {x : Name} (h : Acc (fun y x => DependsOn deps x y) x) :
    ¬LeadsToCycle deps x := by
  induction h with
  | intro x _ ih =>
    intro hx
    obtain ⟨y, hxy, hy⟩ := hx.exists_dependsOn
    exact ih y hxy hy

theorem mem_of_leadsToCycle {keys : List Name} (h : ∀ x, x ∉ keys → deps x = []) {x : Name}
    (hx : LeadsToCycle deps x) : x ∈ keys := by
  obtain ⟨y, hxy, _⟩ := hx.exists_dependsOn
  by_contra hkey
  have := hxy.1
  simp [h x hkey] at this

/-- If only keys have dependencies, every cycle can be reached from a key. -/
theorem exists_leadsToCycle_iff {keys : List Name} (h : ∀ x, x ∉ keys → deps x = []) :
    (∃ x ∈ keys, LeadsToCycle deps x) ↔ ∃ x, TransGen (DependsOn deps) x x := by
  constructor
  · intro h
    obtain ⟨_, _, y, _, hy⟩ := h
    exact ⟨y, hy⟩
  · intro h
    obtain ⟨x, hx⟩ := h
    exact ⟨x, mem_of_leadsToCycle h (.of_transGen hx), .of_transGen hx⟩

/-- A walk that always follows the first dependency from which a cycle can be reached. -/
structure IsWalk (deps : Name → List Name) (path : List Name) : Prop where
  chain : path.IsChain (FollowedBy deps)
  nodup : path.Nodup
  leads : ∀ x ∈ path, LeadsToCycle deps x

theorem IsWalk.length_le {keys path : List Name} (h : ∀ x, x ∉ keys → deps x = [])
    (hpath : IsWalk deps path) : path.length ≤ keys.length :=
  (hpath.nodup.subperm fun x hx => mem_of_leadsToCycle h (hpath.leads x hx)).length_le

/-- A walk has come back to itself, or it goes on. -/
theorem IsWalk.closed_or_concat {path : List Name} (h : IsWalk deps path) (hne : path ≠ []) :
    (∃ x ∈ path.getLast?, ∃ d ∈ path, FollowedBy deps x d) ∨ ∃ d, IsWalk deps (path ++ [d]) := by
  have hlast := List.getLast?_eq_some_getLast hne
  obtain ⟨d, hd⟩ := exists_followedBy (h.leads _ (List.getLast_mem hne))
  by_cases hmem : d ∈ path
  · exact .inl ⟨_, hlast, d, hmem, hd⟩
  · refine .inr ⟨d, List.isChain_append.2 ⟨h.chain, .singleton d, ?_⟩, ?_, ?_⟩
    · rintro x hx _ ⟨⟩
      obtain rfl := Option.some.inj (hlast.symm.trans hx)
      exact hd
    · rw [List.nodup_append_comm]
      exact List.nodup_cons.2 ⟨hmem, h.nodup⟩
    · intro x hx
      rcases List.mem_append.1 hx with hx | hx
      · exact h.leads x hx
      · rw [List.mem_singleton.1 hx]
        exact hd.holds.2

/-- There are only so many names, so a walk that goes on comes back to itself. -/
theorem IsWalk.exists_closed {keys path : List Name} {x : Name}
    (h : ∀ x, x ∉ keys → deps x = []) (hpath : IsWalk deps path) (start : path.head? = some x)
    (n : ℕ) (bound : keys.length ≤ path.length + n) :
    ∃ path', IsWalk deps path' ∧ path'.head? = some x ∧
      ∃ y ∈ path'.getLast?, ∃ d ∈ path', FollowedBy deps y d := by
  have hne : path ≠ [] := by rintro rfl; simp at start
  induction n generalizing path with
  | zero =>
    rcases hpath.closed_or_concat hne with closed | ⟨d, hd⟩
    · exact ⟨path, hpath, start, closed⟩
    · have := hd.length_le h
      simp at this
      omega
  | succ n ih =>
    rcases hpath.closed_or_concat hne with closed | ⟨d, hd⟩
    · exact ⟨path, hpath, start, closed⟩
    · exact ih hd (by rw [List.head?_append, start]; rfl) (by simp; omega) (by simp)

theorem exists_isCyclePath {keys : List Name} (h : ∀ x, x ∉ keys → deps x = [])
    (hkeys : ∃ x ∈ keys, LeadsToCycle deps x) : ∃ path, IsCyclePath deps keys path := by
  obtain ⟨x, hx⟩ := exists_isFirst_iff.2 hkeys
  have hwalk : IsWalk deps [x] :=
    ⟨.singleton x, List.nodup_singleton x, by simpa using hx.holds⟩
  obtain ⟨path, hpath, start, closed⟩ := hwalk.exists_closed h rfl keys.length (by simp)
  exact ⟨path, ⟨x, start, hx⟩, hpath.chain, hpath.nodup, closed⟩

theorem FollowedBy.unique {x y z : Name} (hy : FollowedBy deps x y) (hz : FollowedBy deps x z) :
    y = z :=
  IsFirst.unique hy hz

/-- Of two walks from one start, each step of which is determined, one goes on where the other
ends. -/
theorem isPrefix_or_isPrefix_of_isChain {x : Name} {l l' : List Name}
    (chain : (x :: l).IsChain (FollowedBy deps)) (chain' : (x :: l').IsChain (FollowedBy deps)) :
    l <+: l' ∨ l' <+: l := by
  induction l generalizing x l' with
  | nil => exact .inl List.nil_prefix
  | cons y l ih =>
    cases l' with
    | nil => exact .inr List.nil_prefix
    | cons y' l' =>
      rw [List.isChain_cons_cons] at chain chain'
      obtain rfl := chain.1.unique chain'.1
      rcases ih chain.2 chain'.2 with h | h
      · exact .inl (List.cons_prefix_cons.2 ⟨rfl, h⟩)
      · exact .inr (List.cons_prefix_cons.2 ⟨rfl, h⟩)

/-- A walk that has come back to itself cannot go on without repeating a name. -/
theorem IsCyclePath.eq_of_isPrefix {keys path path' : List Name} (h : IsCyclePath deps keys path)
    (h' : IsCyclePath deps keys path') (hp : path <+: path') : path = path' := by
  obtain ⟨rest, rfl⟩ := hp
  cases rest with
  | nil => simp
  | cons y rest =>
    obtain ⟨x, hx, d, hd, hxd⟩ := h.closed
    have hxy : FollowedBy deps x y := (List.isChain_append.1 h'.chain).2.2 x hx y rfl
    obtain rfl := hxd.unique hxy
    exact absurd rfl ((List.nodup_append.1 h'.nodup).2.2 d hd d (by simp))

theorem IsCyclePath.unique {keys path path' : List Name} (h : IsCyclePath deps keys path)
    (h' : IsCyclePath deps keys path') : path = path' := by
  obtain ⟨x, hx, hfirst⟩ := h.start
  obtain ⟨x', hx', hfirst'⟩ := h'.start
  obtain rfl := hfirst.unique hfirst'
  obtain ⟨l, rfl⟩ := List.head?_eq_some_iff.1 hx
  obtain ⟨l', rfl⟩ := List.head?_eq_some_iff.1 hx'
  rcases isPrefix_or_isPrefix_of_isChain h.chain h'.chain with hl | hl
  · exact h.eq_of_isPrefix h' (List.cons_prefix_cons.2 ⟨rfl, hl⟩)
  · exact (h'.eq_of_isPrefix h (List.cons_prefix_cons.2 ⟨rfl, hl⟩)).symm

end BundleGraph
