import BundleGraph.Audit.Inspection
import BundleGraph.Proofs.Dependency.Construction
import BundleGraph.Proofs.Dependency.Edge

/-!
# What the inspections find

Each inspection reports the first violation in the order of the modules or of the map. This holds of
every map, also of one with targets that are no keys.
-/
namespace BundleGraph

/-- A module that declares a split ID which it may not have. -/
def Manifest.Misidentified (x : Manifest) : Prop := ∃ id ∈ x.splitId, x.isBase ∨ id ≠ x.name

namespace Inspection

variable {modules : List Manifest} {m : DependencyMap} {v : Violation}

theorem baseViolation?_of_no_base {expected : Name} (h : ∀ x ∈ modules, ¬x.isBase) :
    baseViolation? expected modules = some (.missingBase expected) := by
  have hnil : modules.filter Manifest.isBase = [] := List.filter_eq_nil_iff.2 h
  simp [baseViolation?, hnil]

theorem baseViolation?_of_base {expected : Name} (h : ∃ x ∈ modules, x.isBase) :
    baseViolation? expected modules = some v ↔
      ∃ x, IsFirst (fun x => x.isBase ∧ x.onDemand) modules x ∧ v = .onDemandBase x.name := by
  obtain ⟨x, hx, hbase⟩ := h
  have hne : modules.filter Manifest.isBase ≠ [] := by
    intro hnil
    exact List.filter_eq_nil_iff.1 hnil x hx hbase
  obtain ⟨b, bases, hbases⟩ := List.exists_cons_of_ne_nil hne
  have hfind : baseViolation? expected modules =
      (modules.find? fun x => x.isBase ∧ x.onDemand).map fun x => .onDemandBase x.name := by
    rw [← List.find?_filter]
    simp only [baseViolation?, hbases]
  rw [hfind, map_find?_eq_some_iff]
  simp only [decide_eq_true_eq]

theorem splitIdViolation?_eq_some_iff : splitIdViolation? modules = some v ↔
    ∃ x id, IsFirst Manifest.Misidentified modules x ∧ x.splitId = some id ∧
      v = if x.isBase then .baseSplitId x.name id else .foreignSplitId x.name id := by
  let violation? (x : Manifest) : Option Violation := x.splitId.bind fun id =>
    if x.isBase then some (.baseSplitId x.name id)
    else if id = x.name then none
    else some (.foreignSplitId x.name id)
  have hsome : ∀ x ∈ modules, ((violation? x).isSome ↔ x.Misidentified) := by
    intro x _
    cases hid : x.splitId with
    | none => simp [violation?, Manifest.Misidentified, hid]
    | some id =>
      by_cases hbase : x.isBase <;> by_cases hname : id = x.name <;>
        simp [violation?, Manifest.Misidentified, hid, hbase, hname]
  have hvalue : ∀ x, x.Misidentified → (violation? x = some v ↔ ∃ id, x.splitId = some id ∧
      v = if x.isBase then .baseSplitId x.name id else .foreignSplitId x.name id) := by
    rintro x ⟨id, hid, hx⟩
    obtain hid : x.splitId = some id := hid
    by_cases hbase : x.isBase
    · simpa [violation?, hid, hbase] using eq_comm
    · simpa [violation?, hid, hbase, hx.resolve_left hbase] using eq_comm
  change modules.findSome? violation? = some v ↔ _
  rw [findSome?_eq_some_iff_isFirst]
  simp only [isFirst_congr hsome]
  constructor
  · intro h
    obtain ⟨x, hx, hv⟩ := h
    obtain ⟨id, hid, hv⟩ := (hvalue x hx.holds).1 hv
    exact ⟨x, id, hx, hid, hv⟩
  · intro h
    obtain ⟨x, id, hx, hid, hv⟩ := h
    exact ⟨x, hx, (hvalue x hx.holds).2 ⟨id, hid, hv⟩⟩

theorem selfViolation?_eq_some_iff : selfViolation? m = some v ↔
    ∃ x, IsFirst (fun x => x ≠ m.base ∧ x ∈ m.get x) m.keys x ∧ v = .selfDependency x := by
  unfold selfViolation?
  rw [map_find?_eq_some_iff]
  simp only [DependencyMap.hasEdge, decide_eq_true_eq]

theorem firstRepeat?_eq_some_iff {seen l : List Name} {d : Name} :
    firstRepeat? seen l = some d ↔
      ∃ before, IsFirstAt (fun b y => y ∈ seen ∨ y ∈ b) l before d := by
  induction l generalizing seen with
  | nil => simp [firstRepeat?, not_isFirstAt_nil]
  | cons x l ih =>
    rw [firstRepeat?]
    split_ifs with hx
    · simp [isFirstAt_cons, hx, eq_comm]
    · rw [ih]
      simp only [isFirstAt_cons, hx, List.not_mem_nil, or_self, false_and, not_false_eq_true,
        true_and, false_or]
      constructor
      · intro h
        obtain ⟨before, hfirst⟩ := h
        refine ⟨x :: before, before, rfl, (isFirstAt_congr fun b y => ?_).1 hfirst⟩
        simp only [List.mem_cons]
        tauto
      · intro h
        obtain ⟨_, before, rfl, hfirst⟩ := h
        refine ⟨before, (isFirstAt_congr fun b y => ?_).1 hfirst⟩
        simp only [List.mem_cons]
        tauto

theorem firstRepeat?_eq_none_iff {seen l : List Name} :
    firstRepeat? seen l = none ↔ l.Nodup ∧ ∀ x ∈ l, x ∉ seen := by
  induction l generalizing seen with
  | nil => simp [firstRepeat?]
  | cons x l ih =>
    rw [firstRepeat?]
    split_ifs with hx
    · simp [hx]
    · rw [ih]
      simp only [List.mem_cons, List.nodup_cons, forall_eq_or_imp]
      grind

theorem repeatViolation?_eq_some_iff : repeatViolation? m = some v ↔
    ∃ row d, IsFirst (fun row => ¬row.2.Nodup) m.rows row ∧
      (∃ before, IsFirstAt (fun b y => y ∈ b) row.2 before d) ∧
      v = .repeatedDependency row.1 d := by
  have hsome : ∀ row ∈ m.rows,
      (((firstRepeat? [] row.2).map (Violation.repeatedDependency row.1)).isSome ↔
        ¬row.2.Nodup) := by
    intro row _
    rw [Option.isSome_map, Option.isSome_iff_ne_none, ne_eq, firstRepeat?_eq_none_iff]
    simp
  unfold repeatViolation?
  rw [findSome?_eq_some_iff_isFirst]
  simp only [isFirst_congr hsome, Option.map_eq_some_iff, firstRepeat?_eq_some_iff,
    List.not_mem_nil, false_or, eq_comm (a := v)]
  constructor
  · intro h
    obtain ⟨row, hrow, d, hd, hv⟩ := h
    exact ⟨row, d, hrow, hd, hv⟩
  · intro h
    obtain ⟨row, d, hrow, hd, hv⟩ := h
    exact ⟨row, hrow, d, hd, hv⟩

theorem unknownViolation?_eq_some_iff : unknownViolation? m = some v ↔
    ∃ d, IsFirst (· ∉ m.keys) m.targets d ∧ v = .unknownModule d := by
  unfold unknownViolation?
  rw [map_find?_eq_some_iff]
  simp only [decide_eq_true_eq]

theorem cycleViolation?_eq_some_iff : cycleViolation? m = some v ↔
    ∃ path, IsCyclePath m.get m.keys path ∧ v = .cycle path := by
  simp only [← DependencyMap.searchCycle_eq_error_iff]
  unfold cycleViolation?
  cases m.searchCycle <;> simp [eq_comm]

/-- A cycle of two names or more is found wherever the edges make one, and nowhere else. What is
told of it is a path of distinct names: it starts at the first key from which a cycle is reached,
goes along edges, and an edge leads from its end back to an earlier name. -/
theorem cycleViolation?_tells_cycle (m : DependencyMap) :
    ((∃ v, cycleViolation? m = some v) ↔ ∃ x, m.OnCycle x) ∧
      ∀ v, cycleViolation? m = some v → ∃ path, v = .cycle path ∧ path.Nodup ∧
        (∃ x ∈ path.head?, IsFirst m.ReachesCycle m.keys x) ∧ path.IsChain m.Edge ∧
        ∃ front d middle last, path = front ++ d :: (middle ++ [last]) ∧ m.Edge last d := by
  have hreaches : m.ReachesCycle = LeadsToCycle m.get := by
    funext x
    exact propext DependencyMap.reachesCycle_iff
  refine ⟨?_, fun v hv => ?_⟩
  · rw [← DependencyMap.exists_reachesCycle_iff, hreaches]
    constructor
    · rintro ⟨v, hv⟩
      obtain ⟨path, hpath, -⟩ := cycleViolation?_eq_some_iff.1 hv
      obtain ⟨x, -, hx⟩ := hpath.start
      exact ⟨x, hx.mem, hx.holds⟩
    · intro h
      obtain ⟨path, hpath⟩ := exists_isCyclePath (fun _ => DependencyMap.get_eq_nil) h
      exact ⟨_, cycleViolation?_eq_some_iff.2 ⟨path, hpath, rfl⟩⟩
  · obtain ⟨path, hpath, rfl⟩ := cycleViolation?_eq_some_iff.1 hv
    exact ⟨path, rfl, hpath.nodup, hreaches ▸ hpath.start,
      hpath.chain.imp fun _ _ h => h.edge, hpath.exists_back_edge⟩

/-- A dependency on oneself and one on a module that is not there make no cycle. -/
example : cycleViolation? (.ofPairs "base" [("base", ["base"]), ("a", ["a", "x", "b", "base"]),
    ("b", ["c", "base"]), ("c", ["b", "base"])]) = some (.cycle ["a", "b", "c"]) := by cbv

end Inspection

end BundleGraph
