import BundleGraph.Dependency.Construction
import BundleGraph.Proofs.First

/-!
# What the construction of a map builds

The first module that repeats a name or declares the implicit dependency stops the construction;
where it does both, the repeated name counts. Otherwise the rows are the modules in order, each with
its declared dependencies and the root behind them.
-/
namespace BundleGraph

/-- A module that finds no place behind the modules before it. -/
def Misplaced (root : Name) (before : List Manifest) (x : Manifest) : Prop :=
  x.name ∈ before.map Manifest.name ∨ root ∈ x.usesSplits

def misplacement (root : Name) (before : List Manifest) (x : Manifest) : Violation :=
  if x.name ∈ before.map Manifest.name then .duplicateModule x.name
  else .explicitBase x.name root

def Manifest.row (root : Name) (x : Manifest) : Name × List Name := (x.name, x.usesSplits ++ [root])

/-- What the module of a name depends on: its declared dependencies, and then the root. -/
def dependenciesIn (root : Name) (modules : List Manifest) (name : Name) : List Name :=
  ((modules.find? fun x => x.name = name).map fun x => x.usesSplits ++ [root]).getD []

namespace DependencyMap

/-- A map that holds exactly the modules. -/
structure Describes (m : DependencyMap) (root : Name) (modules : List Manifest) : Prop where
  root_eq : baseName? modules = some root
  base_eq : m.base = root
  rows_eq : m.rows = modules.map (Manifest.row root)
  implicit : ∀ x ∈ modules, root ∉ x.usesSplits

variable {m m' : DependencyMap} {root : Name} {modules : List Manifest} {v : Violation}

theorem addModule_of_misplaced {seen : List Manifest} {x : Manifest}
    (hm : m.keys = seen.map Manifest.name) (hx : Misplaced m.base seen x) :
    m.addModule x = .error (misplacement m.base seen x) := by
  unfold addModule misplacement
  by_cases hname : x.name ∈ m.keys
  · rw [dif_pos hname, if_pos (hm ▸ hname)]
  · have hseen : x.name ∉ seen.map Manifest.name := hm ▸ hname
    rw [dif_neg hname, if_neg hseen, if_pos (hx.resolve_left hseen)]

theorem addModule_of_not_misplaced {seen : List Manifest} {x : Manifest}
    (hm : m.keys = seen.map Manifest.name) (hx : ¬Misplaced m.base seen x) :
    ∃ fresh, m.addModule x = .ok (m.push x.name (x.usesSplits ++ [m.base]) fresh) := by
  unfold Misplaced at hx
  push Not at hx
  have fresh : x.name ∉ m.keys := hm ▸ hx.1
  exact ⟨fresh, by rw [addModule, dif_neg fresh, if_neg hx.2]⟩

theorem addModules_cases (seen : List Manifest) (hm : m.keys = seen.map Manifest.name) :
    (∃ m', m.addModules modules = .ok m' ∧ m'.base = m.base ∧
      m'.rows = m.rows ++ modules.map (Manifest.row m.base) ∧
      ∀ before x, ¬IsFirstAt (fun b y => Misplaced m.base (seen ++ b) y) modules before x) ∨
    ∃ before x, m.addModules modules = .error (misplacement m.base (seen ++ before) x) ∧
      IsFirstAt (fun b y => Misplaced m.base (seen ++ b) y) modules before x := by
  induction modules generalizing m seen with
  | nil => exact .inl ⟨m, rfl, rfl, by simp, fun b y => not_isFirstAt_nil _ b y⟩
  | cons x modules ih =>
    by_cases hx : Misplaced m.base seen x
    · refine .inr ⟨[], x, ?_, isFirstAt_cons.2 (.inl ⟨by simpa using hx, rfl, rfl⟩)⟩
      simp [addModules, addModule_of_misplaced hm hx, Except.bind]
    · obtain ⟨fresh, hadd⟩ := addModule_of_not_misplaced hm hx
      have hnext : m.addModules (x :: modules) =
          (m.push x.name (x.usesSplits ++ [m.base]) fresh).addModules modules := by
        simp [addModules, hadd, Except.bind]
      have ih := ih (seen ++ [x]) (m := m.push x.name (x.usesSplits ++ [m.base]) fresh)
        (by simp [hm])
      simp only [List.append_assoc, List.singleton_append] at ih
      rw [hnext]
      rcases ih with ⟨m', hadd', hbase, hrows, hnone⟩ | ⟨before, y, hadd', hfirst⟩
      · refine .inl ⟨m', hadd', hbase, ?_, ?_⟩
        · simp [hrows, push, Manifest.row]
        · intro b y hy
          rcases isFirstAt_cons.1 hy with ⟨hx', -, -⟩ | ⟨-, b', -, hy'⟩
          · exact hx (by simpa using hx')
          · exact hnone b' y hy'
      · exact .inr ⟨x :: before, y, hadd',
          isFirstAt_cons.2 (.inr ⟨by simpa using hx, before, rfl, hfirst⟩)⟩

/-- The construction ends in a map that describes the modules, or at the first misplaced one. -/
theorem ofModules_cases (hroot : baseName? modules = some root) :
    (∃ m, ofModules modules = .ok m ∧ m.Describes root modules ∧
      ∀ before x, ¬IsFirstAt (Misplaced root) modules before x) ∨
    ∃ before x, ofModules modules = .error (.violation (misplacement root before x)) ∧
      IsFirstAt (Misplaced root) modules before x := by
  rcases addModules_cases (m := empty root) [] rfl with
    ⟨m, hadd, hbase, hrows, hnone⟩ | ⟨before, x, hadd, hfirst⟩
  · refine .inl ⟨m, by simp [ofModules, hroot, hadd, Except.mapError],
      ⟨hroot, hbase, hrows, fun x hx h => ?_⟩, hnone⟩
    obtain ⟨before, after, rfl⟩ := List.append_of_mem hx
    have hx : Misplaced root before x := .inr h
    obtain ⟨b, y, hy⟩ := exists_isFirstAt after hx
    exact hnone b y hy
  · refine .inr ⟨before, x, ?_, hfirst⟩
    unfold ofModules
    rw [hroot]
    simp only [hadd]
    rfl

theorem exists_describes (h : ofModules modules = .ok m) : ∃ root, m.Describes root modules := by
  cases hroot : baseName? modules with
  | none => simp [ofModules, hroot] at h
  | some root =>
    rcases ofModules_cases hroot with ⟨m', hm, hdesc, -⟩ | ⟨before, x, hm, -⟩
    · rw [hm, Except.ok.injEq] at h
      exact ⟨root, h ▸ hdesc⟩
    · simp [hm] at h

/-- The construction gives up without a violation only where there is no base module. -/
theorem ofModules_eq_fault_iff {f : Fault} :
    ofModules modules = .error (.fault f) ↔ baseName? modules = none ∧ f = .noBaseModule := by
  cases hroot : baseName? modules with
  | none => simp [ofModules, hroot, eq_comm]
  | some root =>
    rcases ofModules_cases hroot with ⟨m', hm, -⟩ | ⟨before, x, hm, -⟩ <;> simp [hm]

end DependencyMap

theorem baseName?_eq_none_iff {modules : List Manifest} :
    baseName? modules = none ↔ ∀ x ∈ modules, ¬x.isBase := by
  simp [baseName?]

theorem baseName?_eq_some_iff {modules : List Manifest} {root : Name} :
    baseName? modules = some root ↔
      ∃ x, IsFirst (fun x => x.isBase) modules x ∧ x.name = root := by
  simp [baseName?, find?_eq_some_iff_isFirst]

theorem find?_name_eq {modules : List Manifest} (h : (modules.map Manifest.name).Nodup)
    {x : Manifest} (hx : x ∈ modules) : modules.find? (fun y => y.name = x.name) = some x := by
  induction modules with
  | nil => simp at hx
  | cons a modules ih =>
    rw [List.map_cons, List.nodup_cons] at h
    rcases List.mem_cons.1 hx with rfl | hx
    · simp
    · have ha : a.name ≠ x.name := fun e => h.1 (e ▸ List.mem_map_of_mem hx)
      rw [List.find?_cons_of_neg (by simpa using ha)]
      exact ih h.2 hx

theorem last?_name_eq {modules : List Manifest} (h : (modules.map Manifest.name).Nodup)
    {x : Manifest} (hx : x ∈ modules) : Manifest.last? modules x.name = some x :=
  find?_name_eq (by rwa [List.map_reverse, List.nodup_reverse]) (List.mem_reverse.2 hx)

theorem last?_eq_none_iff {modules : List Manifest} {name : Name} :
    Manifest.last? modules name = none ↔ name ∉ modules.map Manifest.name := by
  simp [Manifest.last?]

theorem last?_eq_some_iff {modules : List Manifest} {name : Name} {x : Manifest} :
    Manifest.last? modules name = some x ↔ IsLast (fun y => y.name = name) modules x := by
  unfold Manifest.last?
  rw [find?_eq_some_iff_isFirst, isFirst_reverse]
  simp only [decide_eq_true_eq]

theorem lookup_map_row (root name : Name) (modules : List Manifest) :
    (modules.map (Manifest.row root)).lookup name =
      (modules.find? fun x => x.name = name).map fun x => x.usesSplits ++ [root] := by
  induction modules with
  | nil => rfl
  | cons x modules ih =>
    rw [List.map_cons, Manifest.row, List.lookup_cons, List.find?_cons, ih]
    by_cases h : x.name = name
    · simp [h]
    · simp [h, beq_eq_false_iff_ne.2 (Ne.symm h)]

theorem dependenciesIn_eq_nil {root name : Name} {modules : List Manifest}
    (h : name ∉ modules.map Manifest.name) : dependenciesIn root modules name = [] := by
  have hnone : modules.find? (fun x => x.name = name) = none := by
    rw [List.find?_eq_none]
    intro x hx hxn
    exact h (by simpa using ⟨x, hx, by simpa using hxn⟩)
  simp [dependenciesIn, hnone]

/-- Among distinct names a dependency is one that the module of the name has. -/
theorem mem_dependenciesIn_iff {root name d : Name} {modules : List Manifest}
    (h : (modules.map Manifest.name).Nodup) : d ∈ dependenciesIn root modules name ↔
      ∃ x ∈ modules, x.name = name ∧ (d ∈ x.usesSplits ∨ d = root) := by
  by_cases hname : name ∈ modules.map Manifest.name
  · obtain ⟨x, hx, rfl⟩ := List.mem_map.1 hname
    have heq : dependenciesIn root modules x.name = x.usesSplits ++ [root] := by
      simp [dependenciesIn, find?_name_eq h hx]
    rw [heq, List.mem_append, List.mem_singleton]
    constructor
    · exact fun hd => ⟨x, hx, rfl, hd⟩
    · rintro ⟨y, hy, hyx, hd⟩
      exact List.inj_on_of_nodup_map h hy hx hyx ▸ hd
  · rw [dependenciesIn_eq_nil hname]
    constructor
    · simp
    · rintro ⟨x, hx, rfl, -⟩
      exact absurd (List.mem_map_of_mem hx) hname

namespace DependencyMap.Describes

variable {m : DependencyMap} {root : Name} {modules : List Manifest} (h : m.Describes root modules)

include h

theorem keys_eq : m.keys = modules.map Manifest.name := by
  unfold keys
  rw [Assoc.keys, h.rows_eq, List.map_map]
  rfl

theorem nodup_names : (modules.map Manifest.name).Nodup := h.keys_eq ▸ m.nodup

theorem root_mem : root ∈ modules.map Manifest.name := by
  obtain ⟨x, hx, rfl⟩ := baseName?_eq_some_iff.1 h.root_eq
  exact List.mem_map_of_mem hx.mem

theorem get_eq : m.get = dependenciesIn root modules := by
  funext name
  unfold get
  rw [get?, h.rows_eq, lookup_map_row]
  rfl

theorem dependenciesIn_name {x : Manifest} (hx : x ∈ modules) :
    dependenciesIn root modules x.name = x.usesSplits ++ [root] := by
  simp [dependenciesIn, find?_name_eq h.nodup_names hx]

theorem edges_eq : m.edges =
    modules.flatMap fun x => (x.usesSplits ++ [root]).map (x.name, ·) := by
  unfold edges
  rw [h.rows_eq, List.flatMap_map]
  rfl

theorem targets_eq : m.targets = modules.flatMap fun x => x.usesSplits ++ [root] := by
  unfold targets
  rw [h.edges_eq, List.map_flatMap]
  simp

end DependencyMap.Describes

end BundleGraph
