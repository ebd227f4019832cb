import BundleGraph.Proofs.Audit.InstallationOrder

/-!
# The root among several base modules

No rule counts the base modules. An accepted bundle has one, and the first of them is the root of
the map; but there may be more, and then the order of the modules decides which one is the root. A
base module that comes to stand first is accepted there just if it declares nothing and no module
declares it.
-/
namespace BundleGraph

open Relation (TransGen)

/-- A module that takes no part in the declared dependencies. -/
structure Manifest.Detached (x : Manifest) (modules : List Manifest) : Prop where
  declares : x.usesSplits = []
  declared : ∀ y ∈ modules, x.name ∉ y.usesSplits

/-- Every step of a cycle is followed by another one. -/
theorem transGen_of_followed_steps {α : Type*} {r s : α → α → Prop}
    (h : ∀ x y z, r x y → r y z → s x y) {x : α} (hx : TransGen r x x) : TransGen s x x := by
  have hwalk : ∀ y, TransGen r x y → (∃ z, r y z) → TransGen s x y := by
    intro y hxy
    induction hxy with
    | single hxy =>
      rintro ⟨z, hyz⟩
      exact .single (h _ _ z hxy hyz)
    | tail _ hyw ih =>
      rintro ⟨z, hwz⟩
      exact (ih ⟨_, hyw⟩).tail (h _ _ z hyw hwz)
  obtain ⟨y, hxy, -⟩ := TransGen.head'_iff.1 hx
  exact hwalk x hx ⟨y, hxy⟩

theorem countP_eq_one_iff {α : Type*} {p : α → Bool} {l : List α} {x : α} (hnodup : l.Nodup)
    (hx : x ∈ l) (hp : p x) : l.countP p = 1 ↔ ∀ y ∈ l, p y → y = x := by
  rw [List.countP_eq_length_filter]
  constructor
  · intro h y hy hpy
    obtain ⟨a, ha⟩ := List.length_eq_one_iff.1 h
    have hmem : ∀ z, z ∈ l ∧ p z ↔ z = a := by
      intro z
      rw [← List.mem_filter, ha, List.mem_singleton]
    rw [(hmem y).1 ⟨hy, hpy⟩, (hmem x).1 ⟨hx, hp⟩]
  · intro h
    have hperm : (l.filter p).Perm [x] := by
      rw [List.perm_ext_iff_of_nodup (hnodup.filter p) (List.nodup_singleton x)]
      intro y
      rw [List.mem_filter, List.mem_singleton]
      constructor
      · exact fun hy => h y hy.1 hy.2
      · rintro rfl
        exact ⟨hx, hp⟩
    exact hperm.length_eq

section Permuted

variable {modules modules' : List Manifest} {root root' : Manifest} {expected : Name}

/-- Another root, which no module has any dependency with, closes no cycle. -/
theorem Sound.acyclic_of_detached (h : Sound root.name modules) (hperm : modules.Perm modules')
    (hmem : root' ∈ modules') (hroot' : root'.Detached modules') (x : Name) :
    ¬TransGen (DependsOn (dependenciesIn root'.name modules')) x x := by
  have hnodup : (modules'.map Manifest.name).Nodup := (hperm.map _).nodup_iff.1 h.nodup
  refine fun hx => h.acyclic x (transGen_of_followed_steps (fun a b c hab hbc => ?_) hx)
  obtain ⟨hab, hne⟩ := hab
  obtain ⟨y, hy, rfl, hb | rfl⟩ := (mem_dependenciesIn_iff hnodup).1 hab
  · exact ⟨(mem_dependenciesIn_iff h.nodup).2 ⟨y, hperm.mem_iff.2 hy, rfl, .inl hb⟩, hne⟩
  · -- Nothing follows the root, for it only depends on itself.
    obtain ⟨hbc, hne'⟩ := hbc
    obtain ⟨z, hz, hzroot, hc⟩ := (mem_dependenciesIn_iff hnodup).1 hbc
    obtain rfl := List.inj_on_of_nodup_map hnodup hz hmem hzroot
    simp [hroot'.declares, hne'] at hc

/-- Another order is sound about another root that is detached. -/
theorem Sound.of_perm (h : Sound root.name modules) (hperm : modules.Perm modules')
    (hmem : root' ∈ modules') (hroot' : root'.Detached modules') : Sound root'.name modules' where
  installTime x hx := h.installTime x (hperm.mem_iff.2 hx)
  identified x hx := h.identified x (hperm.mem_iff.2 hx)
  nodup := (hperm.map _).nodup_iff.1 h.nodup
  implicit := hroot'.declared
  other x hx := h.other x (hperm.mem_iff.2 hx)
  distinct x hx := h.distinct x (hperm.mem_iff.2 hx)
  known x hx d hd := (hperm.map _).mem_iff.1 (h.known x (hperm.mem_iff.2 hx) d hd)
  acyclic := h.acyclic_of_detached hperm hmem hroot'
  delivery x hx d hd hdemand y hy :=
    h.delivery x (hperm.mem_iff.2 hx) d hd hdemand y (hperm.mem_iff.2 hy)

theorem sound_of_validate (h : validate modules expected = .ok ())
    (hroot : IsFirst (fun x => x.isBase) modules root) : Sound root.name modules := by
  obtain ⟨name, hname, hsound⟩ := validate_eq_ok_iff.1 h
  obtain ⟨x, hx, rfl⟩ := baseName?_eq_some_iff.1 hname
  exact hx.unique hroot ▸ hsound

theorem detached_of_validate (h : validate modules expected = .ok ())
    (hroot : IsFirst (fun x => x.isBase) modules root) : root.Detached modules := by
  have hconsistent := (sound_of_validate h hroot).consistent hroot
  exact ⟨hconsistent.usesSplits_root, hconsistent.implicit⟩

theorem base_of_validate (h : validate modules expected = .ok ())
    (hroot : IsFirst (fun x => x.isBase) modules root) :
    ∃ m, DependencyMap.ofModules modules = .ok m ∧ m.base = root.name := by
  obtain ⟨m, hm, hdesc⟩ :=
    (sound_of_validate h hroot).exists_describes (baseName?_eq_some_iff.2 ⟨root, hroot, rfl⟩)
  exact ⟨m, hm, hdesc.base_eq⟩

/-- An accepted bundle is accepted in another order just if its root there is detached. -/
theorem validate_of_perm_iff (h : validate modules expected = .ok ())
    (hperm : modules.Perm modules') (hroot' : IsFirst (fun x => x.isBase) modules' root') :
    validate modules' expected = .ok () ↔ root'.Detached modules' := by
  constructor
  · exact fun h' => detached_of_validate h' hroot'
  · intro hdetached
    obtain ⟨name, hname, hsound⟩ := validate_eq_ok_iff.1 h
    obtain ⟨root, -, rfl⟩ := baseName?_eq_some_iff.1 hname
    exact validate_eq_ok_iff.2 ⟨root'.name, baseName?_eq_some_iff.2 ⟨root', hroot', rfl⟩,
      hsound.of_perm hperm hroot'.mem hdetached⟩

end Permuted

/-- An accepted bundle has a base module, and the first one is the root. It is the only one just if
the bundle is accepted in every order, always with the same root. With several of them an order is
accepted just if the base module that stands first there is detached, and then that one is the
root. -/
theorem accepted_in_every_order_iff {modules : List Manifest} {expected : Name}
    (h : validate modules expected = .ok ()) :
    ∃ root m, IsFirst (fun x => x.isBase) modules root ∧
      DependencyMap.ofModules modules = .ok m ∧ m.base = root.name ∧
      (modules.countP Manifest.isBase = 1 ↔ ∀ modules', modules.Perm modules' →
        validate modules' expected = .ok () ∧
          ∃ m', DependencyMap.ofModules modules' = .ok m' ∧ m'.base = m.base) ∧
      ∀ modules' root', modules.Perm modules' → IsFirst (fun x => x.isBase) modules' root' →
        (validate modules' expected = .ok () ↔ root'.Detached modules') ∧
          (root'.Detached modules' →
            ∃ m', DependencyMap.ofModules modules' = .ok m' ∧ m'.base = root'.name) := by
  obtain ⟨name, hname, hsound⟩ := validate_eq_ok_iff.1 h
  obtain ⟨root, hroot, rfl⟩ := baseName?_eq_some_iff.1 hname
  obtain ⟨m, hm, hbase⟩ := base_of_validate h hroot
  refine ⟨root, m, hroot, hm, hbase, ?_, fun modules' root' hperm hroot' =>
    ⟨validate_of_perm_iff h hperm hroot', fun hdetached =>
      base_of_validate ((validate_of_perm_iff h hperm hroot').2 hdetached) hroot'⟩⟩
  rw [countP_eq_one_iff hsound.nodup.of_map hroot.mem hroot.holds, hbase]
  constructor
  · intro honly modules' hperm
    obtain ⟨root', hroot'⟩ := (exists_isFirst_iff (p := fun x => x.isBase)).2
      ⟨root, hperm.mem_iff.1 hroot.mem, hroot.holds⟩
    obtain rfl := honly root' (hperm.mem_iff.2 hroot'.mem) hroot'.holds
    have hdetached := detached_of_validate h hroot
    have h' := (validate_of_perm_iff h hperm hroot').2
      ⟨hdetached.declares, fun y hy => hdetached.declared y (hperm.mem_iff.2 hy)⟩
    exact ⟨h', base_of_validate h' hroot'⟩
  · -- Put in front of the others, a base module is the root.
    intro hall y hy hybase
    obtain ⟨h', m', hm', hbase'⟩ := hall _ (List.perm_cons_erase hy)
    have hroot' : IsFirst (fun x => x.isBase) (y :: modules.erase y) y :=
      isFirst_cons.2 (.inl ⟨hybase, rfl⟩)
    obtain ⟨m'', hm'', hbase''⟩ := base_of_validate h' hroot'
    obtain rfl := Except.ok.inj (hm'.symm.trans hm'')
    exact List.inj_on_of_nodup_map hsound.nodup hy hroot.mem (hbase''.symm.trans hbase')

/-- Two base modules, the second of which is declared by a module. -/
theorem accepted_in_every_order_iff_core :
    let modules : List Manifest := [⟨"base", true, false, none, []⟩,
      ⟨"core", true, false, none, []⟩, ⟨"a", false, false, none, ["core"]⟩]
    validate modules "base" = .ok () ∧ modules.countP Manifest.isBase = 2 ∧
      ∃ root m, IsFirst (fun x => x.isBase) modules root ∧
        DependencyMap.ofModules modules = .ok m ∧ m.base = root.name ∧
        (modules.countP Manifest.isBase = 1 ↔ ∀ modules', modules.Perm modules' →
          validate modules' "base" = .ok () ∧
            ∃ m', DependencyMap.ofModules modules' = .ok m' ∧ m'.base = m.base) ∧
        ∀ modules' root', modules.Perm modules' → IsFirst (fun x => x.isBase) modules' root' →
          (validate modules' "base" = .ok () ↔ root'.Detached modules') ∧
            (root'.Detached modules' →
              ∃ m', DependencyMap.ofModules modules' = .ok m' ∧ m'.base = root'.name) := by
  intro modules
  have h : validate modules "base" = .ok () := by cbv
  exact ⟨h, rfl, accepted_in_every_order_iff h⟩

/-- Accepted bundles with two base modules: one of them is not accepted in another order, and one
has another root there. -/
theorem accepted_with_two_base_modules :
    let base : Manifest := ⟨"base", true, false, none, []⟩
    let core : Manifest := ⟨"core", true, false, none, []⟩
    let user : Manifest := ⟨"a", false, false, none, ["core"]⟩
    validate [base, core, user] "base" = .ok () ∧
      [base, core, user].countP Manifest.isBase = 2 ∧
      validate [core, base, user] "base" = .error (.violation (.explicitBase "a" "core")) ∧
      validate [base, core] "base" = .ok () ∧ validate [core, base] "base" = .ok () ∧
      (DependencyMap.ofModules [base, core]).map DependencyMap.base = .ok "base" ∧
      (DependencyMap.ofModules [core, base]).map DependencyMap.base = .ok "core" := by
  intro base core user
  exact ⟨by cbv, rfl, by cbv, by cbv, by cbv, rfl, rfl⟩

end BundleGraph
