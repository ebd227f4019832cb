import BundleGraph.Schema.Decode
import BundleGraph.Proofs.Json.Content

/-!
# What a decoder takes

What a value looked like from which something was decoded. A record has an object behind it, each
item of a list a value of its own, and a name a string with a UTF-8 form. So what was decoded is no
larger than the value.
-/
namespace BundleGraph.Schema

open Json (Value)

variable {α β : Type} {a : α} {b : β} {v : Value} {members : Members}

theorem map_eq_ok_iff {x : Decoded α} {f : α → β} :
    x.map f = .ok b ↔ ∃ a, x = .ok a ∧ f a = b := by
  cases x <;> simp [Except.map]

theorem Decoded.both_eq_ok_iff {x : Decoded α} {y : Decoded β} :
    Decoded.both x y = .ok (a, b) ↔ x = .ok a ∧ y = .ok b := by
  cases x <;> cases y <;> simp [Decoded.both]

theorem Decoded.under_eq_ok_iff {step : Step} {x : Decoded α} :
    Decoded.under step x = .ok a ↔ x = .ok a := by
  cases x <;> simp [Decoded.under]

theorem nonemptyText_of_ok {t : Text} (h : nonemptyText v = .ok t) : t.WellFormed ∧ t ≠ [] := by
  cases v with
  | string u =>
    by_cases hsurrogate : u.hasSurrogate
    · simp [nonemptyText, defect, hsurrogate] at h
    · by_cases hempty : u = []
      · simp [nonemptyText, defect, hempty, Text.hasSurrogate] at h
      · obtain rfl : u = t := by simpa [nonemptyText, hsurrogate, hempty] using h
        exact ⟨by simpa [Text.hasSurrogate, Text.WellFormed] using hsurrogate, hempty⟩
  | _ => simp [nonemptyText, defect] at h

theorem text_eq_ok_iff {t : Text} : text v = .ok t ↔ v = .string t := by
  cases v <;> simp [text, defect]

theorem of_nullable {decode : Value → Decoded α} {x : Option α}
    (h : nullable decode v = .ok x) : ∀ a ∈ x, decode v = .ok a := by
  rintro a rfl
  unfold nullable at h
  split at h
  · simp at h
  · obtain ⟨a', ha, heq⟩ := map_eq_ok_iff.1 h
    rwa [← Option.some.inj heq]

theorem Field.mem_of_find? {f : Field} {p : Text × Value} (h : f.find? members = some p) :
    p ∈ members := by
  obtain ⟨key, -, hkey⟩ := List.exists_of_findSome?_eq_some h
  obtain ⟨v, hv, rfl⟩ := Option.map_eq_some_iff.1 hkey
  obtain ⟨before, after, rfl, -⟩ := List.lookup_eq_some_iff.1 hv
  simp

theorem exists_of_required {f : Field} {decode : Value → Decoded α}
    (h : f.required decode members = .ok a) : ∃ p ∈ members, decode p.2 = .ok a := by
  unfold Field.required at h
  split at h
  · rename_i hfind
    exact ⟨_, Field.mem_of_find? hfind, Decoded.under_eq_ok_iff.1 h⟩
  · simp at h

theorem exists_of_optional {f : Field} {default : α} {decode : Value → Decoded α}
    (h : f.optional default decode members = .ok a) :
    a = default ∨ ∃ p ∈ members, decode p.2 = .ok a := by
  unfold Field.optional at h
  split at h
  · rename_i hfind
    exact .inr ⟨_, Field.mem_of_find? hfind, Decoded.under_eq_ok_iff.1 h⟩
  · exact .inl (Except.ok.inj h).symm

theorem forall₂_of_itemsFrom {decode : Value → Decoded α} {items : List Value} {i : Nat}
    {as : List α} (h : itemsFrom decode i items = .ok as) :
    List.Forall₂ (fun v a => decode v = .ok a) items as := by
  induction items generalizing i as with
  | nil =>
    obtain rfl := Except.ok.inj h
    exact .nil
  | cons v items ih =>
    rw [itemsFrom, map_eq_ok_iff] at h
    obtain ⟨⟨a, rest⟩, hboth, rfl⟩ := h
    obtain ⟨ha, hrest⟩ := Decoded.both_eq_ok_iff.1 hboth
    exact .cons (Decoded.under_eq_ok_iff.1 ha) (ih hrest)

theorem exists_of_arrayOf {otherwise : Kind} {decode : Value → Decoded α} {as : List α}
    (h : arrayOf otherwise decode v = .ok as) :
    ∃ items, v = .array items ∧ List.Forall₂ (fun v a => decode v = .ok a) items as := by
  cases v with
  | array items => exact ⟨items, rfl, forall₂_of_itemsFrom h⟩
  | _ => simp [arrayOf, defect] at h

theorem exists_mem_of_forall₂ {R : Value → α → Prop} {items : List Value} {as : List α}
    (h : List.Forall₂ R items as) (ha : a ∈ as) : ∃ v ∈ items, R v a := by
  induction h with
  | nil => simp at ha
  | cons hfirst _ ih =>
    rcases List.mem_cons.1 ha with rfl | ha
    · exact ⟨_, List.mem_cons_self, hfirst⟩
    · obtain ⟨v, hv, hR⟩ := ih ha
      exact ⟨v, List.mem_cons_of_mem _ hv, hR⟩

theorem sum_le_countItems {R : Value → α → Prop} {size : α → Nat}
    (hsize : ∀ v a, R v a → size a ≤ v.count) {items : List Value} {as : List α}
    (h : List.Forall₂ R items as) : (as.map size).sum ≤ Value.countItems items := by
  induction h with
  | nil => simp
  | cons hfirst _ ih =>
    rw [List.map_cons, List.sum_cons, Value.countItems]
    exact Nat.add_le_add (hsize _ _ hfirst) ih

theorem exists_child_of_arrayOf {otherwise : Kind} {decode : Value → Decoded α} {as : List α}
    (h : arrayOf otherwise decode v = .ok as) (ha : a ∈ as) :
    ∃ w, Json.Child w v ∧ decode w = .ok a := by
  obtain ⟨items, rfl, hitems⟩ := exists_of_arrayOf h
  obtain ⟨w, hw, hdecode⟩ := exists_mem_of_forall₂ hitems ha
  exact ⟨w, .item hw, hdecode⟩

/-- Decoded items are together smaller than the value, if none is larger than its own one. -/
theorem sum_lt_count_of_arrayOf {otherwise : Kind} {decode : Value → Decoded α} {as : List α}
    (size : α → Nat) (hsize : ∀ v a, decode v = .ok a → size a ≤ v.count)
    (h : arrayOf otherwise decode v = .ok as) : (as.map size).sum < v.count := by
  obtain ⟨items, rfl, hitems⟩ := exists_of_arrayOf h
  rw [Value.count]
  exact Nat.lt_succ_of_le (sum_le_countItems hsize hitems)

theorem exists_of_openRecord {title : Text} {decode : Members → Decoded α}
    (h : openRecord title decode v = .ok a) :
    ∃ members, v = .object members ∧ decode members = .ok a := by
  cases v with
  | object members => exact ⟨members, rfl, h⟩
  | _ => simp [openRecord, defect] at h

theorem exists_of_closedRecord {title : Text} {fields : List Field} {decode : Members → Decoded α}
    (h : closedRecord title fields decode v = .ok a) :
    ∃ members, v = .object members ∧ decode members = .ok a := by
  cases v with
  | object members =>
    cases hkey : members.find? fun m => Text.hasSurrogate m.1 with
    | some m => simp [closedRecord, hkey, defect] at h
    | none =>
      simp only [closedRecord, hkey] at h
      obtain ⟨⟨a', u⟩, hboth, rfl⟩ := map_eq_ok_iff.1 h
      exact ⟨members, rfl, (Decoded.both_eq_ok_iff.1 hboth).1⟩
  | _ => simp [closedRecord, defect] at h

end BundleGraph.Schema
