import BundleGraph.Proofs.Json.Content

/-!
# Keys of a value

A reader keeps every key of an object once, however often the document repeats it.
-/
namespace BundleGraph.Json

open Relation (ReflTransGen)

namespace Value

variable {v : Value} {items : List Value} {members : List (Text × Value)} {k : Text}

def Keyed (v : Value) : Prop :=
  ∀ members, ReflTransGen Child (.object members) v → (Assoc.keys members).Nodup

theorem keyed_of_children (hself : ∀ members, v = .object members → (Assoc.keys members).Nodup)
    (h : ∀ w, Child w v → w.Keyed) : v.Keyed := by
  intro members hmembers
  rcases hmembers.cases_tail with heq | ⟨w, hw, hchild⟩
  · exact hself members heq
  · exact h w hchild members hw

theorem keyed_array (h : ∀ v ∈ items, v.Keyed) : (array items).Keyed := by
  apply keyed_of_children
  · simp
  · intro w hchild
    cases hchild with
    | item hw => exact h w hw

theorem keyed_object (hkeys : (Assoc.keys members).Nodup) (h : ∀ p ∈ members, p.2.Keyed) :
    (object members).Keyed := by
  apply keyed_of_children
  · rintro members' heq
    obtain rfl := object.inj heq
    exact hkeys
  · intro w hchild
    cases hchild with
    | member hw => exact h _ hw

theorem keyed_of_count (h : v.count = 1) : v.Keyed := by
  cases v with
  | array items =>
    cases items with
    | nil => exact keyed_array (by simp)
    | cons w items =>
      have hpos := count_pos w
      simp only [count, countItems] at h
      omega
  | object members =>
    cases members with
    | nil => exact keyed_object (by simp [Assoc.keys]) (by simp)
    | cons p members =>
      have hpos := count_pos p.2
      simp only [count, countMembers] at h
      omega
  | _ => exact keyed_of_children (by simp) fun _ h => by cases h

end Value

def Reader.Keyed (item : Reader Value) : Prop :=
  ∀ ⦃c : Cursor⦄ ⦃r : Read Value c⦄, item c = .ok r → r.1.1.Keyed

section Readers

variable {c : Cursor} {item : Reader Value} {limits : Limits}

theorem keyed_readItems (hitem : Reader.Keyed item) {acc : List Value}
    (hacc : ∀ v ∈ acc, v.Keyed) {r : Read Value c} (h : readItems item acc c = .ok r) :
    r.1.1.Keyed := by
  fun_induction readItems item acc c with
  | case1 => simp at h
  | case2 => simp at h
  | case3 acc c v after progress hread next step htoken nearer =>
    obtain rfl := Except.ok.inj h
    refine Value.keyed_array fun w hw => ?_
    exact List.forall_mem_cons.2 ⟨hitem hread, hacc⟩ w (List.mem_reverse.1 hw)
  | case4 acc c v after progress hread next step htoken nearer hclose ih =>
    obtain ⟨r, hmore, hr⟩ := exists_of_map_weaken h
    rw [← hr]
    exact ih (List.forall_mem_cons.2 ⟨hitem hread, hacc⟩) hmore
  | case5 => simp at h

theorem keyed_readMembers (hitem : Reader.Keyed item) {acc : List (Text × Value)}
    (hkeys : (Assoc.keys acc).Nodup) (hacc : ∀ p ∈ acc, p.2.Keyed) {r : Read Value c}
    (h : readMembers item acc c = .ok r) : r.1.1.Keyed := by
  fun_induction readMembers item acc c with
  | case1 => simp at h
  | case2 => simp at h
  | case3 => simp at h
  | case4 acc c key start begun hkey v after progress hread next members step htoken =>
    obtain rfl := Except.ok.inj h
    refine Value.keyed_object (Assoc.nodup_keys_insert hkeys) ?_
    exact Assoc.forall_mem_insert (hitem hread) hacc
  | case5 acc c key start begun hkey v after progress hread next members step htoken near nearer
      hclose ih =>
    obtain ⟨r, hmore, hr⟩ := exists_of_map_weaken h
    rw [← hr]
    exact ih (Assoc.nodup_keys_insert hkeys) (Assoc.forall_mem_insert (hitem hread) hacc) hmore
  | case6 => simp at h

theorem keyed_readBracketed {close : CodePoint} {empty : Value} {more : Reader Value}
    (hempty : empty.Keyed) (hmore : Reader.Keyed more) :
    Reader.Keyed (readBracketed close empty more) := by
  intro c r h
  revert h
  fun_cases readBracketed close empty more c with
  | case1 => simp
  | case2 =>
    intro h
    obtain rfl := Except.ok.inj h
    exact hempty
  | case3 =>
    intro h
    obtain ⟨r, hread, hr⟩ := exists_of_map_weaken h
    rw [← hr]
    exact hmore hread

theorem keyed_readPlain : Reader.Keyed (readPlain limits) := by
  intro c r h
  revert h
  fun_cases readPlain limits c with
  | case1 => simp
  | case2 v length hatom =>
    intro h
    obtain rfl := Except.ok.inj h
    exact Value.keyed_of_count (stable_readAtom hatom).2
  | case3 => simp

theorem keyed_readOne {inner : Option (Reader Value)} (hinner : ∀ item ∈ inner, Reader.Keyed item) :
    Reader.Keyed (readOne limits inner) := by
  intro c r h
  revert h
  fun_cases readOne limits inner c with
  | case1 => simp
  | case2 inner rest =>
    intro h
    cases hread : readString c.offset [] ⟨rest, c.offset + 1⟩ with
    | error e => simp [hread, Except.map] at h
    | ok s =>
      rw [hread] at h
      obtain rfl := Except.ok.inj h
      exact Value.keyed_of_count rfl
  | case3 => simp
  | case4 rest item =>
    have hmore : Reader.Keyed (readItems item []) := fun _ _ h =>
      keyed_readItems (hinner item rfl) (by simp) h
    exact fun h => keyed_readBracketed (Value.keyed_of_count rfl) hmore h
  | case5 x rest hc hquote hx item =>
    have hmore : Reader.Keyed (readMembers item []) := fun _ _ h =>
      keyed_readMembers (hinner item rfl) (by simp [Assoc.keys]) (by simp) h
    exact fun h => keyed_readBracketed (Value.keyed_of_count rfl) hmore h
  | case6 => exact fun h => keyed_readPlain h

theorem keyed_readValue (limits : Limits) (depth : Nat) :
    Reader.Keyed (readValue limits depth) := by
  induction depth with
  | zero => exact keyed_readOne (by simp)
  | succ depth ih => exact keyed_readOne (by simpa using ih)

theorem keyed_of_read {v : Value} {document : Text} (h : read limits document = .ok v) :
    v.Keyed := by
  unfold read at h
  split_ifs at h
  split at h
  · simp at h
  · rename_i hread
    split_ifs at h
    obtain rfl := Except.ok.inj h
    exact keyed_readValue limits limits.depth hread

end Readers

end BundleGraph.Json
