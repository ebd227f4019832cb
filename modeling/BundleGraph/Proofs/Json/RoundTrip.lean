import BundleGraph.Proofs.Json.Spelling

/-!
# Written and read again

A value is found again from its document if its strings are, its integers are not too long, its
keys are distinct and it is nested no deeper than the reader goes. This holds in every layout: a
reader looks at what stands between two items only as far as it is no space.
-/
namespace BundleGraph.Json

open CodePoint (scalar)
open Text (Unpaired)

variable {α : Type} {limits : Limits} {depth offset : Nat} {v : Value} {l : Layout}
variable {c : Cursor} {x : CodePoint} {s t u rest : Text}

/-- Values that are found again if values may be nested `depth` deep. -/
inductive Restorable (limits : Limits) : (depth : Nat) → Value → Prop
  | null (depth : Nat) : Restorable limits depth .null
  | bool (depth : Nat) (b : Bool) : Restorable limits depth (.bool b)
  | int (depth : Nat) (n : Int) (short : (Text.ofNat n.natAbs).length ≤ limits.digits) :
      Restorable limits depth (.int n)
  | string (depth : Nat) (t : Text) (unpaired : t.Unpaired) : Restorable limits depth (.string t)
  | array (depth : Nat) (items : List Value) (inner : ∀ v ∈ items, Restorable limits depth v) :
      Restorable limits (depth + 1) (.array items)
  | object (depth : Nat) (members : List (Text × Value)) (distinct : (Assoc.keys members).Nodup)
      (keys : ∀ p ∈ members, Unpaired p.1) (inner : ∀ p ∈ members, Restorable limits depth p.2) :
      Restorable limits (depth + 1) (.object members)

/-- A text of which nothing is a token. -/
def Spaces (s : Text) : Prop := ∀ x ∈ s, Cursor.isSpace x

theorem spaces_nil : Spaces [] := List.forall_mem_nil _

theorem spaces_lineBreak (l : Layout) : Spaces l.lineBreak := by
  cases l with
  | oneLine => exact spaces_nil
  | indented d =>
    refine List.forall_mem_cons.2 ⟨by decide, fun x hx => ?_⟩
    rw [List.eq_of_mem_replicate hx]
    decide

theorem exists_separator_eq (l : Layout) : ∃ s, Spaces s ∧ l.separator = scalar ',' :: s := by
  cases l with
  | oneLine => exact ⟨[scalar ' '], List.forall_mem_singleton.2 (by decide), rfl⟩
  | indented d => exact ⟨_, spaces_lineBreak (.indented d), rfl⟩

theorem skipSpace_append (offset : Nat) (hs : Spaces s) (hx : ¬Cursor.isSpace x) :
    (Cursor.mk (s ++ x :: t) offset).skipSpace = ⟨x :: t, offset + s.length⟩ := by
  have hrun : (s ++ x :: t).takeWhile Cursor.isSpace = s := by
    rw [List.takeWhile_append_of_pos hs]
    simp [hx]
  rw [Cursor.skipSpace, Cursor.advance, hrun, List.drop_left]

theorem skipSpace_spaces (offset : Nat) (hs : Spaces s) :
    (Cursor.mk s offset).skipSpace.rest = [] := by
  have hrun : s.takeWhile Cursor.isSpace = s := List.takeWhile_eq_self_iff.2 hs
  rw [Cursor.skipSpace, Cursor.advance, hrun, List.drop_length]

theorem token?_append (offset : Nat) (hs : Spaces s) (hx : ¬Cursor.isSpace x) : ∃ offset' h,
    (Cursor.mk (s ++ x :: t) offset).token? = some ⟨(x, ⟨t, offset'⟩), h⟩ := by
  unfold Cursor.token?
  split
  · rename_i h
    rw [skipSpace_append offset hs hx] at h
    simp at h
  · rename_i y u h
    rw [skipSpace_append offset hs hx] at h
    obtain ⟨rfl, rfl⟩ := List.cons.inj h
    exact ⟨_, by simp; omega, rfl⟩

theorem token?_cons (offset : Nat) (hx : ¬Cursor.isSpace x) : ∃ offset' h,
    (Cursor.mk (x :: t) offset).token? = some ⟨(x, ⟨t, offset'⟩), h⟩ :=
  token?_append (s := []) offset spaces_nil hx

/-- A code point with which a value or a key may begin: no space, no bracket that closes, and no
byte order mark. -/
def Begins (x : CodePoint) : Prop :=
  ¬Cursor.isSpace x ∧ x ≠ scalar ']' ∧ x ≠ scalar '\x7d' ∧ x ≠ scalar '\uFEFF'

instance (x : CodePoint) : Decidable (Begins x) := inferInstanceAs (Decidable (_ ∧ _))

theorem begins_of_isDigit (h : x.isDigit) : Begins x := by
  have hne {y : CodePoint} (hy : ¬y.isDigit) := ne_of_isDigit h hy
  refine ⟨?_, hne (by decide), hne (by decide), hne (by decide)⟩
  simp [Cursor.isSpace, hne (by decide : ¬(scalar ' ').isDigit),
    hne (by decide : ¬(scalar '\t').isDigit), hne (by decide : ¬(scalar '\n').isDigit),
    hne (by decide : ¬(scalar '\r').isDigit)]

theorem exists_bracketed_eq_cons (l : Layout) (opening closing : CodePoint) (items : List Text) :
    ∃ t, l.bracketed opening closing items = opening :: t := by
  unfold Layout.bracketed
  split
  · exact ⟨_, rfl⟩
  · exact ⟨_, rfl⟩

theorem Restorable.exists_printWith_eq_cons (h : Restorable limits depth v) (l : Layout) :
    ∃ x t, printWith l v = x :: t ∧ Begins x := by
  cases h with
  | null => exact ⟨_, _, by rw [printWith]; rfl, by decide⟩
  | bool depth b =>
    cases b with
    | false => exact ⟨_, _, by rw [printWith]; rfl, by decide⟩
    | true => exact ⟨_, _, by rw [printWith]; rfl, by decide⟩
  | int depth n =>
    obtain ⟨x, t, hx, hdigit⟩ := exists_ofInt_eq_cons n
    rw [printWith]
    refine ⟨x, t, hx, ?_⟩
    rcases hdigit with rfl | hdigit
    · decide
    · exact begins_of_isDigit hdigit
  | string depth t => exact ⟨scalar '"', _, by rw [printWith]; rfl, by decide⟩
  | array depth items =>
    rw [printWith]
    obtain ⟨t, ht⟩ :=
      exists_bracketed_eq_cons l (scalar '[') (scalar ']') (printItems l.deeper items)
    exact ⟨_, t, ht, by decide⟩
  | object depth members =>
    rw [printWith]
    obtain ⟨t, ht⟩ := exists_bracketed_eq_cons l (scalar '\x7b') (scalar '\x7d')
      (printMembers l.deeper members)
    exact ⟨_, t, ht, by decide⟩

section Items

variable {item : Reader Value} {acc items : List Value} {more : Text} {a : Value}

theorem Reads.items_close (h : Reads (item c) v (s ++ scalar ']' :: rest)) (hs : Spaces s) :
    Reads (readItems item acc c) (.array (acc.reverse ++ [v])) rest := by
  obtain ⟨offset, progress, hread⟩ := h
  obtain ⟨offset', step, htoken⟩ :=
    token?_append (t := rest) offset hs (by decide : ¬Cursor.isSpace (scalar ']'))
  rw [readItems]
  simp only [hread]
  rw [htoken]
  exact reads_ok (by simp) rfl

theorem Reads.items_next (h : Reads (item c) v (s ++ scalar ',' :: (t ++ x :: more)))
    (hs : Spaces s) (ht : Spaces t) (hx : ¬Cursor.isSpace x)
    (hmore : ∀ offset, Reads (readItems item (v :: acc) ⟨x :: more, offset⟩) a rest) :
    Reads (readItems item acc c) a rest := by
  obtain ⟨offset, progress, hread⟩ := h
  obtain ⟨offset', step, htoken⟩ := token?_append (t := t ++ x :: more) offset hs
    (by decide : ¬Cursor.isSpace (scalar ','))
  have hclose : scalar ',' ≠ scalar ']' := by decide
  rw [readItems]
  simp only [hread]
  rw [htoken]
  simp only [if_neg hclose, if_true]
  refine Reads.weaken ?_ _
  rw [skipSpace_append _ ht hx]
  exact hmore _

end Items

section Members

variable {item : Reader Value} {acc members : List (Text × Value)} {k more : Text} {a : Value}

theorem reads_key (hk : Unpaired k) (hs : Spaces s) (hx : ¬Cursor.isSpace x) :
    Reads (readKey ⟨printString k ++ (scalar ':' :: (s ++ x :: t)), offset⟩) k (x :: t) := by
  obtain ⟨offset', progress, hread⟩ :=
    reads_string hk offset (offset + 1) [] (scalar ':' :: (s ++ x :: t))
  obtain ⟨offset'', step, htoken⟩ := token?_cons (t := s ++ x :: t) offset'
    (by decide : ¬Cursor.isSpace (scalar ':'))
  have hprint : printString k ++ (scalar ':' :: (s ++ x :: t)) =
      scalar '"' :: (k.flatMap escaped ++ scalar '"' :: (scalar ':' :: (s ++ x :: t))) := by
    simp [printString]
  rw [hprint, readKey]
  simp only [if_true, hread]
  rw [htoken]
  exact reads_ok rfl (congrArg Cursor.rest (skipSpace_append _ hs hx))

theorem Reads.members_close (hkey : Reads (readKey c) k t)
    (h : ∀ offset, Reads (item ⟨t, offset⟩) v (s ++ scalar '\x7d' :: rest)) (hs : Spaces s) :
    Reads (readMembers item acc c) (.object (Assoc.insert k v acc)) rest := by
  obtain ⟨start, begun, hkey⟩ := hkey
  obtain ⟨offset, progress, hread⟩ := h start
  obtain ⟨offset', step, htoken⟩ :=
    token?_append (t := rest) offset hs (by decide : ¬Cursor.isSpace (scalar '\x7d'))
  rw [readMembers]
  simp only [hkey, hread]
  rw [htoken]
  exact reads_ok rfl rfl

theorem Reads.members_next (hkey : Reads (readKey c) k t)
    (h : ∀ offset, Reads (item ⟨t, offset⟩) v (s ++ scalar ',' :: (u ++ x :: more)))
    (hs : Spaces s) (hu : Spaces u) (hx : ¬Cursor.isSpace x)
    (hmore : ∀ offset, Reads (readMembers item (Assoc.insert k v acc) ⟨x :: more, offset⟩) a rest) :
    Reads (readMembers item acc c) a rest := by
  obtain ⟨start, begun, hkey⟩ := hkey
  obtain ⟨offset, progress, hread⟩ := h start
  obtain ⟨offset', step, htoken⟩ := token?_append (t := u ++ x :: more) offset hs
    (by decide : ¬Cursor.isSpace (scalar ','))
  have hclose : scalar ',' ≠ scalar '\x7d' := by decide
  rw [readMembers]
  simp only [hkey, hread]
  rw [htoken]
  simp only [if_neg hclose, if_true]
  refine Reads.weaken ?_ _
  rw [skipSpace_append _ hu hx]
  exact hmore _

end Members

theorem ends_spaces (hs : Spaces s) : Ends s := by
  intro x hx
  have hspace := hs x (List.mem_of_mem_head? hx)
  rw [Cursor.isSpace, decide_eq_true_eq] at hspace
  rcases hspace with rfl | rfl | rfl | rfl <;> decide

/-- What does not go on with a number does not do so behind spaces either. -/
theorem ends_append (hs : Spaces s)
    (hx : ¬x.isDigit ∧ x ≠ scalar '.' ∧ x ≠ scalar 'e' ∧ x ≠ scalar 'E') :
    Ends (s ++ x :: t) := by
  cases s with
  | nil =>
    rintro y hy
    obtain rfl : x = y := by simpa using hy
    exact hx
  | cons y s =>
    rintro z hz
    obtain rfl : y = z := by simpa using hz
    exact ends_spaces hs y rfl

section Lists

variable {item : Reader Value} {sep part next : Text} {parts : List Text}

theorem joinWith_cons_cons :
    Text.joinWith sep (part :: next :: parts) =
      part ++ (sep ++ Text.joinWith sep (next :: parts)) := by
  rw [Text.joinWith, List.intercalate_cons_cons, List.append_assoc]
  rfl

theorem exists_joinWith_eq_cons (h : part = x :: t) :
    ∃ more, Text.joinWith sep (part :: parts) = x :: more := by
  subst h
  cases parts with
  | nil => exact ⟨t, by simp [Text.joinWith]⟩
  | cons next parts => exact ⟨_, by rw [joinWith_cons_cons, List.cons_append]⟩

/-- A reader that finds the values with the property again, whatever follows them. -/
def Finds (l : Layout) (item : Reader Value) (v : Value) : Prop :=
  ∀ rest, Ends rest → ∀ offset, Reads (item ⟨printWith l v ++ rest, offset⟩) v rest

theorem reads_items (hs : Spaces s) {items : List Value} (hne : items ≠ [])
    (hfinds : ∀ v ∈ items, Finds l item v)
    (hbegins : ∀ v ∈ items, ∃ x t, printWith l v = x :: t ∧ Begins x) (acc : List Value)
    (offset : Nat) (rest : Text) :
    Reads (readItems item acc
      ⟨Text.joinWith l.separator (printItems l items) ++ (s ++ scalar ']' :: rest), offset⟩)
      (.array (acc.reverse ++ items)) rest := by
  induction items generalizing acc offset with
  | nil => exact absurd rfl hne
  | cons v items ih =>
    obtain ⟨hv, hitems⟩ := List.forall_mem_cons.1 hfinds
    cases items with
    | nil =>
      have hjoin : Text.joinWith l.separator (printItems l [v]) = printWith l v := by
        simp [printItems, Text.joinWith]
      rw [hjoin]
      exact (hv _ (ends_append hs (by decide)) offset).items_close hs
    | cons w items =>
      obtain ⟨u, hu, hseparator⟩ := exists_separator_eq l
      obtain ⟨x, t, ht, hx⟩ := hbegins w (by simp)
      obtain ⟨more, hmore⟩ : ∃ more, Text.joinWith l.separator (printItems l (w :: items)) =
          x :: more := by
        rw [printItems]
        exact exists_joinWith_eq_cons ht
      have hrest := ih (by simp) hitems (fun y hy => hbegins y (by simp [hy])) (v :: acc)
      have hjoin : Text.joinWith l.separator (printItems l (v :: w :: items)) ++
          (s ++ scalar ']' :: rest) =
            printWith l v ++ (scalar ',' :: (u ++ x :: (more ++ (s ++ scalar ']' :: rest)))) := by
        have hnext := hmore
        rw [printItems] at hnext
        rw [printItems, printItems, joinWith_cons_cons, hnext, hseparator]
        simp
      have hend : Ends (scalar ',' :: (u ++ x :: (more ++ (s ++ scalar ']' :: rest)))) :=
        ends_append (s := []) spaces_nil (by decide)
      rw [hjoin]
      refine Reads.items_next (s := []) (hv _ hend offset) spaces_nil hu hx.1 fun offset => ?_
      have hfound := hrest offset
      rw [hmore, List.reverse_cons, List.append_assoc, List.cons_append] at hfound
      exact hfound

theorem insert_eq_append {k : Text} {members : List (Text × Value)} (h : k ∉ Assoc.keys members) :
    Assoc.insert k v members = members ++ [(k, v)] := by
  induction members with
  | nil => rfl
  | cons p members ih =>
    obtain ⟨k', v'⟩ := p
    simp only [Assoc.keys, List.map_cons, List.mem_cons, not_or] at h
    rw [Assoc.insert, if_neg (Ne.symm h.1), ih h.2, List.cons_append]

theorem reads_member {k : Text} (hk : Unpaired k) (hfinds : Finds l item v)
    (hbegins : ∃ x t, printWith l v = x :: t ∧ Begins x) {more : Text} (hmore : Ends more)
    (offset : Nat) :
    Reads (readKey ⟨Text.concat [printString k, ": ", printWith l v] ++ more, offset⟩) k
        (printWith l v ++ more) ∧
      ∀ offset, Reads (item ⟨printWith l v ++ more, offset⟩) v more := by
  obtain ⟨x, t, ht, hx⟩ := hbegins
  refine ⟨?_, hfinds more hmore⟩
  have hmember : Text.concat [printString k, ": ", printWith l v] ++ more =
      printString k ++ (scalar ':' :: ([scalar ' '] ++ x :: (t ++ more))) := by
    rw [ht]
    simp [Text.concat, Text.ofString]
  rw [hmember, ht]
  exact reads_key hk (List.forall_mem_singleton.2 (by decide)) hx.1

theorem reads_members (hs : Spaces s) {members : List (Text × Value)} (hne : members ≠ [])
    (hkeys : ∀ p ∈ members, Unpaired p.1) (hfinds : ∀ p ∈ members, Finds l item p.2)
    (hbegins : ∀ p ∈ members, ∃ x t, printWith l p.2 = x :: t ∧ Begins x)
    (acc : List (Text × Value)) (hdistinct : (Assoc.keys (acc ++ members)).Nodup) (offset : Nat)
    (rest : Text) :
    Reads (readMembers item acc
      ⟨Text.joinWith l.separator (printMembers l members) ++ (s ++ scalar '\x7d' :: rest), offset⟩)
      (.object (acc ++ members)) rest := by
  induction members generalizing acc offset with
  | nil => exact absurd rfl hne
  | cons p members ih =>
    obtain ⟨k, v⟩ := p
    obtain ⟨hk, hkeys⟩ := List.forall_mem_cons.1 hkeys
    obtain ⟨hv, hmembers⟩ := List.forall_mem_cons.1 hfinds
    have hfresh : k ∉ Assoc.keys acc := by
      intro hmem
      simp only [Assoc.keys, List.map_append, List.map_cons, List.nodup_append] at hdistinct
      exact hdistinct.2.2 k hmem k (by simp) rfl
    have hinsert := insert_eq_append (v := v) hfresh
    cases members with
    | nil =>
      have hjoin : Text.joinWith l.separator (printMembers l [(k, v)]) =
          Text.concat [printString k, ": ", printWith l v] := by
        simp [printMembers, Text.joinWith]
      obtain ⟨hkey, hvalue⟩ := reads_member hk hv (hbegins (k, v) (by simp))
        (ends_append (x := scalar '\x7d') (t := rest) hs (by decide)) offset
      rw [hjoin, ← hinsert]
      exact Reads.members_close hkey hvalue hs
    | cons q members =>
      obtain ⟨k', w⟩ := q
      obtain ⟨u, hu, hseparator⟩ := exists_separator_eq l
      obtain ⟨more, hmore⟩ : ∃ more, Text.joinWith l.separator
          (printMembers l ((k', w) :: members)) = scalar '"' :: more := by
        rw [printMembers]
        exact exists_joinWith_eq_cons (t := _) rfl
      have hrest := ih (by simp) hkeys hmembers (fun y hy => hbegins y (by simp [hy]))
        (acc ++ [(k, v)]) (by simpa using hdistinct)
      have hjoin : Text.joinWith l.separator (printMembers l ((k, v) :: (k', w) :: members)) ++
          (s ++ scalar '\x7d' :: rest) = Text.concat [printString k, ": ", printWith l v] ++
            (scalar ',' :: (u ++ scalar '"' :: (more ++ (s ++ scalar '\x7d' :: rest)))) := by
        have hnext := hmore
        rw [printMembers] at hnext
        rw [printMembers, printMembers, joinWith_cons_cons, hnext, hseparator]
        simp
      have hend :
          Ends (scalar ',' :: (u ++ scalar '"' :: (more ++ (s ++ scalar '\x7d' :: rest)))) :=
        ends_append (s := []) spaces_nil (by decide)
      obtain ⟨hkey, hvalue⟩ := reads_member hk hv (hbegins (k, v) (by simp)) hend offset
      rw [hjoin]
      refine Reads.members_next (s := []) hkey hvalue spaces_nil hu (by decide) fun offset => ?_
      have hfound := hrest offset
      rw [hmore, List.cons_append, List.append_assoc] at hfound
      rw [hinsert]
      exact hfound

end Lists

section Brackets

variable {item more : Reader Value} {opening closing : CodePoint} {empty : Value}

theorem reads_bracketed_empty (hclosing : ¬Cursor.isSpace closing) :
    Reads (readBracketed closing empty more
      ⟨l.bracketed opening closing [] ++ rest, offset⟩) empty rest := by
  have hinside : (Cursor.mk (closing :: rest) (offset + 1)).skipSpace =
      ⟨closing :: rest, offset + 1⟩ := skipSpace_eq_self hclosing
  have hbrackets : l.bracketed opening closing [] ++ rest = opening :: closing :: rest := rfl
  rw [hbrackets, readBracketed]
  simp only [hinside, List.take_succ_cons, List.take_zero, if_true]
  exact reads_ok rfl rfl

theorem reads_bracketed {parts : List Text} (hne : parts ≠ [])
    (hjoin : Text.joinWith l.deeper.separator parts = x :: t) (hx : ¬Cursor.isSpace x)
    (hclosing : x ≠ closing)
    (h : ∀ offset, Reads (more ⟨Text.joinWith l.deeper.separator parts ++
      (l.lineBreak ++ closing :: rest), offset⟩) v rest) :
    Reads (readBracketed closing empty more
      ⟨l.bracketed opening closing parts ++ rest, offset⟩) v rest := by
  have hbrackets : l.bracketed opening closing parts ++ rest = opening ::
      (l.deeper.lineBreak ++ x :: (t ++ (l.lineBreak ++ closing :: rest))) := by
    rw [Layout.bracketed, if_neg (by simpa using hne), hjoin]
    simp
  have hinside := skipSpace_append (t := t ++ (l.lineBreak ++ closing :: rest)) (offset + 1)
    (spaces_lineBreak l.deeper) hx
  have htake : (x :: (t ++ (l.lineBreak ++ closing :: rest))).take 1 ≠ [closing] := by
    simpa using hclosing
  have hfound := h (offset + 1 + l.deeper.lineBreak.length)
  rw [hjoin, List.cons_append] at hfound
  rw [hbrackets, readBracketed]
  simp only [hinside, if_neg htake]
  refine Reads.weaken ?_ _
  rw [hinside]
  exact hfound

end Brackets

section Values

variable {item : Option (Reader Value)} {inner : Reader Value}

theorem readOne_plain (h : x ≠ scalar '"' ∧ x ≠ scalar '[' ∧ x ≠ scalar '\x7b') :
    readOne limits item ⟨x :: t, offset⟩ = readPlain limits ⟨x :: t, offset⟩ := by
  rw [readOne]
  simp only [if_neg h.1, if_neg (not_or.2 h.2)]

theorem finds_plain (hx : printWith l v = x :: t)
    (hplain : x ≠ scalar '"' ∧ x ≠ scalar '[' ∧ x ≠ scalar '\x7b')
    (hatom : ∀ rest, Ends rest → ∀ offset, readAtom limits offset (printWith l v ++ rest) =
      .ok (v, (printWith l v).length)) : Finds l (readOne limits item) v := by
  intro rest hrest offset
  have hprogress : 0 < (printWith l v).length ∧ 0 < (printWith l v ++ rest).length := by
    simp [hx]
  have hread : Reads (readPlain limits ⟨printWith l v ++ rest, offset⟩) v rest := by
    rw [readPlain]
    simp only [hatom rest hrest, dif_pos hprogress]
    exact reads_ok rfl (List.drop_left ..)
  rw [hx, List.cons_append] at hread ⊢
  rwa [readOne_plain hplain]

theorem reads_text (ht : t.Unpaired) :
    Reads (readOne limits item ⟨printString t ++ rest, offset⟩) (.string t) rest := by
  obtain ⟨offset', progress, hread⟩ := reads_string ht offset (offset + 1) [] rest
  have hprint : printString t ++ rest =
      scalar '"' :: (t.flatMap escaped ++ scalar '"' :: rest) := by
    simp [printString]
  rw [hprint, readOne]
  simp only [if_true, hread]
  exact reads_ok rfl rfl

theorem readOne_array :
    readOne limits (some inner) ⟨scalar '[' :: t, offset⟩ =
      readBracketed (scalar ']') (.array []) (readItems inner []) ⟨scalar '[' :: t, offset⟩ := by
  rw [readOne]
  rfl

theorem readOne_object :
    readOne limits (some inner) ⟨scalar '\x7b' :: t, offset⟩ =
      readBracketed (scalar '\x7d') (.object []) (readMembers inner [])
        ⟨scalar '\x7b' :: t, offset⟩ := by
  rw [readOne]
  rfl

theorem exists_readValue_eq (limits : Limits) (depth : Nat) :
    ∃ item, readValue limits depth = readOne limits item := by
  cases depth with
  | zero => exact ⟨none, rfl⟩
  | succ depth => exact ⟨some (readValue limits depth), rfl⟩

theorem finds_array {items : List Value} (hfinds : ∀ v ∈ items, Finds l.deeper inner v)
    (hbegins : ∀ v ∈ items, ∃ x t, printWith l.deeper v = x :: t ∧ Begins x) :
    Finds l (readOne limits (some inner)) (.array items) := by
  intro rest _ offset
  obtain ⟨t, ht⟩ := exists_bracketed_eq_cons l (scalar '[') (scalar ']') (printItems l.deeper items)
  rw [printWith, ht, List.cons_append, readOne_array, ← List.cons_append, ← ht]
  cases items with
  | nil => exact reads_bracketed_empty (by decide)
  | cons v items =>
    obtain ⟨x, u, hu, hx⟩ := hbegins v (by simp)
    obtain ⟨more, hmore⟩ : ∃ more, Text.joinWith l.deeper.separator
        (printItems l.deeper (v :: items)) = x :: more := by
      rw [printItems]
      exact exists_joinWith_eq_cons hu
    refine reads_bracketed (by simp [printItems]) hmore hx.1 hx.2.1 fun offset => ?_
    exact reads_items (spaces_lineBreak l) (by simp) hfinds hbegins [] offset rest

theorem finds_object {members : List (Text × Value)} (hdistinct : (Assoc.keys members).Nodup)
    (hkeys : ∀ p ∈ members, Unpaired p.1) (hfinds : ∀ p ∈ members, Finds l.deeper inner p.2)
    (hbegins : ∀ p ∈ members, ∃ x t, printWith l.deeper p.2 = x :: t ∧ Begins x) :
    Finds l (readOne limits (some inner)) (.object members) := by
  intro rest _ offset
  obtain ⟨t, ht⟩ := exists_bracketed_eq_cons l (scalar '\x7b') (scalar '\x7d')
    (printMembers l.deeper members)
  rw [printWith, ht, List.cons_append, readOne_object, ← List.cons_append, ← ht]
  cases members with
  | nil => exact reads_bracketed_empty (by decide)
  | cons p members =>
    obtain ⟨more, hmore⟩ : ∃ more, Text.joinWith l.deeper.separator
        (printMembers l.deeper (p :: members)) = scalar '"' :: more := by
      rw [printMembers]
      exact exists_joinWith_eq_cons (t := _) rfl
    refine reads_bracketed (by simp [printMembers]) hmore (by decide) (by decide) fun offset => ?_
    exact reads_members (spaces_lineBreak l) (by simp) hkeys hfinds hbegins [] hdistinct offset rest

/-- Whatever follows a written value, if it does not go on with a number, the value is found again
and the rest is left. -/
theorem Restorable.finds (h : Restorable limits depth v) (l : Layout) :
    Finds l (readValue limits depth) v := by
  induction h generalizing l with
  | null depth =>
    obtain ⟨item, hitem⟩ := exists_readValue_eq limits depth
    rw [hitem]
    exact finds_plain (x := scalar 'n') (by rw [printWith]; rfl) (by decide) fun _ _ _ => by
      rw [printWith]; rfl
  | bool depth b =>
    obtain ⟨item, hitem⟩ := exists_readValue_eq limits depth
    rw [hitem]
    cases b with
    | false =>
      exact finds_plain (x := scalar 'f') (by rw [printWith]; rfl) (by decide) fun _ _ _ => by
        rw [printWith]; rfl
    | true =>
      exact finds_plain (x := scalar 't') (by rw [printWith]; rfl) (by decide) fun _ _ _ => by
        rw [printWith]; rfl
  | int depth n short =>
    obtain ⟨item, hitem⟩ := exists_readValue_eq limits depth
    obtain ⟨x, t, hx, hdigit⟩ := exists_ofInt_eq_cons n
    rw [hitem]
    refine finds_plain (x := x) (t := t) (by rw [printWith, hx]) ?_ fun rest hrest offset => ?_
    · rcases hdigit with rfl | hdigit
      · decide
      · have hne {y : CodePoint} (hy : ¬y.isDigit) := ne_of_isDigit hdigit hy
        exact ⟨hne (by decide), hne (by decide), hne (by decide)⟩
    · rw [printWith, readAtom_ofInt n hrest short]
  | string depth t unpaired =>
    intro rest _ offset
    obtain ⟨item, hitem⟩ := exists_readValue_eq limits depth
    rw [hitem, printWith]
    exact reads_text unpaired
  | array depth items inner ih =>
    exact finds_array (fun v hv => ih v hv l.deeper) fun v hv =>
      (inner v hv).exists_printWith_eq_cons l.deeper
  | object depth members distinct keys inner ih =>
    exact finds_object distinct keys (fun p hp => ih p hp l.deeper) fun p hp =>
      (inner p hp).exists_printWith_eq_cons l.deeper

theorem read_of_reads {document : Text} (hmark : document.take 1 ≠ [scalar '\uFEFF'])
    (hs : Spaces s)
    (h : Reads (readValue limits limits.depth (Cursor.mk document 0).skipSpace) v s) :
    read limits document = .ok v := by
  obtain ⟨offset, progress, hread⟩ := h
  rw [read, if_neg hmark, hread]
  simp only [skipSpace_spaces offset hs, List.isEmpty_nil, if_true]

/-- A value is found again from its document, also with spaces or line feeds at the end. -/
theorem Restorable.read_printWith (h : Restorable limits limits.depth v) (l : Layout)
    (hs : Spaces s) : read limits (printWith l v ++ s) = .ok v := by
  obtain ⟨x, t, hx, hbegins⟩ := h.exists_printWith_eq_cons l
  have hfound := h.finds l s (ends_spaces hs) 0
  rw [hx, List.cons_append] at hfound ⊢
  apply read_of_reads _ hs
  · rw [skipSpace_eq_self hbegins.1]
    exact hfound
  · simpa using hbegins.2.2.2

end Values

end BundleGraph.Json
