import BundleGraph.Proofs.Assoc
import BundleGraph.Proofs.Console.Line
import BundleGraph.Proofs.Files.Lookup

/-!
# Places in a proper tree

In a proper tree every entry stands in a directory and has a name that a file system allows. There
the path of a place names what stands at the place, unless the path is too long or leads through a
closed directory, and the deepest directory around a place that holds a name is what a search
upwards finds.
-/
namespace BundleGraph

open CodePoint (scalar)

section Sizes

variable {t u : Text} {l l' : Location} {parts : List Text}

theorem Text.nameSize_append (t u : Text) : (t ++ u).nameSize = t.nameSize + u.nameSize := by
  induction t with
  | nil => simp [nameSize]
  | cons c t ih =>
    simp only [nameSize, List.cons_append, List.foldr_cons] at ih ⊢
    omega

/-- Each part takes its bytes and one for the slash before it. -/
theorem Text.nameSize_joinWith (h : parts ≠ []) :
    ("/" ++ Text.joinWith "/" parts : Text).nameSize = (parts.map fun p => p.nameSize + 1).sum := by
  have hslash : Text.nameSize "/" = 1 := rfl
  induction parts with
  | nil => exact absurd rfl h
  | cons part parts ih =>
    rw [nameSize_append, hslash] at ih ⊢
    cases parts with
    | nil => simp [joinWith, Nat.add_comm]
    | cons next parts =>
      have hrest := ih (by simp)
      rw [joinWith, List.intercalate_cons_cons, nameSize_append, nameSize_append, hslash,
        List.map_cons, List.sum_cons, ← hrest, joinWith]
      omega

namespace FileTree

theorem nameSize_pathOf (h : l ≠ []) :
    (pathOf l).toText.nameSize = (l.map fun name => name.nameSize + 1).sum := by
  rw [← Text.nameSize_joinWith h]
  simp [Path.toText, pathOf, Path.anchorText, Text.concat]

/-- The path of a name in a directory is no longer than in the directories below. -/
theorem nameSize_candidate_le (name : Text) (h : l' <+: l) :
    (candidate name l').toText.nameSize ≤ (candidate name l).toText.nameSize := by
  obtain ⟨more, rfl⟩ := h
  rw [nameSize_pathOf (by simp), nameSize_pathOf (by simp)]
  simp only [List.map_append, List.sum_append]
  omega

end FileTree

end Sizes

/-- A text that can stand in a path: a lone surrogate in it stands for a byte, and there is no zero
byte. -/
def Text.Speakable (t : Text) : Prop := ∀ c ∈ t, (c.isSurrogate → c.isByte) ∧ c ≠ scalar '\x00'

instance : DecidablePred Text.Speakable := fun t =>
  inferInstanceAs (Decidable (∀ c ∈ t, (c.isSurrogate → c.isByte) ∧ c ≠ scalar '\x00'))

/-- A name that a file system allows as a component of a path. -/
def Text.Allowed (name : Text) : Prop := name.Speakable ∧ name.nameSize ≤ FileTree.maxNameBytes

instance : DecidablePred Text.Allowed := fun _ => instDecidableAnd

/-- A path that a file system can name. -/
def Path.Namable (p : Path) : Prop := ∀ name ∈ p.parts, name.Allowed

instance : DecidablePred Path.Namable := fun p =>
  inferInstanceAs (Decidable (∀ name ∈ p.parts, name.Allowed))

theorem Path.mem_toText {p : Path} {c : CodePoint} (h : c ∈ p.toText) :
    c = scalar '/' ∨ c = scalar '.' ∨ ∃ part ∈ p.parts, c ∈ part := by
  have hdot : Text.ofString "." = [scalar '.'] := rfl
  have hslash : Text.ofString "/" = [scalar '/'] := rfl
  have hanchor (a : Anchor) : ∀ c ∈ anchorText a, c = scalar '/' := by cases a <;> decide
  unfold toText at h
  split_ifs at h
  · exact .inr (.inl (List.mem_singleton.1 (hdot ▸ h)))
  · simp only [Text.concat, List.flatten_cons, List.flatten_nil, List.append_nil,
      List.mem_append] at h
    rcases h with h | h
    · exact .inl (hanchor _ c h)
    · rcases Text.mem_joinWith h with h | h
      · exact .inl (List.mem_singleton.1 (hslash ▸ h))
      · exact .inr (.inr h)

theorem Path.fault?_eq_none {p : Path} (h : ∀ part ∈ p.parts, part.Speakable) :
    p.fault? = none := by
  have hall : p.toText.Speakable := by
    intro c hc
    rcases mem_toText hc with rfl | rfl | ⟨part, hpart, hc⟩
    · decide
    · decide
    · exact h part hpart c hc
  have hbytes : (p.toText.findIdx? fun c => c.isSurrogate && !c.isByte) = none := by
    refine List.findIdx?_eq_none_iff.2 fun c hc => ?_
    have hbyte := (hall c hc).1
    cases hsurrogate : c.isSurrogate <;> simp_all
  have hzero : scalar '\x00' ∉ p.toText := fun hc => (hall _ hc).2 rfl
  simp only [fault?, hbytes, if_neg hzero]

namespace FileTree

/-- A tree in which every entry stands in a directory under a name that a file system allows, as
does the working directory. -/
structure Proper (t : FileTree) : Prop where
  inside : ∀ l name, (t.entry? (l ++ [name])).isSome → t.entry? l = some .directory
  named : ∀ l, (t.entry? l).isSome → ∀ name ∈ l, name.Allowed ∧ name ≠ Path.up
  working : t.entry? t.workingDirectory = some .directory

variable {t : FileTree} {l : Location} {p : Path} {name : Text} {names : List Text}

theorem proper_of_entries (hworking : t.entry? t.workingDirectory = some .directory)
    (h : ∀ row ∈ t.entries, t.entry? row.1.dropLast = some .directory ∧
      ∀ name ∈ row.1, name.Allowed ∧ name ≠ Path.up) : t.Proper := by
  have hrow {l : Location} (hl : l ≠ []) (hsome : (t.entry? l).isSome) :
      t.entry? l.dropLast = some .directory ∧ ∀ name ∈ l, name.Allowed ∧ name ≠ Path.up := by
    unfold entry? at hsome
    rw [if_neg hl] at hsome
    obtain ⟨entry, hentry⟩ := Option.isSome_iff_exists.1 hsome
    exact h _ (Assoc.mem_of_lookup hentry)
  refine ⟨fun l name hsome => ?_, fun l hsome name hname => ?_, hworking⟩
  · simpa using (hrow (by simp) hsome).1
  · exact (hrow (List.ne_nil_of_mem hname) hsome).2 name hname

/-- Below what is no directory there is nothing. -/
theorem Proper.nothing_below (h : t.Proper) (hl : t.entry? l ≠ some .directory) (hne : names ≠ []) :
    t.entry? (l ++ names) = none := by
  induction names using List.reverseRecOn with
  | nil => exact absurd rfl hne
  | append_singleton names name ih =>
    have habove : t.entry? (l ++ names) ≠ some .directory := by
      by_cases hnames : names = []
      · simpa [hnames] using hl
      · simp [ih hnames]
    rw [← List.append_assoc, ← Option.not_isSome_iff_eq_none]
    exact fun hsome => habove (h.inside _ _ hsome)

/-- Names that lead down end at the place below, or nothing is there, or a closed directory is on
the way. -/
theorem Proper.walk_down (h : t.Proper) (hnames : ∀ name ∈ names, name.Allowed ∧ name ≠ Path.up) :
    t.walk l names = .ok (l ++ names) ∨
      (t.entry? (l ++ names) = none ∧
        ∃ e, (e = .missing ∨ e = .notDirectory) ∧ t.walk l names = .error e) ∨
      t.walk l names = .error .forbidden := by
  induction names generalizing l with
  | nil => exact .inl (by rw [walk, List.append_nil])
  | cons name names ih =>
    obtain ⟨⟨⟨-, hshort⟩, hup⟩, hnames⟩ := List.forall_mem_cons.1 hnames
    rw [walk]
    cases hentry : t.entry? l with
    | none =>
      exact .inr (.inl ⟨h.nothing_below (by simp [hentry]) (by simp), .missing, by simp⟩)
    | some entry =>
      cases entry with
      | file bytes =>
        exact .inr (.inl ⟨h.nothing_below (by simp [hentry]) (by simp), .notDirectory, by simp⟩)
      | directory =>
        by_cases hclosed : l ∈ t.closed
        · exact .inr (.inr (by simp [hclosed]))
        simp only [if_neg hclosed, if_neg hup, if_neg (Nat.not_lt.2 hshort)]
        have hbelow : l ++ name :: names = l ++ [name] ++ names := List.append_cons ..
        rw [hbelow]
        split_ifs with hsome
        · exact ih hnames
        · refine .inr (.inl ⟨?_, .missing, .inl rfl, rfl⟩)
          rw [Option.not_isSome_iff_eq_none] at hsome
          by_cases hnil : names = []
          · simpa [hnil] using hsome
          · exact h.nothing_below (by simp [hsome]) hnil

theorem walk_eq_ok (hnames : ∀ name ∈ names, name ≠ Path.up) {l' : Location}
    (h : t.walk l names = .ok l') : l' = l ++ names := by
  induction names generalizing l with
  | nil =>
    rw [walk] at h
    rw [List.append_nil, Except.ok.inj h]
  | cons name names ih =>
    obtain ⟨hup, hnames⟩ := List.forall_mem_cons.1 hnames
    rw [walk] at h
    cases hentry : t.entry? l with
    | none => simp [hentry] at h
    | some entry =>
      cases entry with
      | file bytes => simp [hentry] at h
      | directory =>
        simp only [hentry] at h
        split_ifs at h
        rw [ih hnames h, ← List.append_cons]

def ClosedOff (t : FileTree) (l : Location) : Prop :=
  ∃ l', l' <+: l ∧ t.entry? l' = some .directory ∧ l' ∈ t.closed

instance (t : FileTree) : DecidablePred t.ClosedOff := fun l =>
  decidable_of_iff (∃ l' ∈ l.inits, t.entry? l' = some .directory ∧ l' ∈ t.closed)
    (by simp [ClosedOff])

theorem ClosedOff.mono {l' : Location} (h : t.ClosedOff l') (hle : l' <+: l) : t.ClosedOff l := by
  obtain ⟨l'', habove, hclosed⟩ := h
  exact ⟨l'', habove.trans hle, hclosed⟩

section Candidate

variable (h : t.Proper) (hl : ∀ part ∈ l ++ [name], part.Allowed ∧ part ≠ Path.up)

include hl

theorem locate_candidate (hshort : (candidate name l).toText.nameSize ≤ maxPathBytes) :
    t.locate (candidate name l) = t.walk [] (l ++ [name]) := by
  have hfault : (candidate name l).fault? = none :=
    Path.fault?_eq_none fun part hpart => (hl part hpart).1.1
  rw [locate, hfault]
  exact if_neg (Nat.not_lt.2 hshort)

include h

theorem Proper.walk_eq_forbidden_iff : t.walk [] (l ++ [name]) = .error .forbidden ↔
    t.ClosedOff l := by
  have hup : ∀ part ∈ l ++ [name], part ≠ Path.up := fun part hpart => (hl part hpart).2
  rw [walk_eq_error_iff]
  constructor
  · rintro ⟨before, last, after, l', hparts, hbefore, hlast⟩
    obtain ⟨hdirectory, hclosed⟩ := walk_singleton_eq_forbidden_iff.1 hlast
    have hmem : ∀ part ∈ before, part ≠ Path.up := fun part hpart =>
      hup part (hparts ▸ List.mem_append_left _ hpart)
    obtain rfl : l' = before := walk_eq_ok hmem hbefore
    have hle : l' <+: l := by
      refine (List.prefix_concat_iff.1 ⟨last :: after, hparts.symm⟩).resolve_left fun heq => ?_
      simp [heq] at hparts
    exact ⟨l', hle, hdirectory, hclosed⟩
  · rintro ⟨l', ⟨rest, rfl⟩, hdirectory, hclosed⟩
    have hl' : ∀ part ∈ l', part.Allowed ∧ part ≠ Path.up := fun part hpart =>
      hl part (by simp [hpart])
    rcases h.walk_down hl' (l := []) with hwalk | ⟨hnone, -⟩ | hwalk
    · -- The walk comes to the closed directory and has one more name to go.
      obtain ⟨last, after, hafter⟩ := List.exists_cons_of_ne_nil (l := rest ++ [name]) (by simp)
      exact ⟨l', last, after, l', by rw [List.append_assoc, hafter], hwalk,
        walk_singleton_eq_forbidden_iff.2 ⟨hdirectory, hclosed⟩⟩
    · simp [hdirectory] at hnone
    · obtain ⟨before, last, after, l'', rfl, hbefore, hlast⟩ := walk_eq_error_iff.1 hwalk
      exact ⟨before, last, after ++ (rest ++ [name]), l'', by simp, hbefore, hlast⟩

/-- The path of a name in a directory names what stands there, if it is not too long and no
directory on the way is closed. -/
theorem Proper.lookup_candidate (hshort : (candidate name l).toText.nameSize ≤ maxPathBytes)
    (hopen : ¬t.ClosedOff l) : t.lookup (candidate name l) = .ok (t.entry? (l ++ [name])) := by
  rw [lookup, locate_candidate hl hshort]
  rcases h.walk_down hl (l := []) with hwalk | ⟨hnone, e, he, hwalk⟩ | hwalk
  · rw [hwalk, List.nil_append]
  · rw [hwalk, ← List.nil_append (l ++ [name]), hnone]
    rcases he with rfl | rfl <;> rfl
  · exact absurd ((h.walk_eq_forbidden_iff hl).1 hwalk) hopen

theorem Proper.isClosed_candidate (hshort : (candidate name l).toText.nameSize ≤ maxPathBytes)
    (hopen : ¬t.ClosedOff l) (hsome : (t.entry? (l ++ [name])).isSome) :
    t.isClosed (candidate name l) = decide (l ++ [name] ∈ t.closed) := by
  rw [isClosed, locate_candidate hl hshort]
  rcases h.walk_down hl (l := []) with hwalk | ⟨hnone, -⟩ | hwalk
  · rw [hwalk, List.nil_append]
  · rw [List.nil_append] at hnone
    simp [hnone] at hsome
  · exact absurd ((h.walk_eq_forbidden_iff hl).1 hwalk) hopen

theorem Proper.lookup_of_closedOff
    (hshort : (candidate name l).toText.nameSize ≤ maxPathBytes) (hclosed : t.ClosedOff l) :
    t.lookup (candidate name l) = .error (.forbidden (candidate name l)) := by
  rw [lookup, locate_candidate hl hshort, (h.walk_eq_forbidden_iff hl).2 hclosed]

end Candidate

theorem lookup_of_long (hspeakable : ∀ part ∈ p.parts, part.Speakable)
    (hlong : maxPathBytes < p.toText.nameSize) : t.lookup p = .error (.nameTooLong p) :=
  lookup_eq_error_iff.2 (.inl ⟨⟨Path.fault?_eq_none hspeakable, .inl hlong⟩, rfl⟩)

theorem mem_resolve (h : name ∈ t.resolve p) :
    name ∈ t.workingDirectory ∨ name ∈ p.parts ∧ name ≠ Path.up := by
  have hstart : ∀ name ∈ t.start p, name ∈ t.workingDirectory := by
    unfold start
    split_ifs <;> simp
  suffices hfold : ∀ (names : List Text) (l : Location), name ∈ names.foldl
      (fun l name => if name = Path.up then l.dropLast else l ++ [name]) l →
      name ∈ l ∨ name ∈ names ∧ name ≠ Path.up from
    (hfold _ _ h).imp_left (hstart name)
  intro names
  induction names with
  | nil => exact fun l hl => .inl hl
  | cons first names ih =>
    intro l hl
    rw [List.foldl_cons] at hl
    rcases ih _ hl with hl | ⟨hnames, hup⟩
    · split_ifs at hl with hfirst
      · exact .inl (List.mem_of_mem_dropLast hl)
      · rcases List.mem_append.1 hl with hl | hl
        · exact .inl hl
        · obtain rfl := List.mem_singleton.1 hl
          exact .inr ⟨List.mem_cons_self, hfirst⟩
    · exact .inr ⟨List.mem_cons_of_mem _ hnames, hup⟩

theorem resolve_pathOf (h : ∀ name ∈ l, name ≠ Path.up) : t.resolve (pathOf l) = l := by
  suffices hfold : ∀ l₀ : Location, l.foldl
      (fun l name => if name = Path.up then l.dropLast else l ++ [name]) l₀ = l₀ ++ l from
    hfold []
  induction l with
  | nil => exact fun l₀ => (List.append_nil l₀).symm
  | cons name l ih =>
    obtain ⟨hname, hl⟩ := List.forall_mem_cons.1 h
    intro l₀
    rw [List.foldl_cons, if_neg hname, ih hl, ← List.append_cons]

section Search

/-- The deepest directory from `l` up to the root that holds `name`; none if no one does. -/
def Deepest (t : FileTree) (name : Text) (l : Location) : Option Location → Prop
  | some near => near <+: l ∧ (t.entry? (near ++ [name])).isSome ∧
    ∀ l', l' <+: l → (t.entry? (l' ++ [name])).isSome → l' <+: near
  | none => ∀ l', l' <+: l → t.entry? (l' ++ [name]) = none

instance (t : FileTree) (name : Text) (l : Location) : DecidablePred (t.Deepest name l)
  | some near => decidable_of_iff (near <+: l ∧ (t.entry? (near ++ [name])).isSome ∧
      ∀ l' ∈ l.inits, (t.entry? (l' ++ [name])).isSome → l' <+: near) (by simp [Deepest])
  | none => decidable_of_iff (∀ l' ∈ l.inits, t.entry? (l' ++ [name]) = none) (by simp [Deepest])

theorem Deepest.unique {found found' : Option Location} (h : t.Deepest name l found)
    (h' : t.Deepest name l found') : found = found' := by
  cases found with
  | none =>
    cases found' with
    | none => rfl
    | some near' =>
      obtain ⟨haround, hsome, -⟩ := h'
      simp [h near' haround] at hsome
  | some near =>
    cases found' with
    | none =>
      obtain ⟨haround, hsome, -⟩ := h
      simp [h' near haround] at hsome
    | some near' =>
      have hle := h'.2.2 near h.1 h.2.1
      have hge := h.2.2 near' h'.1 h'.2.1
      rw [hle.eq_of_length_le hge.length_le]

/-- Where all lookups tell what stands at a place, a search upwards finds the deepest directory. -/
theorem deepest_of_searchUpward
    (h : ∀ l', l' <+: l → t.lookup (candidate name l') = .ok (t.entry? (l' ++ [name]))) :
    ∃ found, t.Deepest name l found ∧
      t.searchUpward name l = .ok (found.map (candidate name)) := by
  rcases t.searchUpward_cases name l with ⟨hsearch, hnone⟩ | ⟨near, hnear, hsearch⟩
  · refine ⟨none, fun l' hl' => ?_, hsearch⟩
    exact Except.ok.inj ((h l' hl').symm.trans (hnone l' hl'))
  · obtain ⟨entry, hentry⟩ : ∃ entry, t.entry? (near ++ [name]) = some entry := by
      rw [← Option.ne_none_iff_exists']
      intro hnone
      exact hnear.found (by rw [h near hnear.around, hnone])
    refine ⟨some near, ⟨hnear.around, by simp [hentry], fun l' hl' hsome => ?_⟩, ?_⟩
    · -- A directory that holds the name is not below the nearest one.
      by_contra hbelow
      have hinside : near <+: l' := by
        rcases List.prefix_or_prefix_of_prefix hnear.around hl' with hinside | hoff
        · exact hinside
        · exact absurd hoff hbelow
      have hne : l' ≠ near := fun heq => hbelow (heq ▸ List.prefix_refl l')
      have hnone := hnear.nearest l' hinside hl' hne
      rw [h l' hl', Except.ok.injEq] at hnone
      simp [hnone] at hsome
    · rw [hsearch, h near hnear.around, hentry]
      rfl

end Search

end FileTree

end BundleGraph
