import BundleGraph.Proofs.Files.Place
import BundleGraph.Settings.Loading

/-!
# The search for settings

The settings file that is found from a directory is the one in the deepest directory around it that
holds such a name, and it governs what is loaded without a path. The search begins at the directory
itself: if the path of a settings file there is too long or leads through a closed directory, the
search fails and looks no further.
-/
namespace BundleGraph

open FileTree (Deepest candidate maxPathBytes)

namespace Path

variable {p : Path} {name : Text}

theorem speakable_child (h : ∀ part ∈ p.parts, part.Speakable) (hname : name.Speakable) :
    ∀ part ∈ (p.child name).parts, part.Speakable :=
  List.forall_mem_append.2 ⟨h, List.forall_mem_singleton.2 hname⟩

theorem speakable_above (h : ∀ part ∈ p.parts, part.Speakable) :
    ∀ part ∈ p.above.parts, part.Speakable := by
  have hup : ∀ part ∈ (p.child up).parts, part.Speakable := speakable_child h (by decide)
  unfold above
  split
  · split_ifs
    · exact hup
    · exact h
  · split_ifs
    · exact hup
    · exact fun part hpart => h part (List.mem_of_mem_dropLast hpart)

end Path

namespace Settings

variable {limits : Json.Limits} {files : FileTree} {directory visited : Path} {l : Location}
variable {names : List Text}

theorem visitFault?_eq_none (hvisited : ∀ part ∈ visited.parts, part.Speakable)
    (hnames : ∀ name ∈ names, name.Speakable) : visitFault? visited names = none := by
  induction names generalizing visited with
  | nil => rfl
  | cons name names ih =>
    obtain ⟨hname, hnames⟩ := List.forall_mem_cons.1 hnames
    rw [visitFault?]
    split_ifs
    · exact ih (Path.speakable_above hvisited) hnames
    · have hchild := Path.speakable_child hvisited hname
      rw [Path.fault?_eq_none hchild]
      exact ih hchild hnames

/-- From a path that can be named, the search starts where the path leads. -/
theorem find_eq_searchUpward (h : directory.Namable) :
    find files directory = files.searchUpward fileName (files.resolve directory) := by
  rw [find, visitFault?_eq_none (by simp) fun name hname => (h name hname).1]

/-- The names on the way to a settings file are such as a file system allows. -/
theorem allowed_candidate (hl : ∀ name ∈ l, name.Allowed ∧ name ≠ Path.up) :
    ∀ name ∈ (candidate fileName l).parts, name.Allowed ∧ name ≠ Path.up :=
  List.forall_mem_append.2 ⟨hl, List.forall_mem_singleton.2 (by decide)⟩

theorem searchUpward_of_fault {f : Fault} (h : files.lookup (candidate fileName l) = .error f) :
    files.searchUpward fileName l = .error f := by
  rw [FileTree.searchUpward]
  simp only [h]

theorem searchUpward_of_long (hl : ∀ name ∈ l, name.Allowed ∧ name ≠ Path.up)
    (hlong : maxPathBytes < (candidate fileName l).toText.nameSize) :
    files.searchUpward fileName l = .error (.nameTooLong (candidate fileName l)) :=
  searchUpward_of_fault
    (FileTree.lookup_of_long (fun name hname => (allowed_candidate hl name hname).1.1) hlong)

theorem searchUpward_of_closedOff (h : files.Proper)
    (hl : ∀ name ∈ l, name.Allowed ∧ name ≠ Path.up)
    (hshort : (candidate fileName l).toText.nameSize ≤ maxPathBytes)
    (hclosed : files.ClosedOff l) :
    files.searchUpward fileName l = .error (.forbidden (candidate fileName l)) :=
  searchUpward_of_fault (h.lookup_of_closedOff (allowed_candidate hl) hshort hclosed)

/-- If no path of a settings file at the start is too long or closed off, none further up is. -/
theorem deepest_of_short (h : files.Proper) (hl : ∀ name ∈ l, name.Allowed ∧ name ≠ Path.up)
    (hshort : (candidate fileName l).toText.nameSize ≤ maxPathBytes)
    (hopen : ¬files.ClosedOff l) :
    ∃ found, files.Deepest fileName l found ∧
      files.searchUpward fileName l = .ok (found.map (candidate fileName)) := by
  refine FileTree.deepest_of_searchUpward fun l' hl' => h.lookup_candidate ?_ ?_ ?_
  · exact allowed_candidate fun name hname => hl name (hl'.subset hname)
  · exact (FileTree.nameSize_candidate_le fileName hl').trans hshort
  · exact fun hclosed => hopen (hclosed.mono hl')

theorem allowed_resolve (h : files.Proper) (hdirectory : directory.Namable) :
    ∀ name ∈ files.resolve directory, name.Allowed ∧ name ≠ Path.up := by
  intro name hname
  rcases FileTree.mem_resolve hname with hname | ⟨hname, hup⟩
  · exact h.named _ (by simp [h.working]) name hname
  · exact ⟨hdirectory name hname, hup⟩

/-- Without a path the settings are those of the file that the search finds, or the defaults. -/
theorem load_none_of_search {found : Option Location}
    (h : files.searchUpward fileName files.workingDirectory =
      .ok (found.map (candidate fileName))) :
    load limits files none =
      found.elim (.ok {}) fun near => loadFrom limits files (candidate fileName near) := by
  have hfind : find files here = files.searchUpward fileName files.workingDirectory := rfl
  cases found <;> simp [load, hfind, h]

theorem candidate_injective (name : Text) : Function.Injective (candidate name) := by
  intro l l' h
  exact List.append_cancel_right (Path.mk.inj h).2

/-- From every path that can be named, the search finds the settings file in the deepest directory
that holds one, and none just if no directory does; without a path, what stands there governs the
settings. Only a path of a settings file that is too long or closed off at the start makes both
fail. -/
theorem find_deepest (limits : Json.Limits) (h : files.Proper) :
    (∀ directory : Path, directory.Namable →
      let l := files.resolve directory
      (maxPathBytes < (candidate fileName l).toText.nameSize →
        find files directory = .error (.nameTooLong (candidate fileName l))) ∧
      ((candidate fileName l).toText.nameSize ≤ maxPathBytes →
        (files.ClosedOff l → find files directory = .error (.forbidden (candidate fileName l))) ∧
        (¬files.ClosedOff l →
          (∃ found, files.Deepest fileName l found) ∧
            ∀ found, find files directory = .ok (found.map (candidate fileName)) ↔
              files.Deepest fileName l found))) ∧
    (maxPathBytes < (candidate fileName files.workingDirectory).toText.nameSize →
      load limits files none =
        .error (.fault (.nameTooLong (candidate fileName files.workingDirectory)))) ∧
    ((candidate fileName files.workingDirectory).toText.nameSize ≤ maxPathBytes →
      (files.ClosedOff files.workingDirectory → load limits files none =
        .error (.fault (.forbidden (candidate fileName files.workingDirectory)))) ∧
      (¬files.ClosedOff files.workingDirectory →
        (∀ near entry, files.Deepest fileName files.workingDirectory (some near) →
          files.entry? (near ++ [fileName]) = some entry →
          load limits files none =
            if near ++ [fileName] ∈ files.closed then
              .error (.error ⟨.settings, candidate fileName near, .forbidden⟩)
            else loadEntry limits (candidate fileName near) entry) ∧
        (files.Deepest fileName files.workingDirectory none →
          load limits files none = .ok {}))) := by
  have hhere : here.Namable := by decide
  have hworking : ∀ name ∈ files.workingDirectory, name.Allowed ∧ name ≠ Path.up :=
    allowed_resolve h hhere
  have hfind : find files here = files.searchUpward fileName files.workingDirectory := rfl
  refine ⟨fun directory hdirectory => ?_, fun hlong => ?_, fun hshort => ⟨fun hclosed => ?_, ?_⟩⟩
  · have hl := allowed_resolve h hdirectory
    rw [find_eq_searchUpward hdirectory]
    refine ⟨searchUpward_of_long hl, fun hshort =>
      ⟨searchUpward_of_closedOff h hl hshort, fun hopen => ?_⟩⟩
    obtain ⟨found, hdeepest, hsearch⟩ := deepest_of_short h hl hshort hopen
    refine ⟨⟨found, hdeepest⟩, fun found' => ?_⟩
    rw [hsearch, Except.ok.injEq, (Option.map_injective (candidate_injective fileName)).eq_iff]
    constructor
    · rintro rfl
      exact hdeepest
    · exact hdeepest.unique
  · simp only [load, hfind, searchUpward_of_long hworking hlong]
  · simp only [load, hfind, searchUpward_of_closedOff h hworking hshort hclosed]
  · intro hopen
    obtain ⟨found, hdeepest, hsearch⟩ := deepest_of_short h hworking hshort hopen
    refine ⟨fun near entry hnear hentry => ?_, fun hnone => ?_⟩
    · obtain rfl := hdeepest.unique hnear
      have hallowed : ∀ part ∈ near ++ [fileName], part.Allowed ∧ part ≠ Path.up :=
        allowed_candidate fun name hname => hworking name (hnear.1.subset hname)
      have hshort' := (FileTree.nameSize_candidate_le fileName hnear.1).trans hshort
      have hopen' : ¬files.ClosedOff near := fun hclosed => hopen (hclosed.mono hnear.1)
      have hlookup : files.lookup (candidate fileName near) = .ok (some entry) := by
        rw [← hentry]
        exact h.lookup_candidate hallowed hshort' hopen'
      have hclosed := h.isClosed_candidate hallowed hshort' hopen' (by simp [hentry])
      rw [load_none_of_search hsearch, Option.elim_some, loadFrom, hlookup]
      simp only [hclosed, decide_eq_true_eq]
    · obtain rfl := hdeepest.unique hnone
      exact load_none_of_search hsearch

/-- A settings file that governs from two levels below, and from a path that leads there. -/
theorem find_deepest_below :
    let files : FileTree :=
      { entries := [(["a"], .directory), (["a", "b"], .directory), (["a", fileName], .file [])]
        workingDirectory := ["a", "b"] }
    let directory : Path := ⟨.here, ["c", "..", "d"]⟩
    files.Proper ∧ directory.Namable ∧
      find files directory = .ok (some (candidate fileName ["a"])) ∧
      load .standard files none = loadEntry .standard (candidate fileName ["a"]) (.file []) := by
  intro files directory
  have hproper : files.Proper := FileTree.proper_of_entries rfl (by decide)
  have hdirectory : directory.Namable := by decide
  obtain ⟨hfind, -, hload⟩ := find_deepest .standard hproper
  refine ⟨hproper, hdirectory, ?_, ?_⟩
  · exact ((((hfind directory hdirectory).2 (by decide)).2 (by decide)).2 (some ["a"])).2
      (by decide)
  · exact ((hload (by decide)).2 (by decide)).1 ["a"] (.file []) (by decide) rfl

/-- A path of 4090 bytes, below which no settings file can be named: the search from there fails,
though no directory holds one. -/
theorem find_fails :
    let directory : Path := ⟨.root, List.replicate 2045 "a"⟩
    let files : FileTree := {}
    (files.Proper ∧ directory.Namable ∧ directory.toText.nameSize ≤ maxPathBytes) ∧
      files.Deepest fileName (files.resolve directory) none ∧
      find files directory ≠ .ok none := by
  intro directory files
  have hproper : files.Proper := FileTree.proper_of_entries rfl (by decide)
  have hdirectory : directory.Namable := by
    intro name hname
    rw [List.eq_of_mem_replicate hname]
    decide
  have hup : ∀ name ∈ directory.parts, name ≠ Path.up := by
    intro name hname
    rw [List.eq_of_mem_replicate hname]
    decide
  have hresolve : files.resolve directory = directory.parts := FileTree.resolve_pathOf hup
  have hsize (n : Nat) (more : Location) :
      (FileTree.pathOf (List.replicate (n + 1) ("a" : Text) ++ more)).toText.nameSize =
        (n + 1) * 2 + (more.map fun name => name.nameSize + 1).sum := by
    have hletter : Text.nameSize "a" = 1 := rfl
    rw [FileTree.nameSize_pathOf (by simp), List.map_append, List.map_replicate, List.sum_append,
      List.sum_replicate, hletter, smul_eq_mul]
  have hlong : maxPathBytes < (candidate fileName directory.parts).toText.nameSize := by
    rw [hsize 2044 [fileName]]
    decide
  refine ⟨⟨hproper, hdirectory, ?_⟩, fun l' _ => ?_, ?_⟩
  · have hpath : directory = FileTree.pathOf (List.replicate 2045 ("a" : Text) ++ []) := by
      rw [List.append_nil]
      rfl
    rw [hpath, hsize 2044 []]
    decide
  · exact if_neg (by simp)
  · rw [find_eq_searchUpward hdirectory, hresolve,
      searchUpward_of_long (fun name hname => ⟨hdirectory name hname, hup name hname⟩) hlong]
    exact nofun

end Settings

end BundleGraph
