import BundleGraph.Audit.Report
import BundleGraph.Proofs.Assoc
import BundleGraph.Proofs.First

/-!
# Reports under change

A report is changed by adding issues and by raising counters, in any order and any number of times.
An issue never touches a counter, and a count neither the status nor the issues. So what a report
holds in the end is read off the issues and the counts apart, whatever their order among each other.
-/
namespace BundleGraph

/-- A change to a report: an issue that is added, or a counter that is raised. -/
inductive Change where
  | issue (i : Issue)
  | count (name : Text) (by' : Int)

namespace Change

def make (r : Report) : Change → Report
  | issue i => r.addIssue i
  | count name n => r.count name n

def issue? : Change → Option Issue
  | issue i => some i
  | count _ _ => none

/-- The name that a change counts, and by how much. -/
def count? : Change → Option (Text × Int)
  | issue _ => none
  | count name n => some (name, n)

end Change

def Report.after (r : Report) (changes : List Change) : Report := changes.foldl Change.make r

def total (counts : List (Text × Int)) (name : Text) : Int :=
  ((counts.filter fun p => p.1 = name).map Prod.snd).sum

/-- The names that were counted, in the order in which they first came, with their totals. -/
def tally (counts : List (Text × Int)) : List (Text × Int) :=
  (counts.map Prod.fst).eraseDups.map fun name => (name, total counts name)

variable {counts : List (Text × Int)} {name x : Text} {n : Int} {r : Report} {i : Issue}
variable {status : Status} {changes : List Change}

section Tally

theorem total_concat (counts : List (Text × Int)) (name x : Text) (n : Int) :
    total (counts ++ [(name, n)]) x = total counts x + if x = name then n else 0 := by
  by_cases h : x = name
  · simp [total, h]
  · simp [total, h, Ne.symm h]

theorem total_of_not_mem (h : x ∉ counts.map Prod.fst) : total counts x = 0 := by
  have hnone : counts.filter (fun p => p.1 = x) = [] := by
    rw [List.filter_eq_nil_iff]
    intro p hp heq
    exact h (List.mem_map.2 ⟨p, hp, of_decide_eq_true heq⟩)
  rw [total, hnone]
  rfl

theorem keys_tally (counts : List (Text × Int)) :
    Assoc.keys (tally counts) = (counts.map Prod.fst).eraseDups := by
  simp [Assoc.keys, tally, Function.comp_def]

theorem nodup_keys_tally (counts : List (Text × Int)) : (Assoc.keys (tally counts)).Nodup := by
  rw [keys_tally]
  exact nodup_eraseDups _

theorem lookup_tally (counts : List (Text × Int)) (x : Text) : (tally counts).lookup x =
    if x ∈ counts.map Prod.fst then some (total counts x) else none := by
  split_ifs with h
  · rw [Assoc.lookup_eq_some_iff (nodup_keys_tally counts)]
    exact List.mem_map.2 ⟨x, List.mem_eraseDups.2 h, rfl⟩
  · rw [Assoc.lookup_eq_none_iff, keys_tally]
    exact List.mem_eraseDups.not.2 h

theorem getD_lookup_tally (counts : List (Text × Int)) (x : Text) :
    ((tally counts).lookup x).getD 0 = total counts x := by
  rw [lookup_tally]
  split_ifs with h
  · rfl
  · exact (total_of_not_mem h).symm

theorem insert_tally (counts : List (Text × Int)) (name : Text) (n : Int) :
    Assoc.insert name (total counts name + n) (tally counts) = tally (counts ++ [(name, n)]) := by
  have hkeys : Assoc.keys (Assoc.insert name (total counts name + n) (tally counts)) =
      Assoc.keys (tally (counts ++ [(name, n)])) := by
    rw [Assoc.keys_insert, keys_tally, keys_tally, List.map_append, List.map_singleton,
      eraseDups_concat]
    simp only [List.mem_eraseDups]
  refine Assoc.ext_of_nodup hkeys (Assoc.nodup_keys_insert (nodup_keys_tally counts)) fun x => ?_
  rw [Assoc.lookup_insert, lookup_tally, lookup_tally, total_concat]
  by_cases h : x = name
  · simp [h]
  · have hmem : x ∈ (counts ++ [(name, n)]).map Prod.fst ↔ x ∈ counts.map Prod.fst := by simp [h]
    simp only [h, hmem, if_false, add_zero]

end Tally

namespace Report

theorem after_concat (r : Report) (changes : List Change) (c : Change) :
    r.after (changes ++ [c]) = c.make (r.after changes) := by
  simp [after]

/-- Neither kind of change sees what the other one does. -/
theorem count_addIssue (r : Report) (i : Issue) (name : Text) (n : Int) :
    (r.addIssue i).count name n = (r.count name n).addIssue i := rfl

theorem status_addIssue_eq_fail_iff (r : Report) (i : Issue) :
    (r.addIssue i).status = .fail ↔ r.status = .fail ∨ i.severity = .fail := by
  rw [addIssue]
  split_ifs with h
  · simp [h]
  · simp [h]

theorem counters_count (h : r.counters = tally counts) (name : Text) (n : Int) :
    (r.count name n).counters = tally (counts ++ [(name, n)]) := by
  rw [← insert_tally, ← getD_lookup_tally, ← h]
  rfl

theorem issues_after (r : Report) (changes : List Change) :
    (r.after changes).issues = r.issues ++ changes.filterMap Change.issue? := by
  induction changes using List.reverseRecOn with
  | nil => simp [after]
  | append_singleton changes c ih =>
    rw [after_concat, List.filterMap_append, ← List.append_assoc, ← ih]
    cases c with
    | issue i => rfl
    | count name n => exact (List.append_nil _).symm

theorem status_after_eq_fail_iff (r : Report) (changes : List Change) :
    (r.after changes).status = .fail ↔
      r.status = .fail ∨ ∃ i ∈ changes.filterMap Change.issue?, i.severity = .fail := by
  induction changes using List.reverseRecOn with
  | nil => simp [after]
  | append_singleton changes c ih =>
    rw [after_concat]
    cases c with
    | issue i =>
      rw [Change.make, status_addIssue_eq_fail_iff, ih]
      simp [Change.issue?, or_assoc, or_and_right, exists_or]
    | count name n =>
      simp only [Change.make, count, ih]
      simp [Change.issue?]

theorem counters_after (r : Report) (counts : List (Text × Int)) (h : r.counters = tally counts)
    (changes : List Change) :
    (r.after changes).counters = tally (counts ++ changes.filterMap Change.count?) := by
  induction changes using List.reverseRecOn with
  | nil => simpa [after] using h
  | append_singleton changes c ih =>
    rw [after_concat, List.filterMap_append, ← List.append_assoc]
    cases c with
    | issue i =>
      rw [show [Change.issue i].filterMap Change.count? = [] from rfl, List.append_nil, ← ih]
      rfl
    | count name n => exact counters_count ih name n

theorem eq_of_fail_iff {r r' : Report} (hstatus : r.status = .fail ↔ r'.status = .fail)
    (hissues : r.issues = r'.issues) (hcounters : r.counters = r'.counters) : r = r' := by
  obtain ⟨status, issues, counters⟩ := r
  obtain ⟨status', issues', counters'⟩ := r'
  obtain rfl : issues = issues' := hissues
  obtain rfl : counters = counters' := hcounters
  cases status <;> cases status' <;> simp_all

end Report

/-- A report that begins with a status and nothing else, after any changes. It has failed if it
began so or if an issue says so, and nothing that comes later takes this back. It holds the issues
in order, and for each name that was counted, in the order in which the names first came, what was
counted in all. How the issues and the counts were mixed makes no difference. -/
theorem report_after_changes (status : Status) (changes : List Change) :
    let start : Report := ⟨status, [], []⟩
    let r := start.after changes
    let issues := changes.filterMap Change.issue?
    let counts := changes.filterMap Change.count?
    (r.status = .fail ↔ status = .fail ∨ ∃ i ∈ issues, i.severity = .fail) ∧
      (r.exitCode = 1 ↔ status = .fail ∨ ∃ i ∈ issues, i.severity = .fail) ∧
      (r.exitCode = 0 ↔ r.status = .pass) ∧
      (∀ later, (r.after later).status = .pass ↔
        r.status = .pass ∧ ∀ i ∈ later.filterMap Change.issue?, i.severity = .pass) ∧
      r.issues = issues ∧ r.counters = tally counts ∧ (Assoc.keys r.counters).Nodup ∧
      (∀ i name n, (r.addIssue i).count name n = (r.count name n).addIssue i) ∧
      r = start.after (issues.map Change.issue ++ counts.map fun p => Change.count p.1 p.2) := by
  intro start r issues counts
  have hpass {s : Status} : s = .pass ↔ ¬s = .fail := by cases s <;> simp
  have hstatus : r.status = .fail ↔ status = .fail ∨ ∃ i ∈ issues, i.severity = .fail :=
    start.status_after_eq_fail_iff changes
  have hissues : r.issues = issues := start.issues_after changes
  have hcounters : r.counters = tally counts :=
    start.counters_after [] rfl changes
  refine ⟨hstatus, ?_, ?_, fun later => ?_, hissues, hcounters, ?_, r.count_addIssue, ?_⟩
  · rw [← hstatus]
    simp [Report.exitCode]
  · simp [Report.exitCode, hpass]
  · simp only [hpass, r.status_after_eq_fail_iff later]
    simp
  · rw [hcounters]
    exact nodup_keys_tally counts
  · have hsortedIssues : (issues.map Change.issue ++
        counts.map fun p => Change.count p.1 p.2).filterMap Change.issue? = issues := by
      simp [List.filterMap_map, Function.comp_def, Change.issue?]
    have hsortedCounts : (issues.map Change.issue ++
        counts.map fun p => Change.count p.1 p.2).filterMap Change.count? = counts := by
      simp [List.filterMap_map, Function.comp_def, Change.count?]
    apply Report.eq_of_fail_iff
    · rw [hstatus, Report.status_after_eq_fail_iff, hsortedIssues]
    · rw [hissues, Report.issues_after, hsortedIssues]
      rfl
    · rw [hcounters, start.counters_after [] rfl, hsortedCounts]
      rfl

/-- A name keeps its place, also if it was counted by zero first. -/
example : ((Report.mk .pass [] []).after [.count "b" 0, .issue ⟨"r", .pass, "m", none, []⟩,
    .count "a" 2, .count "b" (-3)]).counters =
      [(Text.ofString "b", -3), (Text.ofString "a", 2)] := by decide

end BundleGraph
