import BasicLexis.Proofs.Log.Collector
import Mathlib.Algebra.GroupWithZero.Nat

set_option autoImplicit false

/-! # Counts and report of a collector

The counts and the report walk over the files of a collector. With what the list of files holds
after any calls, both are told from the calls themselves, file by file: no file has a say in what is
told of another one, and only the first events of a file are told of. The counts are taken over the
events that were kept. So a file whose first error came after its limit counts as clean. -/

namespace BasicLexis

namespace FileEvents

theorem ofList_errors (recorded : List LogEvent) :
    (ofList recorded).errors
      = (recorded.take Limits.maxLogEventsPerFile).filter (·.level = .error) := by
  simp [errors, ofList]

theorem ofList_warnings (recorded : List LogEvent) :
    (ofList recorded).warnings
      = (recorded.take Limits.maxLogEventsPerFile).filter (·.level = .warning) := by
  simp [warnings, ofList]

end FileEvents

namespace Collector

variable {calls : List Call} {file : List PathComponent}

/-- The events that are kept of a file. -/
def kept (file : List PathComponent) (calls : List Call) : List LogEvent :=
  (recorded file calls).take Limits.maxLogEventsPerFile

/-! ## The files of a run -/

theorem eventsFor_eq (c : Collector) (path : Path) :
    c.eventsFor path = ((listed? path.components c.files).map (·.2.events)).getD #[] := by
  have key : (fun file : Path × FileEvents => path.same file.1)
      = fun file => decide (file.1.components = path.components) := by
    funext file
    simp [Path.same, eq_comm, Bool.beq_eq_decide_eq]
  unfold eventsFor listed?
  rw [← key]

/-- A file is listed under the path by which it was first named, with the events that were recorded
    for it. -/
theorem mem_run {listed : Path × FileEvents} :
    listed ∈ (run calls).files
      ↔ (callsOn listed.1.components calls).head?.map Call.path = some listed.1 ∧
        listed.2 = .ofList (recorded listed.1.components calls) := by
  rw [mem_iff_listed? (ordered_run calls), listed?_run]
  cases (callsOn listed.1.components calls).head? with
  | none => simp
  | some first => simp [Prod.ext_iff, eq_comm]

theorem mem_paths {p : Path} :
    p ∈ (run calls).files.map (·.1)
      ↔ (callsOn p.components calls).head?.map Call.path = some p := by
  rw [List.mem_map]
  constructor
  · rintro ⟨listed, mem, rfl⟩
    exact (mem_run.1 mem).1
  · intro first
    exact ⟨(p, .ofList (recorded p.components calls)), mem_run.2 ⟨first, rfl⟩, rfl⟩

/-- The listed files are those that were named. -/
theorem toFinset_files (calls : List Call) :
    ((run calls).files.map (·.1.components)).toFinset = named calls := by
  ext file
  rw [List.mem_toFinset, List.mem_map, mem_named]
  constructor
  · rintro ⟨listed, mem, rfl⟩ none
    have first := (mem_run.1 mem).1
    rw [none] at first
    cases first
  · intro some
    have found : listed? file (run calls).files = _ := listed?_run calls
    obtain ⟨first, rest, on⟩ := List.exists_cons_of_ne_nil some
    rw [on] at found
    exact ⟨_, List.mem_of_find?_eq_some found, by simpa using List.find?_some found⟩

/-- Files are counted by what was recorded for them. -/
theorem countP_files (P : FileEvents → Bool) (calls : List Call) :
    ((run calls).files.map (·.2)).countP P
      = ((named calls).filter fun file => P (.ofList (recorded file calls)) = true).card := by
  have same : ((run calls).files.map (·.2)).countP P
      = ((run calls).files.map (·.1.components)).countP
          fun file => P (.ofList (recorded file calls)) := by
    rw [List.countP_map, List.countP_map]
    refine List.countP_congr fun file mem => ?_
    simp only [Function.comp_apply, (mem_run.1 mem).2]
  rw [same, ← toFinset_files, List.countP_eq_length_filter, ← List.toFinset_filter,
    List.toFinset_card_of_nodup ((ordered_run calls).nodup.filter _)]

/-! ## The counts -/

theorem foldl_countFile (s : Summary) (fs : List FileEvents) :
    fs.foldl countFile s =
      { files := s.files + fs.length
        clean := s.clean + fs.countP (·.errors.isEmpty)
        failed := s.failed + fs.countP (!·.errors.isEmpty)
        errors := s.errors + (fs.map (·.errors.length)).sum
        warnings := s.warnings + (fs.map (·.warnings.length)).sum } := by
  induction fs generalizing s with
  | nil => rfl
  | cons f fs ih =>
    rw [List.foldl_cons, ih]
    by_cases none : f.errors = []
    · simp [countFile, none]
      omega
    · simp [countFile, none]
      omega

theorem summary_eq (c : Collector) :
    c.summary =
      { files := c.files.length
        clean := (c.files.map (·.2)).countP (·.errors.isEmpty)
        failed := (c.files.map (·.2)).countP (!·.errors.isEmpty)
        errors := ((c.files.map (·.2)).map (·.errors.length)).sum
        warnings := ((c.files.map (·.2)).map (·.warnings.length)).sum } := by
  rw [summary, foldl_countFile]
  simp

/-- There are errors if a file has failed. -/
theorem hasErrors_iff (c : Collector) : c.summary.hasErrors = true ↔ 0 < c.summary.failed := by
  simp [Summary.hasErrors, summary_eq, List.sum_pos_iff_exists_pos_nat, List.countP_pos_iff,
    List.length_pos_iff]

theorem isEmpty_errors_iff :
    (FileEvents.ofList (recorded file calls)).errors.isEmpty = true
      ↔ ∀ e ∈ kept file calls, e.level ≠ .error := by
  rw [FileEvents.ofList_errors, List.isEmpty_iff, List.filter_eq_nil_iff]
  simp [kept]

theorem failed_run (calls : List Call) :
    (run calls).summary.failed
      = ((named calls).filter fun file => ∃ e ∈ kept file calls, e.level = .error).card := by
  have failed (file : List PathComponent) :
      (!(FileEvents.ofList (recorded file calls)).errors.isEmpty) = true
        ↔ ∃ e ∈ kept file calls, e.level = .error := by
    rw [Bool.not_eq_true', ← Bool.not_eq_true, isEmpty_errors_iff]
    push Not
    rfl
  simp only [summary_eq, countP_files, failed]

theorem clean_run (calls : List Call) :
    (run calls).summary.clean
      = ((named calls).filter fun file => ∀ e ∈ kept file calls, e.level ≠ .error).card := by
  simp only [summary_eq, countP_files, isEmpty_errors_iff]

theorem files_run (calls : List Call) : (run calls).summary.files = (named calls).card := by
  rw [summary_eq, ← toFinset_files, List.toFinset_card_of_nodup (ordered_run calls).nodup,
    List.length_map]

/-- The counts are taken over the events that were kept of each file. A file that failed is counted
    as one if and only if an error is among its first events, up to the limit; so the count of
    failed files is right if and only if that holds of every file that failed. -/
theorem summary_counts_kept (calls : List Call) :
    (run calls).summary.failed
      = ((named calls).filter fun file => ∃ e ∈ kept file calls, e.level = .error).card ∧
    (run calls).summary.clean
      = ((named calls).filter fun file => ∀ e ∈ kept file calls, e.level ≠ .error).card ∧
    ((run calls).summary.hasErrors = true ↔ ∃ file, ∃ e ∈ kept file calls, e.level = .error) ∧
    ((run calls).summary.failed
        = ((named calls).filter fun file => ∃ e ∈ recorded file calls, e.level = .error).card ↔
      ∀ file, (∃ e ∈ recorded file calls, e.level = .error) →
        ∃ e ∈ kept file calls, e.level = .error) := by
  have recorded_of_kept (file : List PathComponent) :
      (∃ e ∈ kept file calls, e.level = .error) → ∃ e ∈ recorded file calls, e.level = .error :=
    fun ⟨e, mem, isError⟩ => ⟨e, List.mem_of_mem_take mem, isError⟩
  have named_of_failed (file : List PathComponent) :
      (∃ e ∈ recorded file calls, e.level = .error) → file ∈ named calls :=
    fun ⟨_, mem, _⟩ => mem_named_of_recorded mem
  refine ⟨failed_run calls, clean_run calls, ?_, ?_⟩
  · rw [hasErrors_iff, failed_run, Finset.card_pos]
    constructor
    · rintro ⟨file, mem⟩
      exact ⟨file, (Finset.mem_filter.1 mem).2⟩
    · rintro ⟨file, failed⟩
      have mem := named_of_failed file (recorded_of_kept file failed)
      exact ⟨file, Finset.mem_filter.2 ⟨mem, failed⟩⟩
  · rw [failed_run]
    constructor
    · intro count file failed
      have sub := Finset.monotone_filter_right (named calls) fun file _ => recorded_of_kept file
      have mem : file ∈ (named calls).filter
          fun file => ∃ e ∈ recorded file calls, e.level = .error :=
        Finset.mem_filter.2 ⟨named_of_failed file failed, failed⟩
      rw [← Finset.eq_of_subset_of_card_le sub count.ge] at mem
      exact (Finset.mem_filter.1 mem).2
    · intro among
      exact congrArg Finset.card
        (Finset.filter_congr fun file _ => ⟨recorded_of_kept file, among file⟩)

example :
    (run [.openFile ⟨"Clean.vb"⟩, .record ⟨"Broken.vb"⟩ (.error .invalidCharacter "Unknown char"),
      .record ⟨"Broken.vb"⟩ (.warning "Token limit reached")]).summary
      = { files := 2, clean := 1, failed := 1, errors := 1, warnings := 1 } := by
  decide

/-! ## The report -/

/-- The lines on a file for which the given events were recorded: the errors and then the warnings
    among those that are kept, and how many events there are beyond the limit. -/
def reportOn (path : Path) (events : List LogEvent) : List String :=
  let kept := events.take Limits.maxLogEventsPerFile
  let note :=
    if Limits.maxLogEventsPerFile < events.length then
      ["note: " ++ toString (events.length - Limits.maxLogEventsPerFile) ++ " more event(s) in "
        ++ path.text ++ " not shown", ""]
    else []
  (kept.filter (·.level = .error)).flatMap (errorLines path)
    ++ (kept.filter (·.level = .warning)).flatMap (warningLines path) ++ note

/-- The last line of a report, if anything is counted. -/
def totals (s : Summary) : List String :=
  if s.errors = 0 ∧ s.warnings = 0 then []
  else [toString s.errors ++ " error(s) and " ++ toString s.warnings ++ " warning(s) in "
    ++ toString s.failed ++ " of " ++ toString s.files ++ " file(s)"]

theorem fileLines_ofList (path : Path) (events : List LogEvent) :
    fileLines path (.ofList events) = reportOn path events := by
  have within : (FileEvents.ofList events).dropped = 0
      ↔ ¬Limits.maxLogEventsPerFile < events.length := by
    rw [FileEvents.ofList, Nat.sub_eq_zero_iff_le, Nat.not_lt]
  unfold fileLines reportOn
  rw [FileEvents.ofList_errors, FileEvents.ofList_warnings]
  by_cases more : Limits.maxLogEventsPerFile < events.length
  · rw [if_neg (by simpa [within] using more), if_pos more]
    rfl
  · rw [if_pos (within.2 more), if_neg more]

/-- The report goes through the files in the order in which they are listed. -/
theorem lines_run (calls : List Call) :
    (run calls).lines
      = ((run calls).files.map (·.1)).flatMap
          (fun p => reportOn p (recorded p.components calls)) ++ totals (run calls).summary := by
  have files : (run calls).files.flatMap (fun listed => fileLines listed.1 listed.2)
      = ((run calls).files.map (·.1)).flatMap
          fun p => reportOn p (recorded p.components calls) := by
    rw [List.flatMap_map]
    refine List.flatMap_congr fun listed mem => ?_
    rw [(mem_run.1 mem).2, fileLines_ofList]
  rw [← files]
  rfl

/-! ## Files apart -/

theorem eventsFor_run (path : Path) (calls : List Call) :
    ((run calls).eventsFor path).toList = kept path.components calls := by
  rw [eventsFor_eq, listed?_run]
  cases on : callsOn path.components calls with
  | nil => simp [kept, recorded_eq_nil on]
  | cons first rest => simp [kept, FileEvents.ofList]

/-- Calls that differ only in how calls on different files are mixed leave the same collector. -/
theorem run_congr {others : List Call}
    (same : ∀ path : Path, callsOn path.components others = callsOn path.components calls) :
    run others = run calls := by
  have onAny (file : List PathComponent) : callsOn file others = callsOn file calls := by
    by_cases given : ∃ path : Path, path.components = file
    · obtain ⟨path, rfl⟩ := given
      exact same path
    · have none (calls : List Call) : callsOn file calls = [] := by
        rw [callsOn, List.filter_eq_nil_iff]
        intro call _ here
        exact given ⟨call.path, of_decide_eq_true here⟩
      rw [none, none]
  have files : (run others).files = (run calls).files := by
    refine (ordered_run others).ext (ordered_run calls) fun file => ?_
    rw [listed?_run, listed?_run, recorded, recorded, onAny]
  exact congrArg Collector.mk files

/-- Files are kept apart. What is kept of a file and what the report says on it is told from the
    events that were recorded for it, the report goes through the named files in the order of their
    paths, each under the path by which it was first named, and it does not matter how calls on
    different files are mixed. -/
theorem files_apart (calls : List Call) :
    (∀ path : Path, ((run calls).eventsFor path).toList
      = (recorded path.components calls).take Limits.maxLogEventsPerFile) ∧
    (run calls).summary.files = (named calls).card ∧
    (∃ listing : List Path,
      listing.Pairwise (fun p q => p.less q = true) ∧
      (∀ p, p ∈ listing ↔ (callsOn p.components calls).head?.map Call.path = some p) ∧
      (run calls).render = String.join
        ((listing.flatMap (fun p => reportOn p (recorded p.components calls))
          ++ totals (run calls).summary).map (· ++ "\n"))) ∧
    ∀ others : List Call,
      (∀ path : Path, callsOn path.components others = callsOn path.components calls) →
      (∀ path, (run others).eventsFor path = (run calls).eventsFor path) ∧
      (run others).summary = (run calls).summary ∧
      (run others).render = (run calls).render := by
  refine ⟨fun path => eventsFor_run path calls, files_run calls, ?_, ?_⟩
  · refine ⟨(run calls).files.map (·.1), ?_, fun p => mem_paths, ?_⟩
    · exact List.pairwise_map.2 (ordered_run calls)
    · rw [render, lines_run]
  · intro others same
    rw [run_congr same]
    exact ⟨fun path => rfl, rfl, rfl⟩

/-- A file that is opened before or after an event is recorded for another one. -/
theorem files_apart_opened :
    let broken : Call := .record ⟨"src/Broken.vb"⟩ (.error .invalidCharacter "Unknown char")
    let clean : Call := .openFile ⟨"src/Clean.vb"⟩
    (∀ path : Path,
      callsOn path.components [clean, broken] = callsOn path.components [broken, clean]) ∧
    (run [clean, broken]).render = (run [broken, clean]).render := by
  intro broken clean
  have apart : broken.file ≠ clean.file := by decide
  have same (path : Path) :
      callsOn path.components [clean, broken] = callsOn path.components [broken, clean] := by
    by_cases here : broken.file = path.components
    · have there : clean.file ≠ path.components := fun there => apart (here.trans there.symm)
      simp [callsOn, here, there]
    · simp [callsOn, List.filter_cons, here]
  obtain ⟨-, -, -, mixed⟩ := files_apart [broken, clean]
  exact ⟨same, (mixed [clean, broken] same).2.2⟩

end Collector

end BasicLexis
