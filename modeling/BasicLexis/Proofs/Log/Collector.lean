import BasicLexis.Log.Collector
import BasicLexis.Proofs.File.PathOrder
import Mathlib.Data.Finset.Card
import Mathlib.Data.List.Induction

set_option autoImplicit false

/-! # What a collector holds

A collector keeps one list of files in the order of their paths, and every call looks its file up in
it. `listed?_run` says what the list holds after any calls: for each file, only the calls on that
file matter, and what they leave is told from the events that were recorded for it
(`FileEvents.ofList`). Since the list is in order and no file stands in it twice, this determines
the list. -/

namespace BasicLexis

namespace FileEvents

/-- What is kept of the events of a file, and how many come after that. -/
def ofList (recorded : List LogEvent) : FileEvents where
  events := (recorded.take Limits.maxLogEventsPerFile).toArray
  dropped := recorded.length - Limits.maxLogEventsPerFile

theorem record_ofList (recorded : List LogEvent) (e : LogEvent) :
    (ofList recorded).record e = ofList (recorded ++ [e]) := by
  unfold record ofList
  by_cases room : recorded.length < Limits.maxLogEventsPerFile
  · have all : recorded.take Limits.maxLogEventsPerFile = recorded :=
      List.take_of_length_le (Nat.le_of_lt room)
    have more : (recorded ++ [e]).take Limits.maxLogEventsPerFile = recorded ++ [e] :=
      List.take_of_length_le (by simpa using Nat.succ_le_of_lt room)
    rw [if_pos (by simpa [all] using room), all, more]
    simp
    omega
  · have full : Limits.maxLogEventsPerFile ≤ recorded.length := Nat.le_of_not_lt room
    rw [if_neg (by simpa using room), List.take_append_of_le_length full]
    simp
    omega

end FileEvents

namespace Collector

/-! ## The list of files -/

section Files

variable {path p : Path} {files files' : List (Path × FileEvents)} {key : List PathComponent}
  {change : FileEvents → FileEvents}

/-- The files stand in the order of their paths. -/
def Ordered (files : List (Path × FileEvents)) : Prop :=
  files.Pairwise fun a b => a.1.less b.1 = true

/-- The file with the given components. -/
def listed? (key : List PathComponent) (files : List (Path × FileEvents)) :
    Option (Path × FileEvents) :=
  files.find? fun file => file.1.components = key

/-- A file after a change, listed under the given path if it was not listed. -/
def changed (path : Path) (change : FileEvents → FileEvents) :
    Option (Path × FileEvents) → Path × FileEvents
  | some (p, f) => (p, change f)
  | none => (path, change {})

theorem listed?_cons (file : Path × FileEvents) :
    listed? key (file :: files)
      = if file.1.components = key then some file else listed? key files := by
  by_cases here : file.1.components = key <;> simp [listed?, here]

/-- A file that comes before all others is not among them. -/
theorem listed?_of_less (before : ∀ file ∈ files, p.less file.1 = true) :
    listed? p.components files = none := by
  rw [listed?, List.find?_eq_none]
  intro file mem
  simpa using (Path.components_ne_of_less (before file mem)).symm

theorem less_of_mem_updateIn (before : ∀ file ∈ files, p.less file.1 = true)
    (less : p.less path = true) :
    ∀ file ∈ updateIn path change files, p.less file.1 = true := by
  induction files with
  | nil => simpa [updateIn] using less
  | cons first rest ih =>
    have later := ih fun file mem => before file (.tail _ mem)
    have head := before first (.head _)
    obtain ⟨q, f⟩ := first
    unfold updateIn
    split
    · simp only [List.forall_mem_cons] at before ⊢
      exact before
    · split
      · exact List.forall_mem_cons.2 ⟨less, before⟩
      · exact List.forall_mem_cons.2 ⟨head, later⟩

theorem Ordered.updateIn (h : Ordered files) : Ordered (updateIn path change files) := by
  induction files with
  | nil => exact List.pairwise_singleton _ _
  | cons first rest ih =>
    obtain ⟨q, f⟩ := first
    obtain ⟨after, ordered⟩ := List.pairwise_cons.1 h
    unfold Collector.updateIn
    split
    · exact List.pairwise_cons.2 ⟨after, ordered⟩
    · next other =>
      rw [Path.same_iff] at other
      split
      · next before =>
        refine List.pairwise_cons.2 ⟨List.forall_mem_cons.2 ⟨before, fun file mem => ?_⟩, h⟩
        exact Path.less_trans before (after file mem)
      · next notBefore =>
        refine List.pairwise_cons.2 ⟨?_, ih ordered⟩
        exact less_of_mem_updateIn after (Path.less_of_not_less other notBefore)

/-- A change is one of the file that it is meant for. -/
theorem listed?_updateIn (h : Ordered files) :
    listed? key (updateIn path change files)
      = if path.components = key then some (changed path change (listed? key files))
        else listed? key files := by
  induction files with
  | nil => exact listed?_cons _
  | cons first rest ih =>
    obtain ⟨q, f⟩ := first
    obtain ⟨after, ordered⟩ := List.pairwise_cons.1 h
    unfold updateIn
    split
    · next same =>
      rw [Path.same_iff] at same
      rw [listed?_cons, listed?_cons, same]
      by_cases here : q.components = key <;> simp [here, changed]
    · next other =>
      rw [Path.same_iff] at other
      split
      · next before =>
        -- the file is not listed yet, since all that are listed come later
        rw [listed?_cons]
        by_cases here : path.components = key
        · have unlisted : listed? key ((q, f) :: rest) = none := by
            rw [← here]
            exact listed?_of_less (List.forall_mem_cons.2
              ⟨before, fun file mem => Path.less_trans before (after file mem)⟩)
          rw [if_pos here, if_pos here, unlisted]
          rfl
        · rw [if_neg here, if_neg here]
      · rw [listed?_cons, listed?_cons, ih ordered]
        by_cases here : q.components = key
        · have apart : path.components ≠ key := fun same => other (same.trans here.symm)
          rw [if_pos here, if_pos here, if_neg apart]
        · rw [if_neg here, if_neg here]

/-- A listed file is the one with its components. -/
theorem mem_iff_listed? (h : Ordered files) {file : Path × FileEvents} :
    file ∈ files ↔ listed? file.1.components files = some file := by
  refine ⟨fun mem => ?_, List.mem_of_find?_eq_some⟩
  induction files with
  | nil => cases mem
  | cons first rest ih =>
    obtain ⟨after, ordered⟩ := List.pairwise_cons.1 h
    rw [listed?_cons]
    rcases List.mem_cons.1 mem with rfl | later
    · rw [if_pos rfl]
    · rw [if_neg (Path.components_ne_of_less (after file later)), ih ordered later]

/-- No file is listed twice. -/
theorem Ordered.nodup (h : Ordered files) : (files.map (·.1.components)).Nodup := by
  rw [List.Nodup, List.pairwise_map]
  exact h.imp fun before => Path.components_ne_of_less before

/-- Lists with the same files are the same. -/
theorem Ordered.ext (h : Ordered files) (h' : Ordered files')
    (same : ∀ key, listed? key files = listed? key files') : files = files' := by
  have perm : files.Perm files' := by
    rw [List.perm_ext_iff_of_nodup (List.Nodup.of_map _ h.nodup) (List.Nodup.of_map _ h'.nodup)]
    intro file
    rw [mem_iff_listed? h, mem_iff_listed? h', same]
  refine perm.eq_of_pairwise (fun a b _ _ forth back => ?_) h h'
  exact absurd rfl (Path.components_ne_of_less (Path.less_trans forth back))

end Files

/-! ## Calls -/

/-- A call of a collector. -/
inductive Call where
  | openFile (path : Path)
  | record (path : Path) (event : LogEvent)
  deriving DecidableEq, Repr

namespace Call

/-- The path that a call is given. -/
def path : Call → Path
  | openFile path => path
  | record path _ => path

/-- The components of the file that a call is about. -/
def file (call : Call) : List PathComponent := call.path.components

/-- The event that a call records. -/
def event? : Call → Option LogEvent
  | openFile _ => none
  | record _ e => some e

/-- What a call does to the events of its file. -/
def change : Call → FileEvents → FileEvents
  | openFile _ => id
  | record _ e => (·.record e)

theorem change_ofList (call : Call) (recorded : List LogEvent) :
    call.change (.ofList recorded) = .ofList (recorded ++ call.event?.toList) := by
  cases call with
  | openFile path => simp [change, event?]
  | record path e => simpa [change, event?] using FileEvents.record_ofList recorded e

end Call

/-- The collector after a call. -/
def perform (c : Collector) : Call → Collector
  | .openFile path => c.openFile path
  | .record path e => c.record path e

/-- A new collector after some calls. -/
def run (calls : List Call) : Collector := calls.foldl perform {}

/-- The calls on the file with the given components. -/
def callsOn (file : List PathComponent) (calls : List Call) : List Call :=
  calls.filter (·.file = file)

/-- The events that are recorded for the file with the given components. -/
def recorded (file : List PathComponent) (calls : List Call) : List LogEvent :=
  (callsOn file calls).filterMap Call.event?

/-- The files that calls open or record an event for. -/
def named (calls : List Call) : Finset (List PathComponent) := (calls.map Call.file).toFinset

section Calls

variable {c : Collector} {call : Call} {calls : List Call} {file : List PathComponent}

theorem perform_files : (c.perform call).files = updateIn call.path call.change c.files := by
  cases call <;> rfl

theorem ordered_perform (h : Ordered c.files) : Ordered (c.perform call).files := by
  rw [perform_files]
  exact h.updateIn

/-- A call is one on the file that it is about. -/
theorem listed?_perform (h : Ordered c.files) :
    listed? file (c.perform call).files
      = if call.file = file then some (changed call.path call.change (listed? file c.files))
        else listed? file c.files := by
  rw [perform_files]
  exact listed?_updateIn h

theorem run_append : run (calls ++ [call]) = (run calls).perform call := by
  simp [run]

theorem callsOn_append :
    callsOn file (calls ++ [call])
      = callsOn file calls ++ if call.file = file then [call] else [] := by
  by_cases here : call.file = file <;> simp [callsOn, here]

theorem recorded_append :
    recorded file (calls ++ [call])
      = recorded file calls ++ if call.file = file then call.event?.toList else [] := by
  by_cases here : call.file = file
  · cases event : call.event? <;> simp [recorded, callsOn_append, here, event]
  · simp [recorded, callsOn_append, here]

/-- Nothing is recorded for a file without calls on it. -/
theorem recorded_eq_nil (none : callsOn file calls = []) : recorded file calls = [] := by
  rw [recorded, none, List.filterMap_nil]

theorem mem_named : file ∈ named calls ↔ callsOn file calls ≠ [] := by
  simp [named, callsOn]

/-- A file that an event is recorded for is a named one. -/
theorem mem_named_of_recorded {e : LogEvent} (mem : e ∈ recorded file calls) :
    file ∈ named calls := by
  rw [mem_named]
  intro none
  rw [recorded_eq_nil none] at mem
  cases mem

theorem ordered_run (calls : List Call) : Ordered (run calls).files := by
  induction calls using List.reverseRecOn with
  | nil => exact List.Pairwise.nil
  | append_singleton calls call ih =>
    rw [run_append]
    exact ordered_perform ih

/-- A file is listed under the path that it was first given, with what the calls on it leave. -/
theorem listed?_run (calls : List Call) :
    listed? file (run calls).files
      = (callsOn file calls).head?.map
          fun first => (first.path, .ofList (recorded file calls)) := by
  induction calls using List.reverseRecOn with
  | nil => rfl
  | append_singleton calls call ih =>
    rw [run_append, listed?_perform (ordered_run calls), ih]
    by_cases here : call.file = file
    · have kept (p : Path) (es : List LogEvent) :
          changed call.path call.change (some (p, .ofList es))
            = (p, .ofList (es ++ call.event?.toList)) := by
        rw [changed, Call.change_ofList]
      rw [if_pos here, callsOn_append, recorded_append, if_pos here, if_pos here]
      cases before : callsOn file calls with
      | nil =>
        -- a new file starts without events
        rw [recorded_eq_nil before]
        exact congrArg some (kept call.path [])
      | cons first rest => exact congrArg some (kept first.path _)
    · rw [if_neg here, callsOn_append, recorded_append, if_neg here, if_neg here,
        List.append_nil, List.append_nil]

end Calls

end Collector

end BasicLexis
