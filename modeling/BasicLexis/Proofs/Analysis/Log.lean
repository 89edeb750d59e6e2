import BasicLexis.Log.Memory
import BasicLexis.Proofs.Analysis.Limit
import BasicLexis.Proofs.Classifier.Moves
import BasicLexis.Proofs.Classifier.Representation

set_option autoImplicit false

/-! # What the log says of problems

Every problem that an analysis returns is in the log once, and so is every token that the classifier
could not place, in the order in which they were found. The log is a view of the journal, so this
comes down to two facts on the journal: it has every token that could not be placed exactly once,
although they are entered in batches, and nothing else that is logged looks like a report. -/

namespace BasicLexis

/-! ## Reports among events -/

namespace EventContext

theorem lookup_set_of_ne {key other : String} (apart : key ≠ other) (value : String)
    (context : EventContext) : (set other value context).lookup key = context.lookup key := by
  have skip (context : EventContext) :
      ((other, value) :: context).lookup key = context.lookup key := by
    rw [List.lookup_cons, beq_eq_false_iff_ne.2 apart]
  induction context with
  | nil => exact skip []
  | cons fact rest ih =>
    rw [set]
    split
    · exact skip _
    · split
      · next same =>
        rw [skip, List.lookup_cons, ← same, beq_eq_false_iff_ne.2 apart]
      · rw [List.lookup_cons, List.lookup_cons, ih]

theorem lookup_filter_ne {key other : String} (apart : key ≠ other) (context : EventContext) :
    (context.filter (·.1 ≠ other)).lookup key = context.lookup key := by
  induction context with
  | nil => rfl
  | cons fact rest ih =>
    rw [List.filter_cons, List.lookup_cons]
    split
    · rw [List.lookup_cons, ih]
    · next dropped =>
      have same : fact.1 = other := by simpa using dropped
      rw [same, beq_eq_false_iff_ne.2 apart, ih]

end EventContext

namespace LogEvent

/-- The place in the source that a debugging note gives among its facts. -/
def place? (e : LogEvent) : Option String := e.context.lookup "location"

/-- The event is an error, or a debugging note about a place in the source. -/
def isReport (e : LogEvent) : Bool := e.level == .error || (e.level == .debug && e.place?.isSome)

theorem place?_withContext {key : String} (apart : "location" ≠ key) (value : String)
    (e : LogEvent) : (e.withContext key value).place? = e.place? :=
  EventContext.lookup_set_of_ne apart value e.context

/-- Debugging notes do not look like reports as long as they give no place. -/
theorem isReport_withContext {key : String} (apart : "location" ≠ key) (value : String)
    (e : LogEvent) : (e.withContext key value).isReport = e.isReport := by
  rw [isReport, place?_withContext apart]
  rfl

section Finish

variable (e : LogEvent) (keepDurations : Bool) (file : Option FileContext)

/-- What a log leaves of an event: all but the end of its message and some of its facts. -/
theorem finish_keeps :
    (e.finish keepDurations file).level = e.level ∧ (e.finish keepDurations file).code = e.code
      ∧ (e.finish keepDurations file).location = e.location
      ∧ (e.finish keepDurations file).message.toList
        = e.message.toList.take Limits.maxLogMessageLength
      ∧ (e.finish keepDurations file).place? = e.place? := by
  have place : (if keepDurations then e.context
      else e.context.filter (·.1 ≠ durationKey)).lookup "location" = e.place? := by
    split
    · rfl
    · exact EventContext.lookup_filter_ne (by decide) e.context
  unfold finish
  cases file with
  | none => exact ⟨rfl, rfl, rfl, String.toList_ofList, place⟩
  | some file =>
    refine ⟨rfl, rfl, rfl, String.toList_ofList, ?_⟩
    show ((LogEvent.withContext _ "file" _).withContext "file_id" _).place? = _
    rw [place?_withContext (by decide), place?_withContext (by decide)]
    exact place

theorem isReport_finish : (e.finish keepDurations file).isReport = e.isReport := by
  obtain ⟨level, -, -, -, place⟩ := e.finish_keeps keepDurations file
  rw [isReport, level, place]
  rfl

end Finish

end LogEvent

/-- What a log has to say about a problem of the text or a token that could not be placed. Such a
    token is an error only if it is to be reported as one, and a note otherwise. -/
inductive LogEvent.Reports (reportMisplaced : Bool) (e : LogEvent) :
    Diagnostic ⊕ ClassifierError → Prop where
  | problem {d : Diagnostic} (level : e.level = .error) (code : e.code = d.code)
      (location : e.location = some d.location)
      (message : e.message.toList = d.message.toList.take Limits.maxLogMessageLength) :
    Reports reportMisplaced e (.inl d)
  | misplaced {error : ClassifierError} (reported : reportMisplaced = true)
      (level : e.level = .error) (code : e.code = error.code)
      (location : e.location = some error.location)
      (message : e.message.toList = error.render.toList.take Limits.maxLogMessageLength) :
    Reports reportMisplaced e (.inr error)
  | note {error : ClassifierError} (unreported : reportMisplaced = false) (level : e.level = .debug)
      (place : e.place? = some error.location.render)
      (message : e.message.toList = error.render.toList.take Limits.maxLogMessageLength) :
    Reports reportMisplaced e (.inr error)

/-! ## The reports of a journal -/

namespace Entry

/-- What an entry reports. -/
def report? : Entry → Option (Diagnostic ⊕ ClassifierError)
  | problem d => some (.inl d)
  | misplaced e => some (.inr e)
  | _ => none

/-- The token that could not be placed, in an entry about one. -/
def error? : Entry → Option ClassifierError
  | misplaced e => some e
  | _ => none

/-- An entry for the log only that does not look like a report. -/
def IsQuiet (entry : Entry) : Prop := ∀ e, entry = .event e → e.isReport = false

variable (reportMisplaced keepDurations : Bool) (file : Option FileContext)

/-- What an entry adds to the reports in a log. -/
theorem reports_event {entry : Entry} (quiet : entry.IsQuiet) :
    (∃ event found, entry.event? reportMisplaced = some event ∧ event.isReport = true
        ∧ entry.report? = some found
        ∧ (event.finish keepDurations file).Reports reportMisplaced found)
      ∨ ((entry.event? reportMisplaced).all (·.isReport == false) ∧ entry.report? = none) := by
  cases entry with
  | problem d =>
    refine .inl ⟨_, _, rfl, rfl, rfl, ?_⟩
    obtain ⟨level, code, location, message, -⟩ := LogEvent.finish_keeps
      ((LogEvent.error d.code d.message).withLocation d.location) keepDurations file
    exact .problem level code location message
  | misplaced error =>
    cases reportMisplaced with
    | true =>
      refine .inl ⟨_, _, rfl, rfl, rfl, ?_⟩
      obtain ⟨level, code, location, message, -⟩ := LogEvent.finish_keeps
        ((LogEvent.error error.code error.render).withLocation error.location) keepDurations file
      exact .misplaced rfl level code location message
    | false =>
      refine .inl ⟨_, _, rfl, rfl, rfl, ?_⟩
      obtain ⟨level, -, -, message, place⟩ := LogEvent.finish_keeps
        ((LogEvent.debug error.render).withContext "location" error.location.render) keepDurations
        file
      exact .note rfl level place message
  | event e =>
    refine .inr ⟨?_, rfl⟩
    simpa [event?] using quiet e rfl
  | trivia | tagged => exact .inr ⟨rfl, rfl⟩

/-- The reports in a log are those of the entries, in order. -/
theorem forall₂_reports (entries : List Entry) (quiet : ∀ entry ∈ entries, entry.IsQuiet) :
    List.Forall₂ (LogEvent.Reports reportMisplaced)
      (((entries.filterMap (event? reportMisplaced)).map
        (·.finish keepDurations file)).filter LogEvent.isReport)
      (entries.filterMap report?) := by
  induction entries with
  | nil => exact .nil
  | cons entry entries ih =>
    obtain ⟨quietHere, quietLater⟩ := List.forall_mem_cons.1 quiet
    have later := ih quietLater
    rcases reports_event reportMisplaced keepDurations file quietHere
      with ⟨event, found, logged, isReport, report, reports⟩ | ⟨silent, noReport⟩
    · rw [List.filterMap_cons_some logged, List.filterMap_cons_some report, List.map_cons,
        List.filter_cons_of_pos (by rw [LogEvent.isReport_finish, isReport])]
      exact .cons reports later
    · rw [List.filterMap_cons_none noReport]
      cases logged : entry.event? reportMisplaced with
      | none => rwa [List.filterMap_cons_none logged]
      | some event =>
        rw [logged] at silent
        have quietEvent : event.isReport = false := by simpa using silent
        rwa [List.filterMap_cons_some logged, List.map_cons, List.filter_cons_of_neg]
        rw [LogEvent.isReport_finish, quietEvent]
        exact Bool.false_ne_true

end Entry

/-! ## Entries that are no reports -/

theorem Classifier.events_settle_subset (fuel : Nat) (c : Classifier) :
    ∀ e ∈ (settle fuel c).events, e = stepLimitEvent := by
  induction fuel generalizing c with
  | zero => exact fun e he => List.mem_singleton.1 he
  | succ fuel ih =>
    rw [settle]
    split
    · exact ih _
    · split
      · exact List.forall_mem_nil _
      · split
        · exact ih _
        · exact List.forall_mem_nil _

/-- All that the classifier has to log is that it stopped. -/
theorem Classifier.eq_of_says {event : LogEvent} (h : Steering.Says Classifier event) :
    event = stepLimitEvent := by
  obtain ⟨c, call, told⟩ := h
  cases call with
  | none => exact events_settle_subset _ c event told
  | some t =>
    have told : event ∈ (offerToken Limits.maxEpsilonSteps { c with lastLocation := t.start } t).events :=
      told
    rcases events_offerToken t Limits.maxEpsilonSteps { c with lastLocation := t.start }
      with ⟨-, none_⟩ | ⟨-, limit⟩
    · rw [none_] at told
      cases told
    · rw [limit] at told
      exact List.mem_singleton.1 told

namespace Entry

theorem filterMap_error?_events (events : List LogEvent) :
    (events.map Entry.event).filterMap error? = [] := by
  simp [List.filterMap_map, Function.comp_def, error?]

theorem filterMap_error?_misplaced (errors : List ClassifierError) :
    (errors.map Entry.misplaced).filterMap error? = errors := by
  simp [List.filterMap_map, Function.comp_def, error?]

theorem isQuiet_of_isReport {event : LogEvent} (h : event.isReport = false) :
    (Entry.event event).IsQuiet := by
  intro e same
  cases same
  exact h

theorem ArisesFrom.isQuiet {e : Entry} {r : Reader} (h : e.ArisesFrom r) : e.IsQuiet := by
  intro event same
  cases h with
  | nesting depth note =>
    rw [same] at note
    cases note
    exact LogEvent.isReport_withContext (by decide) _ _
  | problem | blankLine | comment | directive | tagged => cases same

theorem Explained.isQuiet {e : Entry} {first : Reader} (h : e.Explained Classifier first) :
    e.IsQuiet := by
  cases h with
  | piece arises => exact arises.isQuiet
  | misplaced entry =>
    rw [entry]
    exact nofun
  | said told entry =>
    rw [entry, Classifier.eq_of_says told]
    exact isQuiet_of_isReport (LogEvent.isReport_withContext (by decide) _ _)

end Entry

namespace Scanner

/-! ## Tokens that could not be placed -/

/-- The journal has all tokens that could not be placed so far, in order. -/
structure Mirrors (s : Scanner Classifier) : Prop where
  seen : s.errorsSeen = s.steering.errors.size
  noted : s.journal.toList.filterMap Entry.error? = s.steering.errors.toList

theorem Mirrors.reads {s s' : Scanner Classifier} (h : s.Mirrors) (reads : Reads s s') :
    s'.Mirrors := by
  obtain ⟨new, journal, arises⟩ := reads.journal
  have none_ : new.filterMap Entry.error? = [] := by
    refine List.filterMap_eq_nil_iff.2 fun e he => ?_
    cases arises e he <;> rfl
  refine ⟨?_, ?_⟩
  · rw [reads.errorsSeen, reads.steering, h.seen]
  · rw [journal, List.filterMap_append, none_, List.append_nil, h.noted, reads.steering]

/-- The tokens that are entered are those that came after the ones that the journal has. -/
theorem Mirrors.tell {s : Scanner Classifier} (h : s.Mirrors) (t : Token) : (s.tell t).Mirrors := by
  have grows := (Classifier.Grows.inform s.steering (some t)).trans
    (Classifier.Grows.inform (s.steering.inform (some t)).state none)
  obtain ⟨new, errors⟩ := grows.added
  have errors : (s.tell t).steering.errors = s.steering.errors ++ new := errors
  refine ⟨rfl, ?_⟩
  have later : (Steering.errors (s.tell t).steering).toList.drop s.errorsSeen = new.toList := by
    show (s.tell t).steering.errors.toList.drop s.errorsSeen = new.toList
    rw [errors, h.seen, Array.toList_append, ← Array.length_toList, List.drop_left]
  rw [toList_tell, later, List.filterMap_append, List.filterMap_append,
    Entry.filterMap_error?_events, Entry.filterMap_error?_misplaced, h.noted, errors,
    Array.toList_append, List.append_nil]

theorem Mirrors.produce {s : Scanner Classifier} (h : s.Mirrors) : s.produce.2.Mirrors := by
  unfold Scanner.produce
  split
  · exact h
  · exact (h.reads s.reads_advance).tell _

theorem mirrors_after (tags : List String) (source : List Char) (n : Nat) :
    ((Scanner.start ({} : Classifier) tags source).after n).Mirrors := by
  induction n with
  | zero =>
    have fresh : (Classifier.inform {} none).state.errors = #[] := by decide +kernel
    have start : (Scanner.start ({} : Classifier) tags source).steering.errors = #[] := fresh
    have noted := Entry.filterMap_error?_events (Classifier.inform {} none).events
    refine ⟨?_, ?_⟩
    · rw [Scanner.after, start]
      rfl
    · rw [Scanner.after, start]
      exact noted
  | succ n ih => exact ih.produce

end Scanner

/-! ## The log of an analysis -/

/-- A log that takes everything has all that it was told. -/
theorem MemoryLog.logged_foldl (change : LogEvent → LogEvent) (events : List LogEvent)
    {log : MemoryLog} (level : log.level = .debug) :
    (events.foldl (fun (log : MemoryLog) e => log.log (change e)) log).logged.toList
      = log.logged.toList ++ events.map change := by
  induction events generalizing log with
  | nil => simp
  | cons e events ih =>
    have takes : log.log (change e) = { log with logged := log.logged.push (change e) } := by
      have passes : log.takes (change e).level = true := by
        rw [MemoryLog.takes, level]
        cases (change e).level <;> rfl
      rw [MemoryLog.log, if_pos passes]
    have level' : ({ log with logged := log.logged.push (change e) } : MemoryLog).level = .debug :=
      level
    rw [List.foldl_cons, takes, ih level']
    simp

namespace Analysis

theorem isReport_startEvent (source : List Char) : (startEvent source).isReport = false := by
  show ((LogEvent.withContext _ "char_count" _).withContext "max_tokens_allowed" _).isReport = _
  rw [LogEvent.isReport_withContext (by decide), LogEvent.isReport_withContext (by decide)]
  rfl

theorem isReport_resultEvents (tokenCount : Nat) (metrics : Metrics) :
    ∀ e ∈ resultEvents tokenCount metrics, e.isReport = false := by
  intro e he
  have info : e.level = .info := by
    simp only [resultEvents, List.mem_append, List.mem_singleton] at he
    rcases he with (rfl | passed) | rfl
    · rfl
    · split at passed
      · rw [List.mem_singleton.1 passed]
        rfl
      · cases passed
    · rfl
  rw [LogEvent.isReport, info]
  rfl

/-- The notes around an analysis are no reports. -/
theorem filter_notes (keepDurations : Bool) (file : Option FileContext) (source : List Char)
    (events : List LogEvent) (tokenCount : Nat) (metrics : Metrics) :
    ((startEvent source :: (events ++ resultEvents tokenCount metrics)).map
        (·.finish keepDurations file)).filter LogEvent.isReport
      = (events.map (·.finish keepDurations file)).filter LogEvent.isReport := by
  have noResult : ((resultEvents tokenCount metrics).map
      (·.finish keepDurations file)).filter LogEvent.isReport = [] := by
    refine List.filter_eq_nil_iff.2 fun e he => ?_
    obtain ⟨result, mem, rfl⟩ := List.mem_map.1 he
    rw [LogEvent.isReport_finish, isReport_resultEvents tokenCount metrics result mem]
    exact Bool.false_ne_true
  rw [List.map_cons, List.filter_cons_of_neg, List.map_append, List.filter_append, noResult,
    List.append_nil]
  rw [LogEvent.isReport_finish, isReport_startEvent]
  exact Bool.false_ne_true

/-- What is in the journal when an analysis is done: nothing for the log only looks like a report, and
    all tokens that could not be placed are there. -/
theorem Taken.reports {limit : Nat} {tags : List String} {source : List Char}
    {all tokens : List Token} {s : Scanner Classifier}
    (h : Taken limit (Scanner.start ({} : Classifier) tags source) all tokens s) :
    (∀ entry ∈ s.journal.toList, entry.IsQuiet)
      ∧ s.journal.toList.filterMap Entry.error? = s.steering.errors.toList := by
  have quiet (n : Nat) : ∀ entry ∈ ((Scanner.start ({} : Classifier) tags source).after n).journal.toList,
      entry.IsQuiet := fun entry mem =>
    ((Scanner.accounts_after {} tags source n).entries entry mem).isQuiet
  have noted (n : Nat) := (Scanner.mirrors_after tags source n).noted
  cases h with
  | @whole n fits => exact ⟨quiet n, noted n⟩
  | @cut n front location exceeds front_ ends =>
    dsimp only
    rw [Array.appendList_eq_append, Array.toList_appendList, List.filterMap_append, noted]
    refine ⟨List.forall_mem_append.2 ⟨quiet n, ?_⟩, List.append_nil _⟩
    exact List.forall_mem_cons.2
      ⟨nofun, List.forall_mem_singleton.2 (Entry.isQuiet_of_isReport rfl)⟩

/-- **Every problem is logged exactly once, in order.** Let a log take everything that an analysis
    has to log. Then there is a list of reports, of which the problems are those that the analysis
    returns and the tokens that could not be placed are those that it returns, both in order, and the
    log has, in the order of the list, one event for each report, and no other errors and no other
    debugging notes about places in the source. -/
theorem problems_logged (preferences : LexerPreferences) (source : List Char)
    (keepDurations : Bool) (file : Option FileContext) :
    let a := ofSource preferences source
    let log := a.events.toList.foldl
      (fun (log : MemoryLog) e => log.log (e.finish keepDurations file)) { level := .debug }
    ∃ found : List (Diagnostic ⊕ ClassifierError),
      found.filterMap Sum.getLeft? = a.diagnostics.toList
        ∧ found.filterMap Sum.getRight? = a.misplaced.toList
        ∧ List.Forall₂ (LogEvent.Reports preferences.reportMisplaced)
          (log.logged.toList.filter LogEvent.isReport) found := by
  intro a log
  obtain ⟨tokens, s, counted, metrics, takes, -, -, same⟩ := exists_taken preferences source
  obtain ⟨quiet, noted⟩ := takes.reports
  obtain ⟨diagnostics, misplaced, events⟩ : a.diagnostics = s.journal.diagnostics
      ∧ a.misplaced = s.steering.errors
      ∧ a.events = #[startEvent source] ++ s.journal.events preferences.reportMisplaced
        ++ (resultEvents tokens.size metrics).toArray := by
    have same : a = _ := same
    rw [same]
    exact ⟨rfl, rfl, rfl⟩
  refine ⟨s.journal.toList.filterMap Entry.report?, ?_, ?_, ?_⟩
  · rw [diagnostics, Journal.diagnostics, Array.toList_filterMap, List.filterMap_filterMap]
    exact List.filterMap_congr fun e _ => by cases e <;> rfl
  · rw [misplaced, ← noted, List.filterMap_filterMap]
    exact List.filterMap_congr fun e _ => by cases e <;> rfl
  · have listed : a.events.toList = startEvent source
        :: (s.journal.toList.filterMap (Entry.event? preferences.reportMisplaced)
          ++ resultEvents tokens.size metrics) := by
      rw [events]
      simp [Journal.events]
    rw [MemoryLog.logged_foldl _ _ rfl, listed]
    show List.Forall₂ _ (List.filter _ (List.map _ _)) _
    rw [filter_notes]
    exact Entry.forall₂_reports preferences.reportMisplaced keepDurations file _ quiet

end Analysis

end BasicLexis
