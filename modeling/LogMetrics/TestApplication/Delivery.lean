import LogMetrics.Logger.FileContents
import LogMetrics.TestApplication.TestApplication

/-!
# What the user enters is what the sink is given

The entries of a run of `TestApplication` are always in four places, in this
order: those the worker is through with, the one in its hand, the queue, and
those the main thread has still to push (`unread`). `Delivery` says that
together they are the entries of the input, and that the sink was given the
records of the first, up to the one at which it ceased to be valid (`Sent`).
It needs to know when a push can be refused: the queue is stopped only behind
the store to `is_running_`, and from there on the main thread reads no line
(`MainOk`).

The worker ends when it finds the queue stopped and empty, so then all
entries are in the first place (`run_sent`), whatever the sink is. A file that
was given records has their lines (`delivered`).
-/

set_option linter.dupNamespace false

namespace LogMetrics.TestApplication

open LogMetrics.Base
open LogMetrics.Logger (LogLevel ILogSink FileSink FileWrite formatMessage
  formatMessage_newline_free serve serve_append serve_file)

/-! ## What is expected -/

/-- The line ends the input. -/
def isExit (line : Bytes) : Bool :=
  match parseCommand line with
  | some command => command.type == .exit
  | none => false

/-- The entry a line stands for, if it is a message. -/
def entryOf (defaultLevel : LogLevel) (line : Bytes) : Option LogEntry :=
  match parseCommand line with
  | some command =>
    if command.type = .logMessage then some ⟨command.message, command.level.getD defaultLevel⟩
    else none
  | none => none

/-- The entries of the lines before the first that ends the input. -/
def entries (defaultLevel : LogLevel) (lines : List Bytes) : List LogEntry :=
  (lines.takeWhile fun line => !isExit line).filterMap (entryOf defaultLevel)

/-- The entries that are not below the level. -/
def logged (defaultLevel : LogLevel) (es : List LogEntry) : List LogEntry :=
  es.filter fun e => !Logger.Logger.isBelow e.level defaultLevel

/-- The records of entries, the `k`-th with its timestamp. -/
def records (timestamps : Nat → Bytes) (es : List LogEntry) : List Bytes :=
  es.mapIdx fun k e => formatMessage (timestamps k) e.message e.level

theorem logged_snoc (d : LogLevel) (es : List LogEntry) (e : LogEntry) :
    logged d (es ++ [e])
      = logged d es ++ if Logger.Logger.isBelow e.level d then [] else [e] := by
  rw [logged, List.filter_append]
  cases h : Logger.Logger.isBelow e.level d with
  | true => simp [logged, h]
  | false => simp [logged, h]

theorem records_snoc (timestamps : Nat → Bytes) (es : List LogEntry) (e : LogEntry) :
    records timestamps (es ++ [e])
      = records timestamps es ++ [formatMessage (timestamps es.length) e.message e.level] :=
  List.mapIdx_concat

/-- The records of entries are lines when the messages and the timestamps
are. -/
theorem records_newline_free {timestamps : Nat → Bytes}
    (hts : ∀ k, '\n'.toUInt8 ∉ timestamps k) {es : List LogEntry}
    (hes : ∀ e ∈ es, '\n'.toUInt8 ∉ e.message) :
    ∀ r ∈ records timestamps es, '\n'.toUInt8 ∉ r := by
  intro r hr
  obtain ⟨k, hk, rfl⟩ := List.mem_mapIdx.mp hr
  exact formatMessage_newline_free _ (hts k) (hes _ (List.getElem_mem hk))

/-- The records of more entries go on behind those of the first. -/
theorem records_front (timestamps : Nat → Bytes) (d : LogLevel) (es es' : List LogEntry) :
    records timestamps (logged d es) <+: records timestamps (logged d (es ++ es')) := by
  rw [logged, logged, List.filter_append, records, records, List.mapIdx_append]
  exact List.prefix_append _ _

/-- An entry's message holds nothing that its line does not. -/
theorem entries_free {d : LogLevel} {lines : List Bytes} {c : Byte}
    (hlines : ∀ line ∈ lines, c ∉ line) : ∀ e ∈ entries d lines, c ∉ e.message := by
  intro e he
  obtain ⟨line, hline, hentry⟩ := List.mem_filterMap.mp he
  have hmem : line ∈ lines := List.takeWhile_subset _ hline
  unfold entryOf at hentry
  split at hentry
  next command hparse =>
    split at hentry
    · cases hentry
      exact fun h => hlines line hmem (parseCommand_subset hparse h)
    · exact absurd hentry (by simp)
  next => exact absurd hentry (by simp)

/-- The records of what is entered are lines. -/
theorem entered_newline_free {timestamps : Nat → Bytes} {d : LogLevel} {lines : List Bytes}
    (hts : ∀ k, '\n'.toUInt8 ∉ timestamps k) (hlines : ∀ line ∈ lines, '\n'.toUInt8 ∉ line) :
    ∀ r ∈ records timestamps (logged d (entries d lines)), '\n'.toUInt8 ∉ r :=
  records_newline_free hts fun e he => entries_free hlines e (List.mem_filter.mp he).1

/-! ## The invariant -/

variable {σ : Type}

/-- The entry in the worker's hand. -/
def WorkerPc.held : WorkerPc → List LogEntry
  | .isValid entry _ => [entry]
  | .log entry _ => [entry]
  | _ => []

/-- The entries the main thread has still to push. -/
def unread (s : TestApplication σ) : List LogEntry :=
  match s.main with
  | .storeRunning => entries s.defaultLevel s.input
  | .spawn => entries s.defaultLevel s.input
  | .loop => if s.isRunning then entries s.defaultLevel s.input else []
  | .getline => entries s.defaultLevel s.input
  | .push entry => entry :: entries s.defaultLevel s.input
  | .prompt => if s.isRunning then entries s.defaultLevel s.input else []
  | _ => []

/-- What the main thread's place says about the two flags and the worker. -/
def MainOk (s : TestApplication σ) : Prop :=
  match s.main with
  | .storeRunning => s.logQueue.isRunning = true ∧ s.worker = .notStarted
  | .spawn => s.isRunning = true ∧ s.logQueue.isRunning = true ∧ s.worker = .notStarted
  | .loop => s.isRunning = s.logQueue.isRunning
  | .getline => s.isRunning = true ∧ s.logQueue.isRunning = true
  | .push _ => s.isRunning = true ∧ s.logQueue.isRunning = true
  | .prompt => s.isRunning = s.logQueue.isRunning
  | .stopLoad _ => s.isRunning = s.logQueue.isRunning
  | .stopStore _ => s.isRunning = true ∧ s.logQueue.isRunning = true
  | .stopQueue _ => s.isRunning = false
  | .join _ => s.isRunning = false ∧ s.logQueue.isRunning = false
  | .ended => True

variable [ILogSink σ]

/-- The one sink was given the records of the first of the entries that the
worker is through with: of all of them while it is valid. -/
structure Sent (timestamps : Nat → Bytes) (d : LogLevel) (sink₀ : σ) (done : List LogEntry)
    (logger : Logger.Logger σ) (formatted : Nat) (sink : σ) (given : List Bytes) : Prop where
  logger_eq : logger = { sinks := [sink], defaultLevel := d }
  served : sink = serve given sink₀
  front : given <+: records timestamps (logged d done)
  whole : ILogSink.isValid sink = true → given = records timestamps (logged d done)
    ∧ formatted = (logged d done).length

structure Delivery (timestamps : Nat → Bytes) (d : LogLevel) (sink₀ : σ) (lines : List Bytes)
    (done : List LogEntry) (s : TestApplication σ) : Prop where
  level : s.defaultLevel = d
  sent : ∃ sink given, Sent timestamps d sink₀ done s.logger s.formatted sink given
  all : done ++ (s.worker.held ++ (s.logQueue.queue ++ unread s)) = entries d lines
  main : MainOk s
  finished : s.worker = .done → s.logQueue.isRunning = false ∧ s.logQueue.queue = []

omit [ILogSink σ] in
/-- Behind the stop of the queue nothing is left to read. -/
theorem unread_of_stopped {s : TestApplication σ} (h : MainOk s)
    (hstopped : s.logQueue.isRunning = false) : unread s = [] := by
  unfold MainOk at h
  unfold unread
  cases hpc : s.main with
  | storeRunning => simp [hpc, hstopped] at h
  | spawn => simp [hpc, hstopped] at h
  | loop => simp [hpc, hstopped] at h; simp [h]
  | getline => simp [hpc, hstopped] at h
  | push entry => simp [hpc, hstopped] at h
  | prompt => simp [hpc, hstopped] at h; simp [h]
  | stopLoad final => rfl
  | stopStore final => rfl
  | stopQueue final => rfl
  | join final => rfl
  | ended => rfl

/-- Reading a line moves its entry, if it has one, to the front of what is
left. -/
theorem entries_cons (d : LogLevel) (line : Bytes) (lines : List Bytes) :
    entries d (line :: lines)
      = if isExit line then [] else (entryOf d line).toList ++ entries d lines := by
  cases hexit : isExit line with
  | true => simp [entries, hexit]
  | false =>
    cases hentry : entryOf d line with
    | none => simp [entries, hexit, hentry]
    | some e => simp [entries, hexit, hentry]

variable {timestamps : Nat → Bytes} {d : LogLevel} {sink₀ : σ} {lines : List Bytes}
  {done : List LogEntry}

section Sent

variable {logger : Logger.Logger σ} {formatted : Nat} {sink : σ} {given : List Bytes}

theorem Sent.isValid_eq (h : Sent timestamps d sink₀ done logger formatted sink given) :
    logger.isValid = ILogSink.isValid sink :=
  Logger.Logger.isValid_one (by rw [h.logger_eq])

/-- An entry the worker gets through with when the sink is not valid. -/
theorem Sent.lost (h : Sent timestamps d sink₀ done logger formatted sink given)
    (hinvalid : ILogSink.isValid sink = false) (entry : LogEntry) (formatted' : Nat) :
    Sent timestamps d sink₀ (done ++ [entry]) logger formatted' sink given where
  logger_eq := h.logger_eq
  served := h.served
  front := h.front.trans (records_front timestamps d done [entry])
  whole hvalid := absurd (hinvalid.symm.trans hvalid) (by simp)

/-- An entry that is logged. -/
theorem Sent.log (h : Sent timestamps d sink₀ done logger formatted sink given)
    (entry : LogEntry) :
    ∃ sink' given', Sent timestamps d sink₀ (done ++ [entry])
      (logger.log (timestamps formatted) entry.message entry.level)
      (if Logger.Logger.isBelow entry.level logger.defaultLevel || !logger.isValid
        then formatted else formatted + 1) sink' given' := by
  unfold Logger.Logger.log
  rw [h.isValid_eq, show logger.defaultLevel = d by rw [h.logger_eq]]
  cases hbelow : Logger.Logger.isBelow entry.level d with
  | true =>
    -- nothing is written, and nothing is owed
    have hsame : logged d (done ++ [entry]) = logged d done := by
      rw [logged_snoc, if_pos hbelow, List.append_nil]
    exact ⟨sink, given, h.logger_eq, h.served, hsame ▸ h.front, hsame ▸ h.whole⟩
  | false =>
    cases hvalid : ILogSink.isValid sink with
    | false => exact ⟨sink, given, h.lost hvalid entry _⟩
    | true =>
      obtain ⟨hgiven, hcount⟩ := h.whole hvalid
      have hlogged : logged d (done ++ [entry]) = logged d done ++ [entry] := by
        rw [logged_snoc, if_neg (by simp [hbelow])]
      have hrecords : records timestamps (logged d (done ++ [entry]))
          = given ++ [formatMessage (timestamps formatted) entry.message entry.level] := by
        rw [hlogged, records_snoc, ← hgiven, hcount]
      refine ⟨ILogSink.write (formatMessage (timestamps formatted) entry.message entry.level) sink,
        _, ?_, ?_, ?_, fun _ => ⟨hrecords.symm, ?_⟩⟩
      · rw [h.logger_eq]
        rfl
      · rw [serve_append, ← h.served]
        rfl
      · exact ⟨[], by rw [List.append_nil, hrecords]⟩
      · rw [hlogged, List.length_append, ← hcount]
        rfl

end Sent

variable {s s' : TestApplication σ}

/-- A line that is no command is read and answered. -/
theorem Delivery.readUnparsed (h : Delivery timestamps d sink₀ lines done s) {line : Bytes}
    {input : List Bytes} (hpc : s.main = .getline) (hinput : s.input = line :: input)
    (hparse : parseCommand line = none) :
    Delivery timestamps d sink₀ lines done { s with input, main := .prompt } := by
  obtain ⟨hlevel, hsent, hall, hmain, hfinished⟩ := h
  unfold MainOk at hmain
  rw [hpc] at hmain
  obtain ⟨hrun, hqueue⟩ := hmain
  refine ⟨hlevel, hsent, ?_, hrun.trans hqueue.symm, hfinished⟩
  rw [← hall]
  simp [unread, hpc, hinput, entries_cons, isExit, entryOf, hparse, hrun]

/-- A command's entry goes from the input to the main thread's hand; behind
the end of the input nothing is read. -/
theorem Delivery.readCommand (h : Delivery timestamps d sink₀ lines done s) {line : Bytes}
    {input : List Bytes} {command : ParsedCommand} (hpc : s.main = .getline)
    (hinput : s.input = line :: input) (hparse : parseCommand line = some command) :
    Delivery timestamps d sink₀ lines done
      { s with input, main := TestApplication.processCommand s.defaultLevel command } := by
  obtain ⟨hlevel, hsent, hall, hmain, hfinished⟩ := h
  unfold MainOk at hmain
  rw [hpc] at hmain
  obtain ⟨hrun, hqueue⟩ := hmain
  unfold unread at hall
  rw [hpc, hinput] at hall
  dsimp only at hall
  simp only [entries_cons, isExit, entryOf, hparse] at hall
  unfold TestApplication.processCommand
  cases htype : command.type with
  | logMessage =>
    refine ⟨hlevel, hsent, ?_, ⟨hrun, hqueue⟩, hfinished⟩
    simpa [htype, unread] using hall
  | help =>
    refine ⟨hlevel, hsent, ?_, hrun.trans hqueue.symm, hfinished⟩
    simpa [htype, unread, hrun] using hall
  | exit =>
    refine ⟨hlevel, hsent, ?_, hrun.trans hqueue.symm, hfinished⟩
    simpa [htype, unread] using hall

/-- A step of the main thread. -/
theorem stepMain_delivery (h : Delivery timestamps d sink₀ lines done s) {notified : Option Unit}
    (hstep : s.stepMain notified = some s') : Delivery timestamps d sink₀ lines done s' := by
  obtain ⟨hlevel, hsent, hall, hmain, hfinished⟩ := h
  unfold TestApplication.stepMain at hstep
  unfold unread at hall
  unfold MainOk at hmain
  split at hstep
  next hpc =>
    -- `is_running_.store(true)`
    cases hstep
    rw [hpc] at hall hmain
    exact ⟨hlevel, hsent, hall, ⟨rfl, hmain.1, hmain.2⟩, hfinished⟩
  next hpc =>
    -- the worker is started, with nothing in its hand
    cases hstep
    rw [hpc] at hall hmain
    obtain ⟨hrun, hqueue, hworker⟩ := hmain
    refine ⟨hlevel, hsent, ?_, hrun.trans hqueue.symm, fun hd => absurd hd (by simp)⟩
    rw [hworker] at hall
    simp only [unread, hrun, if_true]
    exact hall
  next hpc =>
    -- the test of the reading loop
    rw [hpc] at hall hmain
    split at hstep
    next hrun =>
      cases hstep
      refine ⟨hlevel, hsent, ?_, ⟨hrun, hmain.symm.trans hrun⟩, hfinished⟩
      simp only [hrun, if_true] at hall
      exact hall
    next hrun =>
      cases hstep
      refine ⟨hlevel, hsent, ?_, hmain, hfinished⟩
      simp only [hrun] at hall
      exact hall
  next hpc =>
    rw [hpc] at hall hmain
    obtain ⟨hrun, hqueue⟩ := hmain
    split at hstep
    next hinput =>
      -- the end of the input: on to the destructor
      cases hstep
      rw [hinput] at hall
      exact ⟨hlevel, hsent, hall, hrun.trans hqueue.symm, hfinished⟩
    next line input hinput =>
      have h : Delivery timestamps d sink₀ lines done { s with main := .getline } :=
        ⟨hlevel, hsent, hall, ⟨hrun, hqueue⟩, hfinished⟩
      split at hstep
      next hparse =>
        cases hstep
        exact h.readUnparsed rfl hinput hparse
      next command hparse =>
        cases hstep
        exact h.readCommand rfl hinput hparse
  next entry hpc =>
    rw [hpc] at hall hmain
    obtain ⟨hrun, hqueue⟩ := hmain
    split at hstep
    next => exact absurd hstep (by simp)
    next logQueue hpush =>
      -- a push is never refused here: the queue still runs
      cases hstep
      obtain ⟨hitems, hqueue'⟩ := ThreadSafeQueue.push_spec hpush hqueue
      refine ⟨hlevel, hsent, ?_, hrun.trans hqueue'.symm, fun hdone => ?_⟩
      · simp only [unread, hrun, if_true, hitems]
        simpa using hall
      · rw [hqueue] at hfinished
        exact absurd (hfinished hdone).1 (by simp)
  next hpc =>
    cases hstep
    rw [hpc] at hall hmain
    exact ⟨hlevel, hsent, hall, hmain, hfinished⟩
  next final hpc =>
    rw [hpc] at hall hmain
    split at hstep
    next hrun =>
      cases hstep
      exact ⟨hlevel, hsent, hall, ⟨hrun, hmain.symm.trans hrun⟩, hfinished⟩
    next hrun =>
      cases hstep
      cases final with
      | true => exact ⟨hlevel, hsent, hall, trivial, hfinished⟩
      | false =>
        refine ⟨hlevel, hsent, ?_, hmain, hfinished⟩
        simp only [unread, TestApplication.afterStop, hrun]
        exact hall
  next final hpc =>
    -- `is_running_.store(false)`: nothing is read from here on
    cases hstep
    rw [hpc] at hall
    exact ⟨hlevel, hsent, hall, rfl, hfinished⟩
  next final hpc =>
    cases hstep
    rw [hpc] at hall hmain
    exact ⟨hlevel, hsent, hall, ⟨hmain, rfl⟩, fun hdone => ⟨rfl, (hfinished hdone).2⟩⟩
  next final hpc =>
    rw [hpc] at hall hmain
    obtain ⟨hrun, hqueue⟩ := hmain
    split at hstep
    next hworker =>
      -- the join returns once the worker is done
      cases hstep
      cases final with
      | true => exact ⟨hlevel, hsent, hall, trivial, hfinished⟩
      | false =>
        refine ⟨hlevel, hsent, ?_, hrun.trans hqueue.symm, hfinished⟩
        simp only [unread, TestApplication.afterStop, hrun, Bool.false_eq_true, if_false]
        exact hall
    next => exact absurd hstep (by simp)
  next => exact absurd hstep (by simp)

omit [ILogSink σ] in
/-- A step of the worker leaves the main thread where it is. -/
theorem MainOk.worker (h : MainOk s) (hstarted : s.worker ≠ .notStarted)
    (hmain : s'.main = s.main) (hrun : s'.isRunning = s.isRunning)
    (hqueue : s'.logQueue.isRunning = s.logQueue.isRunning) : MainOk s' := by
  unfold MainOk at h ⊢
  rw [hmain, hrun, hqueue]
  cases hpc : s.main with
  | storeRunning =>
    rw [hpc] at h
    exact absurd h.2 hstarted
  | spawn =>
    rw [hpc] at h
    exact absurd h.2.2 hstarted
  | _ =>
    rw [hpc] at h
    exact h

/-- Behind an entry the worker holds none and goes on. -/
theorem afterEntry_spec (drain : Bool) :
    (TestApplication.afterEntry drain).held = [] ∧ TestApplication.afterEntry drain ≠ .done := by
  cases drain with
  | true => exact ⟨rfl, by simp [TestApplication.afterEntry]⟩
  | false => exact ⟨rfl, by simp [TestApplication.afterEntry]⟩

/-- Nothing in the queue: the worker sleeps where it is. -/
theorem Delivery.popSleeps (h : Delivery timestamps d sink₀ lines done s) {drain : Bool}
    {logQueue : ThreadSafeQueue LogEntry Unit} (hpc : s.worker = .pop drain)
    (hresult : s.logQueue.pop () = (.sleeps, logQueue)) :
    Delivery timestamps d sink₀ lines done { s with logQueue } := by
  obtain ⟨hlevel, hsent, hall, hmain, hfinished⟩ := h
  obtain ⟨hrunning, hpop⟩ := ThreadSafeQueue.pop_spec () s.logQueue
  rw [hresult] at hrunning hpop
  refine ⟨hlevel, hsent, ?_, hmain.worker (by simp [hpc]) rfl rfl hrunning,
    fun hdone => absurd (hpc.symm.trans hdone) (by simp)⟩
  rw [hpop.1] at hall
  show done ++ (s.worker.held ++ (logQueue.queue ++ _)) = _
  rw [hpop.2]
  exact hall

/-- The front of the queue moves to the worker's hand. -/
theorem Delivery.popItem (h : Delivery timestamps d sink₀ lines done s) {drain : Bool}
    {entry : LogEntry} {logQueue : ThreadSafeQueue LogEntry Unit} (hpc : s.worker = .pop drain)
    (hresult : s.logQueue.pop () = (.item entry, logQueue)) :
    Delivery timestamps d sink₀ lines done { s with logQueue, worker := .isValid entry drain } := by
  obtain ⟨hlevel, hsent, hall, hmain, hfinished⟩ := h
  obtain ⟨hrunning, hpop⟩ := ThreadSafeQueue.pop_spec () s.logQueue
  rw [hresult] at hrunning hpop
  dsimp only at hpop
  rw [hpc, hpop] at hall
  exact ⟨hlevel, hsent, hall, hmain.worker (by simp [hpc]) rfl rfl hrunning,
    fun hdone => absurd hdone (by simp)⟩

/-- Stopped and empty: the second loop ends, the first tests its flag. -/
theorem Delivery.popStopped (h : Delivery timestamps d sink₀ lines done s) {drain : Bool}
    {logQueue : ThreadSafeQueue LogEntry Unit} (hpc : s.worker = .pop drain)
    (hresult : s.logQueue.pop () = (.stopped, logQueue)) :
    Delivery timestamps d sink₀ lines done
      { s with logQueue, worker := if drain then .done else .load } := by
  obtain ⟨hlevel, hsent, hall, hmain, hfinished⟩ := h
  obtain ⟨hrunning, hpop⟩ := ThreadSafeQueue.pop_spec () s.logQueue
  rw [hresult] at hrunning hpop
  obtain ⟨hempty, hempty', hstopped⟩ := hpop
  refine ⟨hlevel, hsent, ?_, hmain.worker (by simp [hpc]) rfl rfl hrunning,
    fun _ => ⟨hrunning.trans hstopped, hempty'⟩⟩
  rw [hpc, hempty] at hall
  show done ++ ((if drain then WorkerPc.done else .load).held ++ (logQueue.queue ++ _)) = _
  rw [hempty']
  cases drain with
  | true => exact hall
  | false => exact hall

/-- The worker moves on, with what it holds. -/
theorem Delivery.moveWorker (h : Delivery timestamps d sink₀ lines done s)
    (hstarted : s.worker ≠ .notStarted) {pc : WorkerPc} (hheld : pc.held = s.worker.held)
    (hpc : pc ≠ .done) : Delivery timestamps d sink₀ lines done { s with worker := pc } := by
  obtain ⟨hlevel, hsent, hall, hmain, -⟩ := h
  rw [← hheld] at hall
  exact ⟨hlevel, hsent, hall, hmain.worker hstarted rfl rfl rfl, fun hdone => absurd hdone hpc⟩

/-- A step of the worker: it may get through with an entry. -/
theorem stepWorker_delivery (h : Delivery timestamps d sink₀ lines done s)
    (hstep : s.stepWorker (timestamps s.formatted) = some s') :
    ∃ done', Delivery timestamps d sink₀ lines done' s' := by
  have ⟨hlevel, hsent, hall, hmain, _⟩ := h
  have hstarted : s.worker ≠ .notStarted := by
    intro hpc
    rw [TestApplication.stepWorker, hpc] at hstep
    exact absurd hstep (by simp)
  unfold TestApplication.stepWorker at hstep
  split at hstep
  next hpc => exact absurd hpc hstarted
  next hpc =>
    split at hstep
    next =>
      cases hstep
      exact ⟨done, h.moveWorker hstarted (by rw [hpc]; rfl) (by simp)⟩
    next =>
      cases hstep
      exact ⟨done, h.moveWorker hstarted (by rw [hpc]; rfl) (by simp)⟩
  next drain hpc =>
    split at hstep
    next => exact absurd hstep (by simp)
    next =>
      split at hstep
      next logQueue hresult =>
        cases hstep
        exact ⟨done, h.popSleeps hpc hresult⟩
      next entry logQueue hresult =>
        cases hstep
        exact ⟨done, h.popItem hpc hresult⟩
      next logQueue hresult =>
        cases hstep
        exact ⟨done, h.popStopped hpc hresult⟩
  next entry drain hpc =>
    rw [hpc] at hall
    split at hstep
    next =>
      cases hstep
      exact ⟨done, h.moveWorker hstarted (by rw [hpc]; rfl) (by simp)⟩
    next hinvalid =>
      cases hstep
      obtain ⟨sink, given, hsent⟩ := hsent
      have hlost : ILogSink.isValid sink = false := by
        rw [← hsent.isValid_eq]
        simpa using hinvalid
      refine ⟨done ++ [entry], hlevel, ⟨sink, given, hsent.lost hlost entry _⟩, ?_,
        hmain.worker hstarted rfl rfl rfl, ?_⟩
      · rw [List.append_assoc, (afterEntry_spec drain).1]
        exact hall
      · exact fun hdone => absurd hdone (afterEntry_spec drain).2
  next entry drain hpc =>
    rw [hpc] at hall
    cases hstep
    obtain ⟨sink, given, hsent⟩ := hsent
    refine ⟨done ++ [entry], hlevel, hsent.log entry, ?_, hmain.worker hstarted rfl rfl rfl, ?_⟩
    · rw [List.append_assoc, (afterEntry_spec drain).1]
      exact hall
    · exact fun hdone => absurd hdone (afterEntry_spec drain).2
  next => exact absurd hstep (by simp)

/-- One step of the machine. -/
theorem step_delivery (h : Delivery timestamps d sink₀ lines done s) {a : AppAction}
    (hstep : s.step timestamps a = some s') : ∃ done', Delivery timestamps d sink₀ lines done' s' := by
  cases a with
  | main notified => exact ⟨done, stepMain_delivery h hstep⟩
  | worker => exact stepWorker_delivery h hstep
  | wake =>
    simp only [TestApplication.step] at hstep
    split at hstep
    next => exact absurd hstep (by simp)
    next logQueue hwake =>
      cases hstep
      obtain ⟨hqueue, hrunning⟩ := ThreadSafeQueue.wake_spec hwake
      obtain ⟨hlevel, hsent, hall, hmain, hfinished⟩ := h
      refine ⟨done, hlevel, hsent, ?_, ?_, ?_⟩
      · show done ++ (s.worker.held ++ (logQueue.queue ++ _)) = _
        rw [hqueue]
        exact hall
      · unfold MainOk at hmain ⊢
        dsimp only
        rw [hrunning]
        exact hmain
      · dsimp only
        rw [hrunning, hqueue]
        exact hfinished

/-- Behind the end of the worker every entry has been in its hand. -/
theorem Delivery.done_eq (h : Delivery timestamps d sink₀ lines done s)
    (hdone : s.worker = .done) : done = entries d lines := by
  obtain ⟨hstopped, hempty⟩ := h.finished hdone
  have hall := h.all
  rw [hdone, hempty, unread_of_stopped h.main hstopped] at hall
  simpa [WorkerPc.held] using hall

/-! ## Whole runs -/

section Runs

variable {as : List AppAction} {es : List Empty}

theorem created_delivery (timestamps : Nat → Bytes) (d : LogLevel) (sink₀ : σ)
    (lines : List Bytes) : Delivery timestamps d sink₀ lines [] (.created d sink₀ lines) :=
  ⟨rfl, ⟨sink₀, [], rfl, rfl, List.prefix_refl _, fun _ => ⟨rfl, rfl⟩⟩, rfl, ⟨rfl, rfl⟩,
    fun hdone => absurd hdone (by simp [TestApplication.created, TestApplication.construct])⟩

theorem run_delivery
    (hrun : (appMachine timestamps).run (.created d sink₀ lines) as = some (s, es)) :
    ∃ done, Delivery timestamps d sink₀ lines done s := by
  refine (appMachine timestamps).run_invariant
    (P := fun s => ∃ done, Delivery timestamps d sink₀ lines done s) ?_ hrun
    ⟨[], created_delivery timestamps d sink₀ lines⟩
  rintro s a s' es ⟨done, h⟩ hstep
  obtain ⟨t, hstep', heq⟩ := Option.map_eq_some_iff.mp hstep
  cases heq
  exact step_delivery h hstep'

/-- What the sink was given at any instant, and behind the end of the
worker. -/
theorem run_sent
    (hrun : (appMachine timestamps).run (.created d sink₀ lines) as = some (s, es)) :
    ∃ sink given, s.logger.sinks = [sink] ∧ sink = serve given sink₀
      ∧ given <+: records timestamps (logged d (entries d lines))
      ∧ (s.worker = .done → ILogSink.isValid sink = true
        → given = records timestamps (logged d (entries d lines))) := by
  obtain ⟨done, hdelivery⟩ := run_delivery hrun
  obtain ⟨sink, given, hsent⟩ := hdelivery.sent
  refine ⟨sink, given, by rw [hsent.logger_eq], hsent.served, ?_, fun hdone hvalid => ?_⟩
  · rw [← hdelivery.all]
    exact hsent.front.trans (records_front timestamps d done _)
  · rw [(hsent.whole hvalid).1, hdelivery.done_eq hdone]

/-- A new file that is still good has the lines of all the records. -/
theorem run_written {s : TestApplication FileSink} {outcomes : List FileWrite}
    (hts : ∀ k, '\n'.toUInt8 ∉ timestamps k) (hlines : ∀ line ∈ lines, '\n'.toUInt8 ∉ line)
    (hrun : (appMachine timestamps).run
      (.created d { isOpen := true, good := true, outcomes } lines) as = some (s, es))
    (hdone : s.worker = .done) (hvalid : s.logger.isValid = true) :
    ∃ sink, s.logger.sinks = [sink]
      ∧ getlines '\n'.toUInt8 sink.appended = records timestamps (logged d (entries d lines)) := by
  obtain ⟨sink, given, hsinks, hserved, -, hall⟩ := run_sent hrun
  have hvalid' : sink.isValid = true := (Logger.Logger.isValid_one hsinks).symm.trans hvalid
  obtain ⟨k, part, hholds⟩ := serve_file given { isOpen := true, good := true, outcomes }
  rw [← hserved] at hholds
  refine ⟨sink, hsinks, ?_⟩
  rw [hholds.all hvalid', hall hdone hvalid']
  exact getlines_unlines (entered_newline_free hts hlines)

end Runs

/-- **Nothing is lost, repeated or reordered.** When the worker has ended, the
lines in the file are the records of the entries of the input that are not
below the level, in order, and the queue is empty. -/
theorem delivered (timestamps : Nat → Bytes) (d : LogLevel) (lines : List Bytes)
    (outcomes : List FileWrite) (as : List AppAction) (s : TestApplication FileSink)
    (es : List Empty)
    (hts : ∀ k, '\n'.toUInt8 ∉ timestamps k) (hlines : ∀ line ∈ lines, '\n'.toUInt8 ∉ line)
    (hrun : (appMachine timestamps).run
      (.created d { isOpen := true, good := true, outcomes } lines) as = some (s, es))
    (hdone : s.worker = .done) (hvalid : s.logger.isValid = true) :
    s.logQueue.queue = [] ∧ ∃ sink, s.logger.sinks = [sink]
      ∧ getlines '\n'.toUInt8 sink.appended
        = records timestamps (logged d (entries d lines)) := by
  obtain ⟨done, hdelivery⟩ := run_delivery hrun
  exact ⟨(hdelivery.finished hdone).2, run_written hts hlines hrun hdone hvalid⟩

/-- A message, one below the level, and the end of the input. -/
def threeLines : List Bytes := [ascii "hi", ascii "low debug", ascii "exit"]

/-- The worker sleeps in `pop` when the queue is stopped. -/
def threeLinesSchedule : List AppAction :=
  [.main none, .main none, .main none, .main none, .main none, .main none, .main none, .main none,
    .worker, .worker, .worker, .worker, .main none, .main none, .main none, .main none, .worker,
    .worker, .worker, .worker, .worker, .worker, .main none, .main none, .main none, .worker,
    .worker, .worker]

theorem delivered_threeLines :
    ∃ (s : TestApplication FileSink) (es : List Empty), (appMachine fun _ => ascii "t").run
        (.created .info { isOpen := true, good := true } threeLines) threeLinesSchedule = some (s, es)
      ∧ s.worker = .done
      ∧ ∃ sink, s.logger.sinks = [sink]
        ∧ getlines '\n'.toUInt8 sink.appended = [formatMessage (ascii "t") (ascii "hi") .info] :=
  ⟨_, _, rfl, rfl, (delivered (fun _ => ascii "t") .info threeLines [] threeLinesSchedule _ _
    (fun _ => by decide) (by decide) rfl rfl (by decide)).2⟩

end LogMetrics.TestApplication
