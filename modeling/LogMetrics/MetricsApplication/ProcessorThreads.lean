import LogMetrics.Base.Machine
import LogMetrics.MetricsApplication.CollectorExact
import LogMetrics.MetricsApplication.MessageProcessor

/-!
# The receiver and the timer of a `MessageProcessor`

`process_message` runs in the thread that receives, `stats_timer_thread` in
its own. Each call of a collector method is one step (they lock
`stats_mutex_`), and so is each clock reading and each read or write of
`last_stats_print_time_`, which nothing protects. The clock moves between any
two steps and never back. The thread that receives also calls `stop`.

Left to itself each thread does what the straight-line code of
`MessageProcessor` does (`receiver_alone`, `timer_alone`), so the runs in which
each call is one step (`callMachine`) are runs here (`calls_run`). Whatever the
schedule, the collector's state is that of a run of collector calls that adds
the messages of the trace (`run_collector`), so its total is their number; and
what comes out is the callback, or the report of these messages
(`run_outputs`).
-/

namespace LogMetrics.MetricsApplication

open LogMetrics.Base
open LogMetrics.Logger (LogLevel)
open MetricsCollector

/-- Where the receiver is in `process_message`. -/
inductive ReceiverPc where
  | idle
  | add (message : Bytes) (level : LogLevel)
  | readReset
  | writeReset (now : TimePoint)
  | checkCount
  | put
  | readFinished
  | writeFinished (now : TimePoint)
  deriving DecidableEq, Repr

/-- Where the timer is in `stats_timer_thread`. -/
inductive TimerPc where
  | loop
  | readNow
  | readLast (now : TimePoint)
  | checkChanged (now : TimePoint)
  | put (now : TimePoint)
  | writeLast (now : TimePoint)
  | done
  deriving DecidableEq, Repr

structure ProcessorThreads where
  processor : MessageProcessor
  clock : TimePoint
  receiver : ReceiverPc
  timer : TimerPc

inductive ProcessorAction where
  | tick (d : Nat)
  | receive (logMessage : Bytes)
  | receiver
  | timer
  | stop
  deriving DecidableEq, Repr

namespace ProcessorThreads

/-- The collector's state. -/
abbrev stats (s : ProcessorThreads) : MessageStats := s.processor.metricsCollector

/-- One step of an accepted `process_message`. -/
def stepReceiver (s : ProcessorThreads) : Option (ProcessorThreads × List ProcessorEvent) :=
  match s.receiver with
  | .idle => none
  | .add message level =>
    some ({ s with
      processor := { s.processor with metricsCollector := addMessage message level s.clock s.stats }
      receiver := .readReset }, [.added message level])
  | .readReset => some ({ s with receiver := .writeReset s.clock }, [])
  | .writeReset now =>
    some ({ s with
      processor := { s.processor with lastStatsPrintTime := now }
      receiver := .checkCount }, [.lastWritten .receiver now])
  | .checkCount =>
    if shouldPrintStats s.processor.messageInterval s.stats then
      some ({ s with receiver := .put }, [])
    else some ({ s with receiver := .idle }, [])
  | .put =>
    some ({ s with
      processor := (s.processor.putStats s.clock).2
      receiver := .readFinished }, [.emitted .receiver (s.processor.putStats s.clock).1])
  | .readFinished => some ({ s with receiver := .writeFinished s.clock }, [])
  | .writeFinished now =>
    some ({ s with
      processor := { s.processor with lastStatsPrintTime := now }
      receiver := .idle }, [.lastWritten .receiver now])

/-- One step of `stats_timer_thread`. -/
def stepTimer (s : ProcessorThreads) : Option (ProcessorThreads × List ProcessorEvent) :=
  match s.timer with
  | .loop =>
    if s.processor.running then some ({ s with timer := .readNow }, [])
    else some ({ s with timer := .done }, [])
  | .readNow => some ({ s with timer := .readLast s.clock }, [])
  | .readLast now =>
    if MessageProcessor.timeSinceLastPrint now s.processor.lastStatsPrintTime
        ≥ s.processor.timeoutSeconds then
      some ({ s with timer := .checkChanged now }, [])
    else some ({ s with timer := .loop }, [])
  | .checkChanged now =>
    if hasStatsChangedSinceLastPrint s.stats then some ({ s with timer := .put now }, [])
    else some ({ s with timer := .loop }, [])
  | .put now =>
    some ({ s with
      processor := (s.processor.putStats s.clock).2
      timer := .writeLast now }, [.emitted .timer (s.processor.putStats s.clock).1])
  | .writeLast now =>
    some ({ s with
      processor := { s.processor with lastStatsPrintTime := now }
      timer := .loop }, [.lastWritten .timer now])
  | .done => none

def step (s : ProcessorThreads) :
    ProcessorAction → Option (ProcessorThreads × List ProcessorEvent)
  | .tick d => some ({ s with clock := s.clock + d }, [])
  | .receive logMessage =>
    match s.receiver with
    | .idle =>
      match parsePayload logMessage with
      | .error text => some (s, [.log logMessage, .parseError text])
      | .ok (message, level) =>
        some ({ s with receiver := .add message level }, [.log logMessage])
    | _ => none
  | .receiver => s.stepReceiver
  | .timer => s.stepTimer
  | .stop =>
    match s.receiver with
    | .idle => some ({ s with processor := s.processor.stop }, [])
    | _ => none

/-- The two threads behind `start`. -/
def started (messageInterval : Nat) (timeoutSeconds : Int) (statsCallback : Bool)
    (created now : TimePoint) : ProcessorThreads where
  processor := .started messageInterval timeoutSeconds statsCallback created now
  clock := now
  receiver := .idle
  timer := .loop

end ProcessorThreads

open ProcessorThreads

/-- The receiver and the timer as a machine. -/
def processorMachine : Machine ProcessorThreads ProcessorAction ProcessorEvent :=
  ⟨ProcessorThreads.step⟩

/-! ## What a step can do -/

/-- The steps of the timer that only move it. -/
inductive TimerMove (s : ProcessorThreads) : TimerPc → Prop
  | enter (hpc : s.timer = .loop) (hrunning : s.processor.running = true) : TimerMove s .readNow
  | leave (hpc : s.timer = .loop) (hstopped : s.processor.running = false) : TimerMove s .done
  | read (hpc : s.timer = .readNow) : TimerMove s (.readLast s.clock)
  | late (now : TimePoint) (hpc : s.timer = .readLast now)
      (hlate : MessageProcessor.timeSinceLastPrint now s.processor.lastStatsPrintTime
        ≥ s.processor.timeoutSeconds) : TimerMove s (.checkChanged now)
  | early (now : TimePoint) (hpc : s.timer = .readLast now)
      (hearly : ¬MessageProcessor.timeSinceLastPrint now s.processor.lastStatsPrintTime
        ≥ s.processor.timeoutSeconds) : TimerMove s .loop
  | changed (now : TimePoint) (hpc : s.timer = .checkChanged now)
      (hchanged : hasStatsChangedSinceLastPrint s.stats = true) : TimerMove s (.put now)
  | unchanged (now : TimePoint) (hpc : s.timer = .checkChanged now)
      (hsame : hasStatsChangedSinceLastPrint s.stats = false) : TimerMove s .loop

/-- The steps of the receiver that only move it. -/
inductive ReceiverMove (s : ProcessorThreads) : ReceiverPc → Prop
  | readReset (hpc : s.receiver = .readReset) : ReceiverMove s (.writeReset s.clock)
  | due (hpc : s.receiver = .checkCount)
      (hdue : shouldPrintStats s.processor.messageInterval s.stats = true) : ReceiverMove s .put
  | notDue (hpc : s.receiver = .checkCount)
      (hdue : shouldPrintStats s.processor.messageInterval s.stats = false) :
      ReceiverMove s .idle
  | readFinished (hpc : s.receiver = .readFinished) : ReceiverMove s (.writeFinished s.clock)

/-- The steps, by what they touch. -/
inductive ProcessorStep (s : ProcessorThreads) :
    ProcessorAction → ProcessorThreads → List ProcessorEvent → Prop
  | tick (d : Nat) : ProcessorStep s (.tick d) { s with clock := s.clock + d } []
  | stop (hpc : s.receiver = .idle) :
      ProcessorStep s .stop { s with processor := s.processor.stop } []
  | reject (logMessage text : Bytes) (hpc : s.receiver = .idle)
      (hparse : parsePayload logMessage = .error text) :
      ProcessorStep s (.receive logMessage) s [.log logMessage, .parseError text]
  | accept (logMessage message : Bytes) (level : LogLevel) (hpc : s.receiver = .idle)
      (hparse : parsePayload logMessage = .ok (message, level)) :
      ProcessorStep s (.receive logMessage) { s with receiver := .add message level }
        [.log logMessage]
  | receiverMove (pc : ReceiverPc) (hmove : ReceiverMove s pc) :
      ProcessorStep s .receiver { s with receiver := pc } []
  | add (message : Bytes) (level : LogLevel) (hpc : s.receiver = .add message level) :
      ProcessorStep s .receiver { s with
        processor := { s.processor with
          metricsCollector := addMessage message level s.clock s.stats }
        receiver := .readReset } [.added message level]
  | writeReset (now : TimePoint) (hpc : s.receiver = .writeReset now) :
      ProcessorStep s .receiver { s with
        processor := { s.processor with lastStatsPrintTime := now }
        receiver := .checkCount } [.lastWritten .receiver now]
  | receiverPut (hpc : s.receiver = .put) :
      ProcessorStep s .receiver { s with
        processor := (s.processor.putStats s.clock).2
        receiver := .readFinished } [.emitted .receiver (s.processor.putStats s.clock).1]
  | writeFinished (now : TimePoint) (hpc : s.receiver = .writeFinished now) :
      ProcessorStep s .receiver { s with
        processor := { s.processor with lastStatsPrintTime := now }
        receiver := .idle } [.lastWritten .receiver now]
  | timerMove (pc : TimerPc) (hmove : TimerMove s pc) :
      ProcessorStep s .timer { s with timer := pc } []
  | timerPut (now : TimePoint) (hpc : s.timer = .put now) :
      ProcessorStep s .timer { s with
        processor := (s.processor.putStats s.clock).2
        timer := .writeLast now } [.emitted .timer (s.processor.putStats s.clock).1]
  | writeLast (now : TimePoint) (hpc : s.timer = .writeLast now) :
      ProcessorStep s .timer { s with
        processor := { s.processor with lastStatsPrintTime := now }
        timer := .loop } [.lastWritten .timer now]

theorem stepReceiver_inv {s s' : ProcessorThreads} {es : List ProcessorEvent}
    (h : s.stepReceiver = some (s', es)) : ProcessorStep s .receiver s' es := by
  unfold stepReceiver at h
  split at h
  next => exact absurd h (by simp)
  next message level hpc => cases h; exact .add message level hpc
  next hpc => cases h; exact .receiverMove _ (.readReset hpc)
  next now hpc => cases h; exact .writeReset now hpc
  next hpc =>
    split at h
    next hdue => cases h; exact .receiverMove _ (.due hpc hdue)
    next hdue => cases h; exact .receiverMove _ (.notDue hpc (by simpa using hdue))
  next hpc => cases h; exact .receiverPut hpc
  next hpc => cases h; exact .receiverMove _ (.readFinished hpc)
  next now hpc => cases h; exact .writeFinished now hpc

theorem stepTimer_inv {s s' : ProcessorThreads} {es : List ProcessorEvent}
    (h : s.stepTimer = some (s', es)) : ProcessorStep s .timer s' es := by
  unfold stepTimer at h
  split at h
  next hpc =>
    split at h
    next hrunning => cases h; exact .timerMove _ (.enter hpc hrunning)
    next hstopped => cases h; exact .timerMove _ (.leave hpc (by simpa using hstopped))
  next hpc => cases h; exact .timerMove _ (.read hpc)
  next now hpc =>
    split at h
    next hlate => cases h; exact .timerMove _ (.late now hpc hlate)
    next hearly => cases h; exact .timerMove _ (.early now hpc hearly)
  next now hpc =>
    split at h
    next hchanged => cases h; exact .timerMove _ (.changed now hpc hchanged)
    next hsame => cases h; exact .timerMove _ (.unchanged now hpc (by simpa using hsame))
  next now hpc => cases h; exact .timerPut now hpc
  next now hpc => cases h; exact .writeLast now hpc
  next => exact absurd h (by simp)

theorem processorStep_inv {s s' : ProcessorThreads} {a : ProcessorAction}
    {es : List ProcessorEvent} (h : processorMachine.step s a = some (s', es)) :
    ProcessorStep s a s' es := by
  replace h : s.step a = some (s', es) := h
  unfold ProcessorThreads.step at h
  split at h
  next d => cases h; exact .tick d
  next logMessage =>
    split at h
    next hpc =>
      split at h
      next text hparse => cases h; exact .reject logMessage text hpc hparse
      next message level hparse => cases h; exact .accept logMessage message level hpc hparse
    next => exact absurd h (by simp)
  next => exact stepReceiver_inv h
  next => exact stepTimer_inv h
  next =>
    split at h
    next hpc => cases h; exact .stop hpc
    next => exact absurd h (by simp)

/-! ## Each thread alone -/

/-- Undisturbed, the receiver does what `processMessage` says, whatever time
passes before and between its clock readings. -/
theorem receiver_alone (s : ProcessorThreads) (hidle : s.receiver = .idle) (logMessage : Bytes)
    (d₀ d₁ d₂ d₃ : Nat) :
    let clock : Readings := ⟨s.clock + d₀, s.clock + d₀ + d₁, s.clock + d₀ + d₁ + d₂,
      s.clock + d₀ + d₁ + d₂ + d₃⟩
    ∃ as, processorMachine.run s as
      = some ({ s with
          processor := (s.processor.processMessage logMessage clock).1, clock := clock.finished },
        (s.processor.processMessage logMessage clock).2) := by
  intro clock
  obtain ⟨p, c, receiver, timer⟩ := s
  obtain rfl : receiver = .idle := hidle
  cases hparse : parsePayload logMessage with
  | error text =>
    refine ⟨[.receive logMessage, .tick d₀, .tick d₁, .tick d₂, .tick d₃], ?_⟩
    simp [Machine.run, processorMachine, ProcessorThreads.step, MessageProcessor.processMessage,
      hparse, clock]
  | ok parsed =>
    obtain ⟨message, level⟩ := parsed
    cases hdue : shouldPrintStats p.messageInterval
        (addMessage message level (c + d₀) p.metricsCollector) with
    | false =>
      refine ⟨[.receive logMessage, .tick d₀, .receiver, .tick d₁, .receiver, .receiver,
        .receiver, .tick d₂, .tick d₃], ?_⟩
      simp [Machine.run, processorMachine, ProcessorThreads.step, stepReceiver, stats,
        MessageProcessor.processMessage, MessageProcessor.checkCount, hparse, hdue, clock]
    | true =>
      refine ⟨[.receive logMessage, .tick d₀, .receiver, .tick d₁, .receiver, .receiver,
        .receiver, .tick d₂, .receiver, .tick d₃, .receiver, .receiver], ?_⟩
      simp [Machine.run, processorMachine, ProcessorThreads.step, stepReceiver, stats,
        MessageProcessor.processMessage, MessageProcessor.checkCount, hparse, hdue, clock]

/-- Undisturbed, the timer does what `timerIteration` says. -/
theorem timer_alone (s : ProcessorThreads) (hloop : s.timer = .loop)
    (hrunning : s.processor.running = true) (d₀ d₁ : Nat) :
    ∃ as, processorMachine.run s as
      = some ({ s with
          processor := (s.processor.timerIteration (s.clock + d₀) (s.clock + d₀ + d₁)).1
          clock := s.clock + d₀ + d₁ },
        (s.processor.timerIteration (s.clock + d₀) (s.clock + d₀ + d₁)).2) := by
  obtain ⟨p, c, receiver, timer⟩ := s
  obtain rfl : timer = .loop := hloop
  replace hrunning : p.running = true := hrunning
  by_cases hlate :
      MessageProcessor.timeSinceLastPrint (c + d₀) p.lastStatsPrintTime ≥ p.timeoutSeconds
  · cases hchanged : hasStatsChangedSinceLastPrint p.metricsCollector with
    | false =>
      refine ⟨[.tick d₀, .timer, .timer, .timer, .timer, .tick d₁], ?_⟩
      simp [Machine.run, processorMachine, ProcessorThreads.step, stepTimer, stats,
        MessageProcessor.timerIteration, hrunning, hlate, hchanged]
    | true =>
      refine ⟨[.tick d₀, .timer, .timer, .timer, .timer, .tick d₁, .timer, .timer], ?_⟩
      simp [Machine.run, processorMachine, ProcessorThreads.step, stepTimer, stats,
        MessageProcessor.timerIteration, hrunning, hlate, hchanged]
  · refine ⟨[.tick d₀, .timer, .timer, .timer, .tick d₁], ?_⟩
    simp [Machine.run, processorMachine, ProcessorThreads.step, stepTimer,
      MessageProcessor.timerIteration, hrunning, hlate]

/-! ## Whole calls -/

/-- One `process_message`, or one iteration of the timer, with its clock
readings. -/
inductive ProcessorCall where
  | message (logMessage : Bytes) (clock : Readings)
  | timer (now printed : TimePoint)

/-- The processor when each call is one step. -/
def callMachine : Machine MessageProcessor ProcessorCall ProcessorEvent where
  step p
    | .message logMessage clock => some (p.processMessage logMessage clock)
    | .timer now printed => if p.running then some (p.timerIteration now printed) else none

theorem callMachine_timer {p p' : MessageProcessor} {now printed : TimePoint}
    {es : List ProcessorEvent} (h : callMachine.step p (.timer now printed) = some (p', es)) :
    p.running = true ∧ p.timerIteration now printed = (p', es) := by
  simp only [callMachine] at h
  split at h
  next hrunning => exact ⟨hrunning, Option.some.inj h⟩
  next => exact absurd h (by simp)

/-- The readings of the calls do not go back, from `c` on. -/
inductive Timed : TimePoint → List ProcessorCall → Prop
  | nil (c : TimePoint) : Timed c []
  | message (c : TimePoint) (logMessage : Bytes) (d₀ d₁ d₂ d₃ : Nat) (calls : List ProcessorCall)
      (h : Timed (c + d₀ + d₁ + d₂ + d₃) calls) :
      Timed c (.message logMessage ⟨c + d₀, c + d₀ + d₁, c + d₀ + d₁ + d₂,
        c + d₀ + d₁ + d₂ + d₃⟩ :: calls)
  | timer (c : TimePoint) (d₀ d₁ : Nat) (calls : List ProcessorCall)
      (h : Timed (c + d₀ + d₁) calls) :
      Timed c (.timer (c + d₀) (c + d₀ + d₁) :: calls)

/-- **Runs of whole calls are runs of the threads**, with the same processor
and the same trace. -/
theorem calls_run {c : TimePoint} {calls : List ProcessorCall} (htimed : Timed c calls)
    {p p' : MessageProcessor} {es : List ProcessorEvent}
    (hrun : callMachine.run p calls = some (p', es)) :
    ∃ as c', processorMachine.run ⟨p, c, .idle, .loop⟩ as = some (⟨p', c', .idle, .loop⟩, es) := by
  induction htimed generalizing p es with
  | nil c =>
    cases hrun
    exact ⟨[], c, rfl⟩
  | message c logMessage d₀ d₁ d₂ d₃ calls h ih =>
    obtain ⟨p₁, es₁, es₂, hstep, hrest, rfl⟩ := callMachine.run_cons_inv hrun
    have hcall := Option.some.inj hstep
    obtain ⟨as, has⟩ := receiver_alone ⟨p, c, .idle, .loop⟩ rfl logMessage d₀ d₁ d₂ d₃
    rw [hcall] at has
    obtain ⟨bs, c', hbs⟩ := ih hrest
    exact ⟨as ++ bs, c', processorMachine.run_append has hbs⟩
  | timer c d₀ d₁ calls h ih =>
    obtain ⟨p₁, es₁, es₂, hstep, hrest, rfl⟩ := callMachine.run_cons_inv hrun
    obtain ⟨hrunning, hcall⟩ := callMachine_timer hstep
    obtain ⟨as, has⟩ := timer_alone ⟨p, c, .idle, .loop⟩ rfl hrunning d₀ d₁
    rw [hcall] at has
    obtain ⟨bs, c', hbs⟩ := ih hrest
    exact ⟨as ++ bs, c', processorMachine.run_append has hbs⟩

/-! ## The collector along a run -/

/-- The messages added, in order. -/
def addedMessages (es : List ProcessorEvent) : List (Bytes × LogLevel) :=
  es.filterMap fun
    | .added message level => some (message, level)
    | _ => none

theorem addedMessages_append (es fs : List ProcessorEvent) :
    addedMessages (es ++ fs) = addedMessages es ++ addedMessages fs := List.filterMap_append

/-- Events that add nothing. -/
theorem addedMessages_append_quiet (es : List ProcessorEvent) {fs : List ProcessorEvent}
    (h : addedMessages fs = []) : addedMessages (es ++ fs) = addedMessages es := by
  rw [addedMessages_append, h, List.append_nil]

/-- The collector is in the state of a run of calls that added `ms`. -/
def HasAdded (ms : List (Bytes × LogLevel)) (stats : MessageStats) : Prop :=
  ∃ calls, stats = runCalls calls ∧ added calls = ms

theorem HasAdded.total {ms : List (Bytes × LogLevel)} {stats : MessageStats}
    (h : HasAdded ms stats) : stats.totalMessages = ms.length % sizeMod := by
  obtain ⟨calls, rfl, rfl⟩ := h
  exact (run_exact calls).total

theorem HasAdded.putStats {ms : List (Bytes × LogLevel)} {p : MessageProcessor}
    (h : HasAdded ms p.metricsCollector) (now : TimePoint) :
    HasAdded ms (p.putStats now).2.metricsCollector := by
  obtain ⟨calls, hstats, hadded⟩ := h
  unfold MessageProcessor.putStats
  split
  · exact ⟨calls, hstats, hadded⟩
  · refine ⟨calls ++ [.printStats now], ?_, ?_⟩
    · rw [runCalls_snoc, ← hstats]
      rfl
    · rw [added_snoc, hadded]
      exact List.append_nil _

theorem HasAdded.addMessage {ms : List (Bytes × LogLevel)} {stats : MessageStats}
    (h : HasAdded ms stats) (message : Bytes) (level : LogLevel) (now : TimePoint) :
    HasAdded (ms ++ [(message, level)]) (addMessage message level now stats) := by
  obtain ⟨calls, rfl, rfl⟩ := h
  refine ⟨calls ++ [.addMessage message level now], ?_, added_snoc _ _⟩
  rw [runCalls_snoc]
  rfl

/-- The constants of a processor. -/
structure SameConfig (p p' : MessageProcessor) : Prop where
  interval : p'.messageInterval = p.messageInterval
  timeout : p'.timeoutSeconds = p.timeoutSeconds
  callback : p'.statsCallback = p.statsCallback

theorem step_config {s s' : ProcessorThreads} {a : ProcessorAction} {es : List ProcessorEvent}
    (h : ProcessorStep s a s' es) : SameConfig s.processor s'.processor := by
  have hput := s.processor.putStats_spec s.clock
  cases h with
  | receiverPut hpc => exact ⟨hput.2.1, hput.2.2.1, hput.2.2.2.2.2⟩
  | timerPut now hpc => exact ⟨hput.2.1, hput.2.2.1, hput.2.2.2.2.2⟩
  | stop hpc =>
    simp only [MessageProcessor.stop]
    split
    · exact ⟨rfl, rfl, rfl⟩
    · exact ⟨rfl, rfl, rfl⟩
  | _ => exact ⟨rfl, rfl, rfl⟩

theorem step_collector {s s' : ProcessorThreads} {a : ProcessorAction} {es : List ProcessorEvent}
    {ms : List (Bytes × LogLevel)} (h : ProcessorStep s a s' es) (hs : HasAdded ms s.stats) :
    HasAdded (ms ++ addedMessages es) s'.stats := by
  cases h with
  | add message level hpc => exact hs.addMessage message level s.clock
  | stop hpc =>
    rw [show addedMessages [] = [] from rfl, List.append_nil]
    simp only [ProcessorThreads.stats, MessageProcessor.stop]
    split
    · exact hs
    · exact hs
  | receiverPut hpc => exact (List.append_nil ms).symm ▸ hs.putStats s.clock
  | timerPut now hpc => exact (List.append_nil ms).symm ▸ hs.putStats s.clock
  | _ => exact (List.append_nil ms).symm ▸ hs

theorem SameConfig.trans {p p' p'' : MessageProcessor} (h : SameConfig p p')
    (h' : SameConfig p' p'') : SameConfig p p'' :=
  ⟨h'.interval.trans h.interval, h'.timeout.trans h.timeout, h'.callback.trans h.callback⟩

/-- Along every run the constants stay. -/
theorem run_config {s₀ s : ProcessorThreads} {as : List ProcessorAction}
    {es : List ProcessorEvent} (h : processorMachine.run s₀ as = some (s, es)) :
    SameConfig s₀.processor s.processor :=
  processorMachine.run_invariant (P := fun s => SameConfig s₀.processor s.processor)
    (fun _ _ _ _ hconfig hstep => hconfig.trans (step_config (processorStep_inv hstep))) h
    ⟨rfl, rfl, rfl⟩

/-- Along every run the constants stay, and the collector has had the
messages of the trace. -/
theorem run_collector {s₀ s : ProcessorThreads} {as : List ProcessorAction}
    {es : List ProcessorEvent} (h₀ : HasAdded [] s₀.stats)
    (h : processorMachine.run s₀ as = some (s, es)) :
    SameConfig s₀.processor s.processor ∧ HasAdded (addedMessages es) s.stats := by
  refine ⟨run_config h, processorMachine.run_induction
    (P := fun _ s es => HasAdded (addedMessages es) s.stats) h₀ ?_ h⟩
  rintro as a s es s' es' - hadded hstep
  rw [addedMessages_append]
  exact step_collector (processorStep_inv hstep) hadded

/-! ## What comes out -/

/-- An element of `es ++ fs` stands in `es` or in `fs`. -/
theorem split_append {α : Type} {es fs pre post : List α} {x : α}
    (h : es ++ fs = pre ++ x :: post) :
    (∃ post', es = pre ++ x :: post') ∨ ∃ mid, pre = es ++ mid ∧ fs = mid ++ x :: post := by
  rcases List.append_eq_append_iff.mp h with ⟨mid, hpre, hfs⟩ | ⟨mid, hes, hpost⟩
  · exact .inr ⟨mid, hpre, hfs⟩
  · cases mid with
    | nil =>
      refine .inr ⟨[], ?_, hpost.symm⟩
      rw [hes, List.append_nil, List.append_nil]
    | cons y mid =>
      obtain ⟨rfl, -⟩ := List.cons.inj hpost
      exact .inl ⟨mid, hes⟩

/-- A step puts out what `putStats` does, and nothing else. -/
theorem step_report {s s' : ProcessorThreads} {fs : List ProcessorEvent} {a : ProcessorAction}
    {thread : Thread} {output : Output} (hstep : ProcessorStep s a s' fs)
    (hmem : .emitted thread output ∈ fs) :
    fs = [.emitted thread output] ∧ output = (s.processor.putStats s.clock).1 := by
  cases hstep with
  | receiverPut hpc =>
    cases List.mem_singleton.mp hmem
    exact ⟨rfl, rfl⟩
  | timerPut now hpc =>
    cases List.mem_singleton.mp hmem
    exact ⟨rfl, rfl⟩
  | _ => exact absurd hmem (by simp)

/-- What either thread puts out is the callback exactly when one is installed,
and else the report of the messages added before it. -/
theorem run_outputs {s₀ s : ProcessorThreads} {as : List ProcessorAction}
    {es : List ProcessorEvent} (h₀ : HasAdded [] s₀.stats)
    (hrun : processorMachine.run s₀ as = some (s, es)) {pre post : List ProcessorEvent}
    {thread : Thread} {output : Output} (hsplit : es = pre ++ .emitted thread output :: post) :
    ∃ time calls, added calls = addedMessages pre
      ∧ output = if s₀.processor.statsCallback then .callback
        else .printed (printStats time (runCalls calls)).1 := by
  refine processorMachine.run_induction
    (P := fun _ _ es => ∀ pre post, es = pre ++ .emitted thread output :: post →
      ∃ time calls, added calls = addedMessages pre
        ∧ output = if s₀.processor.statsCallback then .callback
          else .printed (printStats time (runCalls calls)).1) ?_ ?_ hrun pre post hsplit
  · intro pre post hnil
    exact absurd hnil (by simp)
  · intro as a s es s' fs hrun ih hstep pre post hsplit
    rcases split_append hsplit with ⟨post', hes⟩ | ⟨mid, hpre, hfs⟩
    · exact ih pre post' hes
    · -- put out in this step, which does nothing else
      obtain ⟨hone, houtput⟩ := step_report (processorStep_inv hstep)
        (show .emitted thread output ∈ fs by rw [hfs]; simp)
      obtain rfl : mid = [] := by
        have hlength := congrArg List.length hfs
        rw [hone, List.length_append, List.length_cons, List.length_cons, List.length_nil] at hlength
        exact List.length_eq_zero_iff.mp (by omega)
      obtain ⟨hconfig, calls, hcalls, hadded⟩ := run_collector h₀ hrun
      refine ⟨s.clock, calls, ?_, ?_⟩
      · rw [hpre, List.append_nil]
        exact hadded
      · rw [houtput, MessageProcessor.putStats, hconfig.callback, ← hcalls]
        cases s₀.processor.statsCallback with
        | true => rfl
        | false => rfl

end LogMetrics.MetricsApplication
