import LogMetrics.MetricsApplication.ApplicationLife
import LogMetrics.MetricsApplication.CountTrigger
import LogMetrics.MetricsApplication.PrintedByThread

/-!
# The processor in the application

Whatever `main` and the server do besides, from the moment `run` starts the
timer the two threads of the processor make a run of `processorMachine`, and
before it they do nothing (`run_projects`). So what holds of these threads in
every schedule holds of them in the application.
-/

set_option linter.dupNamespace false

namespace LogMetrics.MetricsApplication

open LogMetrics.Base
open LogMetrics.Logger (LogLevel)

/-- The events of the processor. -/
def processorEvents (es : List ApplicationEvent) : List ProcessorEvent :=
  es.filterMap fun
    | .processor event => some event
    | .fd _ => none

theorem processorEvents_append (es fs : List ApplicationEvent) :
    processorEvents (es ++ fs) = processorEvents es ++ processorEvents fs := List.filterMap_append

@[simp] theorem processorEvents_fd (es : List FdEvent) : processorEvents (es.map .fd) = [] := by
  simp [processorEvents, List.filterMap_map]

@[simp] theorem processorEvents_processor (es : List ProcessorEvent) :
    processorEvents (es.map .processor) = es := by
  simp [processorEvents, List.filterMap_map]

/-! ## The projection -/

/-- The threads have not been started, or they have run by themselves. -/
inductive Projects (N : Nat) (timeoutSeconds : Int) (now : TimePoint) (s : MetricsApplication)
    (events : List ProcessorEvent) : Prop
  | unstarted (hstarted : s.timerStarted = false) (hevents : events = [])
      (hprocessor : s.threads.processor = .create N timeoutSeconds now)
      (hreceiver : s.threads.receiver = .idle) (htimer : s.threads.timer = .loop) :
      Projects N timeoutSeconds now s events
  | started (time : TimePoint) (actions : List ProcessorAction) (hstarted : s.timerStarted = true)
      (hrun : processorMachine.run (.started N timeoutSeconds false now time) actions
        = some (s.threads, events)) :
      Projects N timeoutSeconds now s events

variable {N : Nat} {timeoutSeconds : Int} {now : TimePoint} {s s' : MetricsApplication}
  {events : List ProcessorEvent}

/-- A step that leaves the processor alone. -/
theorem Projects.same (h : Projects N timeoutSeconds now s events)
    (hthreads : s'.threads = s.threads) (hstarted : s'.timerStarted = s.timerStarted) :
    Projects N timeoutSeconds now s' events := by
  cases h with
  | unstarted hnot hevents hprocessor hreceiver htimer =>
    refine .unstarted (hstarted.trans hnot) hevents ?_ ?_ ?_
    · rw [hthreads]
      exact hprocessor
    · rw [hthreads]
      exact hreceiver
    · rw [hthreads]
      exact htimer
  | started time actions hyes hrun =>
    refine .started time actions (hstarted.trans hyes) ?_
    rw [hthreads]
    exact hrun

/-- Before the start only time passes. -/
theorem unstarted_move {a : ApplicationAction} {action : ProcessorAction} {pc : MainPc}
    (h : ApplicationInv s) (hnot : s.timerStarted = false) (hmove : ThreadsMove s a action pc) :
    ∃ d, action = .tick d := by
  have hphase := h.phase
  unfold MetricsApplication.PhaseOk at hphase
  cases hmove with
  | tick d => exact ⟨d, rfl⟩
  | timer hstarted => exact absurd (hnot.symm.trans hstarted) (by decide)
  | receive pollFd hangup payload hpc hplace hlast =>
    rw [hpc] at hphase
    exact absurd (hnot.symm.trans hphase.2.1) (by decide)
  | receiver hpc =>
    rw [hpc] at hphase
    exact absurd (hnot.symm.trans hphase.2.1) (by decide)
  | stop destructor hpc hrunning =>
    rw [hpc] at hphase
    cases destructor with
    | true => exact absurd (hnot.symm.trans hphase.2.1) (by decide)
    | false => exact absurd (hnot.symm.trans hphase.2.1) (by decide)

theorem step_projects {a : ApplicationAction} {es : List ApplicationEvent}
    (hinv : ApplicationInv s) (h : Projects N timeoutSeconds now s events)
    (hstep : ApplicationStep s a s' es) :
    Projects N timeoutSeconds now s' (events ++ processorEvents es) := by
  cases hstep with
  | result call server fs hresult hin hstep =>
    rw [processorEvents_fd, List.append_nil]
    exact h.same rfl rfl
  | server call pc server fs hcall hstep =>
    rw [processorEvents_fd, List.append_nil]
    exact h.same rfl rfl
  | threads _ action pc threads fs hmove hstep =>
    rw [processorEvents_processor]
    cases h with
    | unstarted hnot hevents hprocessor hreceiver htimer =>
      obtain ⟨d, rfl⟩ := unstarted_move hinv hnot hmove
      cases threadsStep_inv hstep with
      | tick d => exact .unstarted hnot (by rw [hevents]; rfl) hprocessor hreceiver htimer
    | started time actions hyes hrun =>
      refine .started time (actions ++ [action]) hyes ?_
      have hone := processorMachine.run_cons hstep (processorMachine.run_nil threads)
      rw [List.append_nil] at hone
      exact processorMachine.run_append hrun hone
  | own isRunning pc hmove =>
    rw [show processorEvents [] = [] from rfl, List.append_nil]
    exact h.same rfl rfl
  | run hpc =>
    have hphase := hinv.phase
    unfold MetricsApplication.PhaseOk at hphase
    rw [hpc] at hphase
    cases h with
    | unstarted hnot hevents hprocessor hreceiver htimer =>
      refine .started s.threads.clock [] rfl ?_
      have hstart : s.threads.start = .started N timeoutSeconds false now s.threads.clock := by
        rw [ProcessorThreads.start, hprocessor, hreceiver, htimer]
        rfl
      rw [hevents]
      exact congrArg some (Prod.ext hstart.symm rfl)
    | started time actions hyes hrun => exact absurd (hphase.2.1.symm.trans hyes) (by decide)

/-- **The processor in the application is the processor alone.** -/
theorem run_projects {as : List ApplicationAction} {es : List ApplicationEvent}
    (hrun : metricsMachine.run (.created N timeoutSeconds now) as = some (s, es)) :
    ApplicationInv s ∧ Projects N timeoutSeconds now s (processorEvents es) := by
  refine metricsMachine.run_induction
    (P := fun _ s es => ApplicationInv s ∧ Projects N timeoutSeconds now s (processorEvents es))
    ⟨created_inv N timeoutSeconds now, .unstarted rfl rfl rfl rfl rfl⟩ ?_ hrun
  intro as a s es s' es' _ hs hstep
  obtain ⟨hinv, hprojects⟩ := hs
  have hstep' := applicationStep_inv hstep
  rw [processorEvents_append]
  exact ⟨step_applicationInv hinv hstep', step_projects hinv hprojects hstep'⟩

/-! ## What the threads have done -/

/-- The collector has been given what both parsers accepted of the payloads,
up to the message the receiver is about to add. -/
theorem step_accepted {t t' : ProcessorThreads} {a : ProcessorAction}
    {fs : List ProcessorEvent}
    (h : addedMessages events ++ pendingAdd t.receiver = accepted (payloads events))
    (hstep : ProcessorStep t a t' fs) :
    addedMessages (events ++ fs) ++ pendingAdd t'.receiver = accepted (payloads (events ++ fs)) := by
  rw [addedMessages_append, payloads_append, accepted_append, ← h]
  cases hstep with
  | tick d => simp [addedMessages, payloads, accepted]
  | stop hpc => simp [addedMessages, payloads, accepted]
  | reject p text hpc hparse =>
    have hreject := parsePayload_error hparse
    simp [addedMessages, payloads, accepted, hpc, pendingAdd, hreject]
  | accept p message level hpc hparse =>
    have haccept := parsePayload_ok hparse
    simp [addedMessages, payloads, accepted, hpc, pendingAdd, haccept]
  | receiverMove pc hmove =>
    cases hmove with
    | readReset hpc => simp [addedMessages, payloads, accepted, hpc, pendingAdd]
    | due hpc hdue => simp [addedMessages, payloads, accepted, hpc, pendingAdd]
    | notDue hpc hdue => simp [addedMessages, payloads, accepted, hpc, pendingAdd]
    | readFinished hpc => simp [addedMessages, payloads, accepted, hpc, pendingAdd]
  | add message level hpc => simp [addedMessages, payloads, accepted, hpc, pendingAdd]
  | writeReset now hpc => simp [addedMessages, payloads, accepted, hpc, pendingAdd]
  | receiverPut hpc => simp [addedMessages, payloads, accepted, hpc, pendingAdd]
  | writeFinished now hpc => simp [addedMessages, payloads, accepted, hpc, pendingAdd]
  | timerMove pc hmove => simp [addedMessages, payloads, accepted]
  | timerPut now hpc => simp [addedMessages, payloads, accepted]
  | writeLast now hpc => simp [addedMessages, payloads, accepted]

/-- What the processor has done in the application, idle or not. -/
theorem Projects.processed (h : Projects N timeoutSeconds now s events) :
    addedMessages events ++ pendingAdd s.threads.receiver = accepted (payloads events)
      ∧ HasAdded (addedMessages events) s.threads.stats := by
  cases h with
  | unstarted hnot hevents hprocessor hreceiver htimer =>
    rw [hevents, hreceiver, ProcessorThreads.stats, hprocessor]
    exact ⟨rfl, [], rfl, rfl⟩
  | started time actions hyes hrun =>
    refine ⟨?_, (run_collector ⟨[], rfl, rfl⟩ hrun).2⟩
    refine processorMachine.run_induction
      (P := fun _ t es => addedMessages es ++ pendingAdd t.receiver = accepted (payloads es))
      rfl ?_ hrun
    intro as a t es t' fs _ ih hstep
    exact step_accepted ih (processorStep_inv hstep)

/-- Nothing is printed before the start, and then as the threads print. -/
theorem Projects.printed (h : Projects N timeoutSeconds now s events) (hN : 0 < N)
    (hfew : (addedMessages events).length < sizeMod) : PrintedWell N events s.threads := by
  cases h with
  | unstarted hnot hevents hprocessor hreceiver htimer =>
    rw [hevents]
    refine ⟨List.Pairwise.nil, by simp [printedTotals], fun _ => ?_, List.Pairwise.nil, by simp⟩
    show [] = multiples N (0 / N)
    rw [Nat.zero_div]
    rfl
  | started time actions hyes hrun => exact printed_by_thread hN hrun hfew

end LogMetrics.MetricsApplication
