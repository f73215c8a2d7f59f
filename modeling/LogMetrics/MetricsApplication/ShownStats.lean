import LogMetrics.MetricsApplication.ApplicationData
import LogMetrics.MetricsApplication.LastHour
import LogMetrics.MetricsApplication.StatsText

/-!
# What the application shows

The text of `print_stats` holds the figures of the collector (`StatsText`),
and these are exact over the calls of the collector (`CollectorExact`,
`LastHour`). Here the two threads make the calls, and the clock of the run
gives the readings: it never goes back, so the window of the last hour is exact
as well.

`Clocked` is the invariant: the statistics are those of some calls whose
readings are sorted and not ahead of the clock. The times of the messages are
what the run notes at each `add_message` (`addClock`).
-/

set_option linter.dupNamespace false

namespace LogMetrics.MetricsApplication

open LogMetrics.Base
open LogMetrics.Logger (LogLevel levelToString)
open MetricsCollector ProcessorThreads

/-! ## The figures -/

/-- How many messages have level `l`. -/
def countOf (messages : List (Bytes × LogLevel)) (l : LogLevel) : Nat :=
  messages.countP fun m => m.2 = l

/-- The figures of messages, of which `lastHour` came in the last hour. -/
def shownFigures (messages : List (Bytes × LogLevel)) (lastHour : Nat) : StatsFigures where
  totalMessages := messages.length
  messagesLastHour := lastHour
  messagesByLevel := (LogLevel.all.filter fun l => countOf messages l > 0).map fun l =>
    (levelToString l, countOf messages l)
  lengths := some ((messages.map fun m => m.1.length).foldl min sizeMax,
    (messages.map fun m => m.1.length).foldl max 0)

/-- The names of the levels keep to their line, and to the front of it. -/
theorem printStats_names (time : TimePoint) (stats : MessageStats) :
    ∀ entry ∈ (printStats time stats).1.messagesByLevel,
      ':'.toUInt8 ∉ entry.1 ∧ '\n'.toUInt8 ∉ entry.1 := by
  intro entry hentry
  obtain ⟨l, -, rfl⟩ := List.mem_map.mp hentry
  show ':'.toUInt8 ∉ levelToString l ∧ '\n'.toUInt8 ∉ levelToString l
  cases l <;> decide

/-- The figures that a print shows, when nothing wraps. -/
theorem printStats_figures {calls : List CollectorCall} {time : TimePoint}
    (hfew : (added calls).length < sizeMod) (hsome : added calls ≠ [])
    (hsorted : (readings calls).Pairwise (· ≤ ·)) (hpast : ∀ r ∈ readings calls, r ≤ time) :
    (printStats time (runCalls calls)).1.figures
      = shownFigures (added calls) (addedInLastHour calls time) := by
  obtain ⟨-, htotal, hlevels, hlengths⟩ := figures_returned calls time hfew
  have hexact := run_exact calls
  have hhour := updateMessagesLastHour_exact calls hsorted hpast
  rw [StatsReport.figures, StatsFigures.mk.injEq]
  refine ⟨htotal, hhour, hlevels, ?_⟩
  rw [hlengths, if_neg hsome, hexact.min, hexact.max]
  rfl

/-! ## The clock of the run -/

/-- The statistics are those of calls that read the clock up to now. -/
structure Clocked (calls : List CollectorCall) (t : ProcessorThreads) : Prop where
  stats : t.stats = runCalls calls
  sorted : (readings calls).Pairwise (· ≤ ·)
  past : ∀ r ∈ readings calls, r ≤ t.clock

section Clock

variable {calls : List CollectorCall} {t t' : ProcessorThreads} {fs : List ProcessorEvent}

theorem Clocked.same (h : Clocked calls t) (hstats : t'.stats = t.stats)
    (hclock : t.clock ≤ t'.clock) : Clocked calls t' :=
  ⟨hstats.trans h.stats, h.sorted, fun r hr => Int.le_trans (h.past r hr) hclock⟩

/-- A call that reads the clock now. -/
theorem Clocked.call (h : Clocked calls t) {call : CollectorCall}
    (hreading : call.reading? = some t.clock) (hstats : t'.stats = call.exec t.stats)
    (hclock : t'.clock = t.clock) : Clocked (calls ++ [call]) t' := by
  have hreadings : readings (calls ++ [call]) = readings calls ++ [t.clock] := by
    rw [readings_snoc, hreading]
    rfl
  refine ⟨?_, ?_, fun r hr => ?_⟩
  · rw [runCalls_snoc, hstats, h.stats]
  · rw [hreadings, List.pairwise_append]
    refine ⟨h.sorted, List.pairwise_singleton _ _, fun r hr r' hr' => ?_⟩
    rw [List.mem_singleton.mp hr']
    exact h.past r hr
  · rw [hreadings] at hr
    rw [hclock]
    rcases List.mem_append.mp hr with hr | hr
    · exact h.past r hr
    · exact Int.le_of_eq (List.mem_singleton.mp hr)

theorem Clocked.print (h : Clocked calls t) (hcallback : t.processor.statsCallback = false)
    (hstats : t'.stats = (t.processor.putStats t.clock).2.metricsCollector)
    (hclock : t'.clock = t.clock) : Clocked (calls ++ [.printStats t.clock]) t' := by
  refine h.call rfl ?_ hclock
  rw [hstats, MessageProcessor.putStats, hcallback]
  rfl

/-- One step makes at most one call, and what it adds it adds now. -/
theorem step_clocked {a : ProcessorAction} (h : Clocked calls t)
    (hcallback : t.processor.statsCallback = false) (hstep : ProcessorStep t a t' fs) :
    ∃ calls', Clocked (calls ++ calls') t' ∧ added calls' = addedMessages fs
      ∧ addTimes calls' = (addedMessages fs).map fun _ => t.clock := by
  have hsame (hstats : t'.stats = t.stats) (hclock : t.clock ≤ t'.clock)
      (hfs : addedMessages fs = []) : ∃ calls', Clocked (calls ++ calls') t'
        ∧ added calls' = addedMessages fs
        ∧ addTimes calls' = (addedMessages fs).map fun _ => t.clock := by
    refine ⟨[], ?_, ?_, ?_⟩
    · rw [List.append_nil]
      exact h.same hstats hclock
    · rw [hfs]
      rfl
    · rw [hfs]
      rfl
  cases hstep with
  | tick d => exact hsame rfl (Int.le_add_of_nonneg_right (Int.natCast_nonneg d)) rfl
  | stop hpc =>
    refine hsame ?_ (Int.le_refl _) rfl
    simp only [ProcessorThreads.stats, MessageProcessor.stop]
    split
    · rfl
    · rfl
  | add message level hpc =>
    exact ⟨[.addMessage message level t.clock], h.call rfl rfl rfl, rfl, rfl⟩
  | receiverPut hpc => exact ⟨[.printStats t.clock], h.print hcallback rfl rfl, rfl, rfl⟩
  | timerPut now hpc => exact ⟨[.printStats t.clock], h.print hcallback rfl rfl, rfl, rfl⟩
  | _ => exact hsame rfl (Int.le_refl _) rfl

/-- Whoever prints, a message has been added. -/
theorem emits_added {events : List ProcessorEvent} {a : ProcessorAction} {thread : Thread}
    {output : Output} (hlast : LastInv events t) (hprints : ByThread events t)
    (htotal : t.stats.totalMessages = (addedMessages events).length)
    (hstep : ProcessorStep t a t' fs) (hmem : .emitted thread output ∈ fs) :
    addedMessages events ≠ [] := by
  cases hstep with
  | receiverPut hpc =>
    have hpos := (shouldPrintStats_iff.mp (hprints.put hpc)).1
    rw [htotal] at hpos
    exact List.length_pos_iff.mp hpos
  | timerPut now hpc => exact hlast.asked now hpc
  | _ => exact absurd hmem (by simp)

end Clock

/-! ## The application -/

/-- The reading of the clock for each message a step adds. -/
def addClock (s : MetricsApplication) (_ : ApplicationAction) (es : List ApplicationEvent) :
    List TimePoint :=
  (addedMessages (processorEvents es)).map fun _ => s.threads.clock

section Application

variable {N : Nat} {timeoutSeconds : Int} {now : TimePoint} {s s' : MetricsApplication}
  {as : List ApplicationAction} {es fs : List ApplicationEvent}

/-- A step of the application makes at most one call. -/
theorem step_clockedApplication {a : ApplicationAction} {calls : List CollectorCall}
    (h : Clocked calls s.threads) (hcallback : s.threads.processor.statsCallback = false)
    (hstep : ApplicationStep s a s' fs) :
    s'.threads.processor.statsCallback = false
      ∧ ∃ calls', Clocked (calls ++ calls') s'.threads
        ∧ added calls' = addedMessages (processorEvents fs) ∧ addTimes calls' = addClock s a fs := by
  have hquiet {s'' : MetricsApplication} (hthreads : s''.threads = s.threads)
      (hfs : processorEvents fs = []) :
      s''.threads.processor.statsCallback = false
        ∧ ∃ calls', Clocked (calls ++ calls') s''.threads
          ∧ added calls' = addedMessages (processorEvents fs) ∧ addTimes calls' = addClock s a fs := by
    rw [hthreads, addClock, hfs]
    exact ⟨hcallback, [], by rwa [List.append_nil], rfl, rfl⟩
  cases hstep with
  | result call server fs hresult hin hstep => exact hquiet rfl (processorEvents_fd fs)
  | server call pc server fs hcall hstep => exact hquiet rfl (processorEvents_fd fs)
  | threads _ action pc threads fs hmove hstep =>
    have hstep' := threadsStep_inv hstep
    refine ⟨(step_config hstep').callback.trans hcallback, ?_⟩
    rw [addClock, processorEvents_processor]
    exact step_clocked h hcallback hstep'
  | own isRunning pc hmove => exact hquiet rfl rfl
  | run hpc =>
    have hstart : s.threads.start.stats = s.threads.stats
        ∧ s.threads.start.processor.statsCallback = s.threads.processor.statsCallback := by
      simp only [ProcessorThreads.start, ProcessorThreads.stats, MessageProcessor.start]
      split
      · exact ⟨rfl, rfl⟩
      · exact ⟨rfl, rfl⟩
    refine ⟨hstart.2.trans hcallback, [], ?_, rfl, rfl⟩
    rw [List.append_nil]
    exact h.same hstart.1 (Int.le_refl _)

/-- The statistics along a run, and the times of the messages in them. -/
theorem run_clocked (hrun : metricsMachine.run (.created N timeoutSeconds now) as = some (s, es)) :
    s.threads.processor.statsCallback = false
      ∧ ∃ calls, Clocked calls s.threads ∧ added calls = addedMessages (processorEvents es)
        ∧ addTimes calls = metricsMachine.notes addClock (.created N timeoutSeconds now) as := by
  refine metricsMachine.run_induction (P := fun as s es =>
    s.threads.processor.statsCallback = false
      ∧ ∃ calls, Clocked calls s.threads ∧ added calls = addedMessages (processorEvents es)
        ∧ addTimes calls = metricsMachine.notes addClock (.created N timeoutSeconds now) as)
    ⟨rfl, [], ⟨rfl, List.Pairwise.nil, by simp [readings]⟩, rfl, rfl⟩ ?_ hrun
  intro as a s es s' fs hrun ih hstep
  obtain ⟨hcallback, calls, hclocked, hadded, htimes⟩ := ih
  obtain ⟨hcallback', calls', hclocked', hadded', htimes'⟩ :=
    step_clockedApplication hclocked hcallback (applicationStep_inv hstep)
  refine ⟨hcallback', calls ++ calls', hclocked', ?_, ?_⟩
  · rw [processorEvents_append, addedMessages_append, ← hadded, ← hadded']
    exact List.filterMap_append
  · rw [metricsMachine.notes_snoc addClock hrun hstep, ← htimes, ← htimes']
    exact List.filterMap_append

/-- Nothing is put out before there is a message. -/
theorem run_emits {a : ApplicationAction} {thread : Thread} {output : Output}
    (hrun : metricsMachine.run (.created N timeoutSeconds now) as = some (s, es))
    (hfew : (addedMessages (processorEvents es)).length < sizeMod)
    (hstep : ApplicationStep s a s' fs) (hmem : .emitted thread output ∈ processorEvents fs) :
    addedMessages (processorEvents es) ≠ []
      ∧ output = (s.threads.processor.putStats s.threads.clock).1 := by
  cases hstep with
  | threads _ action pc threads fs hmove hthreads =>
    rw [processorEvents_processor] at hmem
    have hthreads' := threadsStep_inv hthreads
    refine ⟨?_, (step_report hthreads' hmem).2⟩
    cases (run_projects hrun).2 with
    | unstarted hnot hevents hprocessor hreceiver htimer =>
      cases hthreads' with
      | receiverPut hpc => exact absurd (hreceiver.symm.trans hpc) (by simp)
      | timerPut now hpc => exact absurd (htimer.symm.trans hpc) (by simp)
      | _ => exact absurd hmem (by simp)
    | started time actions hyes hprocessor =>
      have hfresh : HasAdded [] (started N timeoutSeconds false now time).stats := ⟨[], rfl, rfl⟩
      have hlast : LastInv [] (started N timeoutSeconds false now time) :=
        ⟨.inl rfl, Nat.le_refl _, fun now h => absurd h (by simp [started])⟩
      exact emits_added (run_last hfresh rfl hlast hprocessor)
        (run_byThread hfresh rfl (started_byThread N timeoutSeconds false now time) hprocessor hfew)
        (run_total hfresh hprocessor hfew) hthreads' hmem
  | result call server fs hresult hin hstep =>
    rw [processorEvents_fd] at hmem
    exact absurd hmem List.not_mem_nil
  | server call pc server fs hcall hstep =>
    rw [processorEvents_fd] at hmem
    exact absurd hmem List.not_mem_nil
  | own isRunning pc hmove => exact absurd hmem List.not_mem_nil
  | run hpc => exact absurd hmem List.not_mem_nil

end Application

/-- **The text that `print_stats` writes is right.** Whatever the system calls
return and however the two threads interleave, each text of the statistics that
comes out reads back as the figures of the messages added so far, of which
there is at least one: their number, that of each level that has any, in the
order of the levels, the least and the greatest length, and the number of those
that were added in the last hour. What the receiver puts on the screen between
its lines is not part of the text. -/
theorem stats_shown (average : Float → Bytes) (N : Nat) (timeoutSeconds : Int) (now : TimePoint)
    (as : List ApplicationAction) (a : ApplicationAction) (s s' : MetricsApplication)
    (es fs : List ApplicationEvent) (thread : Thread) (output : Output)
    (hrun : metricsMachine.run (.created N timeoutSeconds now) as = some (s, es))
    (hstep : metricsMachine.step s a = some (s', fs))
    (hmem : .emitted thread output ∈ processorEvents fs)
    (hfew : (addedMessages (processorEvents es)).length < sizeMod) :
    ∃ report, output = .printed report
      ∧ addedMessages (processorEvents es) ≠ []
      ∧ readStats (statsText average report)
        = some (shownFigures (addedMessages (processorEvents es))
          ((metricsMachine.notes addClock (.created N timeoutSeconds now) as).countP
            fun added => decide (s.threads.clock - oneHour ≤ added))) := by
  obtain ⟨hcallback, calls, hclocked, hadded, htimes⟩ := run_clocked hrun
  obtain ⟨hsome, houtput⟩ := run_emits hrun hfew (applicationStep_inv hstep) hmem
  refine ⟨(printStats s.threads.clock s.threads.stats).1, ?_, hsome, ?_⟩
  · rw [houtput, MessageProcessor.putStats, hcallback]
    rfl
  · rw [← hadded] at hfew hsome
    rw [readStats_statsText average (printStats_names _ _), hclocked.stats,
      printStats_figures hfew hsome hclocked.sorted hclocked.past, hadded, addedInLastHour, htimes,
      List.countP_eq_length_filter]

theorem stats_shown_printed :
    ∃ s es s' fs thread report,
      metricsMachine.run (.created 1 5 0) (printedRun.take 28) = some (s, es)
        ∧ metricsMachine.step s .timer = some (s', fs)
        ∧ .emitted thread (.printed report) ∈ processorEvents fs
        ∧ readStats (statsText (fun _ => ascii "1.00") report) = some {
          totalMessages := 1
          messagesLastHour := 1
          messagesByLevel := [(ascii "INFO", 1)]
          lengths := some (1, 1) } := by
  obtain ⟨s, es, s', fs, output, hrun, hstep, hmem, hadded, hclock⟩ : ∃ s es s' fs output,
      metricsMachine.run (.created 1 5 0) (printedRun.take 28) = some (s, es)
        ∧ metricsMachine.step s .timer = some (s', fs)
        ∧ .emitted .timer output ∈ processorEvents fs
        ∧ addedMessages (processorEvents es) = [(ascii "a", .info)]
        ∧ s.threads.clock = 5000000000 :=
    ⟨_, _, _, _, _, rfl, rfl, List.mem_singleton_self _, by decide +kernel, rfl⟩
  obtain ⟨report, rfl, -, hread⟩ := stats_shown (fun _ => ascii "1.00") 1 5 0 (printedRun.take 28)
    .timer s s' es fs .timer output hrun hstep hmem (by rw [hadded]; decide)
  refine ⟨s, es, s', fs, .timer, report, hrun, hstep, hmem, ?_⟩
  rw [hread, hadded, hclock]
  decide +kernel

end LogMetrics.MetricsApplication
