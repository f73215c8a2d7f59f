import LogMetrics.MetricsApplication.ProcessorThreads

/-!
# Which totals are printed

Without a stats callback both threads print, and both ask the collector first:
the receiver whether the total is a multiple of `N`, the timer whether it has
changed since the last print. The question and the print are two sections of
`stats_mutex_`, so the other thread can print in between and the same total
comes out twice (`total_printed_twice`).

What the timer's print needs is that its question would still be answered the
same, and that the receiver is not on its way to a print for this very total
(`timerPrintsAlone`). In runs where it has that, the totals printed increase
(`PrintInv`): whenever the receiver is past its `add_message` and will print,
its total has not been printed yet (`due`). A timer's print without it is
always the start of a repetition (`repeats`).
-/

namespace LogMetrics.MetricsApplication

open LogMetrics.Base
open MetricsCollector ProcessorThreads

/-- The totals printed, in order. -/
def printedTotals (es : List ProcessorEvent) : List Nat :=
  es.filterMap fun
    | .emitted _ (.printed report) => some report.totalMessages
    | _ => none

theorem printedTotals_append (es fs : List ProcessorEvent) :
    printedTotals (es ++ fs) = printedTotals es ++ printedTotals fs := List.filterMap_append

/-- The receiver has added a message, and has not printed for it. -/
def ReceiverPc.beforePut : ReceiverPc → Bool
  | .readReset => true
  | .writeReset _ => true
  | .checkCount => true
  | .put => true
  | _ => false

/-- The receiver has added a message, and it will print for it. -/
def ProcessorThreads.printDue (s : ProcessorThreads) : Bool :=
  s.receiver.beforePut && shouldPrintStats s.processor.messageInterval s.stats

/-- The step is not a print of the timer, or the statistics have changed since
the last print and the receiver is not about to print them. -/
def timerPrintsAlone (_ : List ProcessorEvent) (s : ProcessorThreads) (a : ProcessorAction) :
    Bool :=
  match a, s.timer with
  | .timer, .put _ => hasStatsChangedSinceLastPrint s.stats && !s.printDue
  | _, _ => true

/-- A print reports the total and records it as printed. -/
theorem putStats_print {p : MessageProcessor} (h : p.statsCallback = false) (now : TimePoint)
    (thread : Thread) :
    printedTotals [.emitted thread (p.putStats now).1] = [p.metricsCollector.totalMessages]
      ∧ (p.putStats now).2.metricsCollector.lastPrintedTotalMessages
        = p.metricsCollector.totalMessages := by
  unfold MessageProcessor.putStats
  rw [h]
  exact ⟨rfl, rfl⟩

/-- Whether the total is due for a print depends on the total alone. -/
theorem shouldPrintStats_congr {N : Nat} {stats stats' : MessageStats}
    (h : stats'.totalMessages = stats.totalMessages) :
    shouldPrintStats N stats' = shouldPrintStats N stats := by
  rw [shouldPrintStats, shouldPrintStats, h]

/-! ## The invariant -/

structure PrintInv (es : List ProcessorEvent) (s : ProcessorThreads) : Prop where
  increasing : (printedTotals es).Pairwise (· < ·)
  le_last : ∀ n ∈ printedTotals es, n ≤ s.stats.lastPrintedTotalMessages
  last_le : s.stats.lastPrintedTotalMessages ≤ s.stats.totalMessages
  due : s.printDue = true → s.stats.lastPrintedTotalMessages < s.stats.totalMessages
  put : s.receiver = .put → shouldPrintStats s.processor.messageInterval s.stats = true

variable {es fs : List ProcessorEvent} {s s' : ProcessorThreads}

theorem printDue_iff : s.printDue = true ↔ s.receiver.beforePut = true
    ∧ shouldPrintStats s.processor.messageInterval s.stats = true := by
  rw [ProcessorThreads.printDue, Bool.and_eq_true]

/-- A step that leaves the totals alone and does not bring the receiver nearer
to a print than it was. -/
theorem PrintInv.quiet (h : PrintInv es s) (hfs : printedTotals fs = [])
    (hconfig : SameConfig s.processor s'.processor)
    (htotal : s'.stats.totalMessages = s.stats.totalMessages)
    (hlast : s'.stats.lastPrintedTotalMessages = s.stats.lastPrintedTotalMessages)
    (hbefore : s'.receiver.beforePut = true → s.receiver.beforePut = true)
    (hput : s'.receiver = .put → shouldPrintStats s.processor.messageInterval s.stats = true) :
    PrintInv (es ++ fs) s' := by
  have hshould : shouldPrintStats s'.processor.messageInterval s'.stats
      = shouldPrintStats s.processor.messageInterval s.stats := by
    rw [hconfig.interval]
    exact shouldPrintStats_congr htotal
  refine ⟨?_, ?_, ?_, fun hdue => ?_, fun hpc => ?_⟩
  · rw [printedTotals_append, hfs, List.append_nil]
    exact h.increasing
  · rw [printedTotals_append, hfs, List.append_nil, hlast]
    exact h.le_last
  · rw [hlast, htotal]
    exact h.last_le
  · obtain ⟨hb, hs⟩ := printDue_iff.mp hdue
    rw [hlast, htotal]
    exact h.due (printDue_iff.mpr ⟨hbefore hb, hshould ▸ hs⟩)
  · rw [hshould]
    exact hput hpc

/-- A print of a total that is above the last one printed. -/
theorem PrintInv.print (h : PrintInv es s)
    (hlt : s.stats.lastPrintedTotalMessages < s.stats.totalMessages)
    (hfs : printedTotals fs = [s.stats.totalMessages])
    (htotal : s'.stats.totalMessages = s.stats.totalMessages)
    (hlast : s'.stats.lastPrintedTotalMessages = s.stats.totalMessages)
    (hdue : s'.printDue = false) (hput : s'.receiver ≠ .put) : PrintInv (es ++ fs) s' := by
  have hold : ∀ n ∈ printedTotals es, n < s.stats.totalMessages := fun n hn =>
    Nat.lt_of_le_of_lt (h.le_last n hn) hlt
  refine ⟨?_, ?_, ?_, fun hd => ?_, fun hpc => absurd hpc hput⟩
  · rw [printedTotals_append, hfs, List.pairwise_append]
    refine ⟨h.increasing, List.pairwise_singleton _ _, fun n hn m hm => ?_⟩
    rw [List.mem_singleton.mp hm]
    exact hold n hn
  · rw [printedTotals_append, hfs, hlast]
    intro n hn
    rcases List.mem_append.mp hn with hn | hn
    · exact Nat.le_of_lt (hold n hn)
    · rw [List.mem_singleton.mp hn]
  · rw [hlast, htotal]
  · rw [hdue] at hd
    exact absurd hd (by simp)

/-- One step, when the timer prints alone and the total does not wrap. -/
theorem step_print {a : ProcessorAction} (h : PrintInv es s)
    (hcallback : s.processor.statsCallback = false)
    (htotal : s.stats.totalMessages = (addedMessages es).length)
    (hfew : (addedMessages (es ++ fs)).length < sizeMod)
    (halone : timerPrintsAlone es s a = true) (hstep : ProcessorStep s a s' fs) :
    PrintInv (es ++ fs) s' := by
  have hconfig := step_config hstep
  cases hstep with
  | tick d => exact h.quiet rfl hconfig rfl rfl id h.put
  | stop hpc =>
    have hstats : s.processor.stop.metricsCollector = s.processor.metricsCollector := by
      unfold MessageProcessor.stop
      split <;> rfl
    exact h.quiet rfl hconfig (by rw [ProcessorThreads.stats, hstats])
      (by rw [ProcessorThreads.stats, hstats]) id h.put
  | reject p text hpc hparse => exact h.quiet rfl hconfig rfl rfl id h.put
  | accept p message level hpc hparse =>
    exact h.quiet rfl hconfig rfl rfl (fun hb => absurd hb (by simp [ReceiverPc.beforePut]))
      (fun hpc => absurd hpc (by simp))
  | receiverMove pc hmove =>
    cases hmove with
    | readReset hpc =>
      exact h.quiet rfl hconfig rfl rfl (fun _ => by rw [hpc]; rfl) (fun hpc => absurd hpc (by simp))
    | due hpc hdue => exact h.quiet rfl hconfig rfl rfl (fun _ => by rw [hpc]; rfl) (fun _ => hdue)
    | notDue hpc hdue =>
      exact h.quiet rfl hconfig rfl rfl (fun hb => absurd hb (by simp [ReceiverPc.beforePut]))
        (fun hpc => absurd hpc (by simp))
    | readFinished hpc =>
      exact h.quiet rfl hconfig rfl rfl (fun hb => absurd hb (by simp [ReceiverPc.beforePut]))
        (fun hpc => absurd hpc (by simp))
  | add message level hpc =>
    -- the new total has not been printed, whoever asks
    have hadd : sizeAdd s.stats.totalMessages 1 = s.stats.totalMessages + 1 := by
      refine sizeAdd_eq ?_
      rw [addedMessages_append, List.length_append, ← htotal] at hfew
      exact hfew
    have hlast := h.last_le
    refine ⟨?_, ?_, ?_, fun _ => ?_, fun hpc => absurd hpc (by simp)⟩
    · rw [printedTotals_append]
      exact (List.append_nil _).symm ▸ h.increasing
    · rw [printedTotals_append]
      exact (List.append_nil _).symm ▸ h.le_last
    · show s.stats.lastPrintedTotalMessages ≤ sizeAdd s.stats.totalMessages 1
      omega
    · show s.stats.lastPrintedTotalMessages < sizeAdd s.stats.totalMessages 1
      omega
  | writeReset now hpc =>
    exact h.quiet rfl hconfig rfl rfl (fun _ => by rw [hpc]; rfl) (fun hpc => absurd hpc (by simp))
  | receiverPut hpc =>
    obtain ⟨hprinted, hlast⟩ := putStats_print hcallback s.clock .receiver
    have hdue : s.printDue = true := printDue_iff.mpr ⟨by rw [hpc]; rfl, h.put hpc⟩
    exact h.print (h.due hdue) hprinted (s.processor.putStats_spec s.clock).1 hlast rfl (by simp)
  | writeFinished now hpc =>
    exact h.quiet rfl hconfig rfl rfl (fun hb => absurd hb (by simp [ReceiverPc.beforePut]))
      (fun hpc => absurd hpc (by simp))
  | timerMove pc hmove => exact h.quiet rfl hconfig rfl rfl id h.put
  | timerPut now hpc =>
    obtain ⟨hprinted, hlast⟩ := putStats_print hcallback s.clock .timer
    have htot := (s.processor.putStats_spec s.clock).1
    simp only [timerPrintsAlone, hpc, Bool.and_eq_true, Bool.not_eq_true'] at halone
    obtain ⟨hchanged, hnotDue⟩ := halone
    -- the answer "changed" still holds, so this total is new
    have hlt : s.stats.lastPrintedTotalMessages < s.stats.totalMessages := by
      have hne : s.stats.totalMessages ≠ s.stats.lastPrintedTotalMessages := by
        simpa [hasStatsChangedSinceLastPrint] using hchanged
      have := h.last_le
      omega
    have hdue : ProcessorThreads.printDue { s with
        processor := (s.processor.putStats s.clock).2
        timer := .writeLast now } = false := by
      rw [← hnotDue]
      unfold ProcessorThreads.printDue
      rw [hconfig.interval, shouldPrintStats_congr htot]
    -- a receiver about to print would be due
    refine h.print hlt hprinted htot hlast hdue fun hput => ?_
    rw [ProcessorThreads.printDue, show s.receiver = .put from hput] at hnotDue
    rw [h.put hput] at hnotDue
    exact absurd hnotDue (by simp [ReceiverPc.beforePut])
  | writeLast now hpc => exact h.quiet rfl hconfig rfl rfl id h.put

theorem started_print (N : Nat) (timeoutSeconds : Int) (statsCallback : Bool)
    (created now : TimePoint) : PrintInv [] (started N timeoutSeconds statsCallback created now) :=
  ⟨List.Pairwise.nil, fun n hn => absurd hn List.not_mem_nil, Nat.le_refl _,
    fun h => absurd h (by simp [printDue_iff, started, ReceiverPc.beforePut]),
    fun h => absurd h (by simp [started])⟩

/-- The total along a run, as long as it does not wrap. -/
theorem run_total {s₀ : ProcessorThreads} {as : List ProcessorAction}
    (h₀ : HasAdded [] s₀.stats) (hrun : processorMachine.run s₀ as = some (s, es))
    (hfew : (addedMessages es).length < sizeMod) :
    s.stats.totalMessages = (addedMessages es).length := by
  rw [(run_collector h₀ hrun).2.total, Nat.mod_eq_of_lt hfew]

theorem run_print {s₀ : ProcessorThreads} {as : List ProcessorAction}
    (h₀ : HasAdded [] s₀.stats) (hcallback : s₀.processor.statsCallback = false)
    (hprint : PrintInv [] s₀) (hrun : processorMachine.run s₀ as = some (s, es))
    (hfew : (addedMessages es).length < sizeMod)
    (halone : processorMachine.StepsMeet (fun es s a => timerPrintsAlone es s a = true) s₀ as) :
    PrintInv es s := by
  refine processorMachine.run_induction
    (P := fun as s es => (addedMessages es).length < sizeMod →
      processorMachine.StepsMeet (fun es s a => timerPrintsAlone es s a = true) s₀ as →
      PrintInv es s) (fun _ _ => hprint) ?_ hrun hfew halone
  intro as a s es s' fs hrun ih hstep hfew halone
  have hfew' : (addedMessages es).length < sizeMod := by
    rw [addedMessages_append, List.length_append] at hfew
    omega
  exact step_print (ih hfew' halone.init)
    ((run_collector h₀ hrun).1.callback.trans hcallback) (run_total h₀ hrun hfew') hfew
    (halone.last processorMachine hrun) (processorStep_inv hstep)

/-! ## What a print that is not alone leads to -/

/-- The receiver, going on alone, prints the present total. -/
def WillPrint (s : ProcessorThreads) : Prop :=
  ∃ count s' fs, processorMachine.run s (List.replicate count .receiver) = some (s', fs)
    ∧ printedTotals fs = [s.stats.totalMessages]

theorem WillPrint.step (h : WillPrint s') (hstep : processorMachine.step s .receiver = some (s', fs))
    (hfs : printedTotals fs = []) (htotal : s'.stats.totalMessages = s.stats.totalMessages) :
    WillPrint s := by
  obtain ⟨count, s'', gs, hrun, hprinted⟩ := h
  refine ⟨count + 1, s'', fs ++ gs, processorMachine.run_cons hstep hrun, ?_⟩
  rw [printedTotals_append, hfs, hprinted, htotal]
  rfl

/-- A receiver that is past its `add_message` with a total due for a print
goes on to print it. -/
theorem willPrint_of_due (hcallback : s.processor.statsCallback = false)
    (hdue : s.printDue = true) : WillPrint s := by
  obtain ⟨p, clock, receiver, timer⟩ := s
  obtain ⟨hbefore, hshould⟩ := printDue_iff.mp hdue
  have hput : ∀ p' : MessageProcessor, p'.statsCallback = false →
      WillPrint ⟨p', clock, .put, timer⟩ := fun p' hp' =>
    ⟨1, _, _, processorMachine.run_cons rfl rfl, (putStats_print hp' clock .receiver).1⟩
  have hcheck : ∀ last, WillPrint ⟨{ p with lastStatsPrintTime := last }, clock, .checkCount, timer⟩ :=
    fun last => by
      have hstep : processorMachine.step
            ⟨{ p with lastStatsPrintTime := last }, clock, .checkCount, timer⟩ .receiver
          = some (⟨{ p with lastStatsPrintTime := last }, clock, .put, timer⟩, []) :=
        if_pos hshould
      exact (hput { p with lastStatsPrintTime := last } hcallback).step hstep rfl rfl
  have hwrite : ∀ now, WillPrint ⟨p, clock, .writeReset now, timer⟩ := fun now =>
    (hcheck now).step rfl rfl rfl
  cases receiver with
  | readReset => exact (hwrite clock).step rfl rfl rfl
  | writeReset now => exact hwrite now
  | checkCount => exact hcheck p.lastStatsPrintTime
  | put => exact hput p hcallback
  | idle => exact absurd hbefore (by simp [ReceiverPc.beforePut])
  | add message level => exact absurd hbefore (by simp [ReceiverPc.beforePut])
  | readFinished => exact absurd hbefore (by simp [ReceiverPc.beforePut])
  | writeFinished now => exact absurd hbefore (by simp [ReceiverPc.beforePut])

/-- The total last printed is in the trace, and the timer does not print
before there is a message. -/
structure LastInv (es : List ProcessorEvent) (s : ProcessorThreads) : Prop where
  recorded : s.stats.lastPrintedTotalMessages = 0
    ∨ s.stats.lastPrintedTotalMessages ∈ printedTotals es
  last_le : s.stats.lastPrintedTotalMessages ≤ (addedMessages es).length
  asked : ∀ now, s.timer = .put now → addedMessages es ≠ []

/-- A step that does not print. -/
theorem LastInv.quiet (h : LastInv es s)
    (hlast : s'.stats.lastPrintedTotalMessages = s.stats.lastPrintedTotalMessages)
    (hput : ∀ now, s'.timer = .put now → addedMessages es ≠ []) : LastInv (es ++ fs) s' := by
  refine ⟨?_, ?_, fun now hpc hnil => ?_⟩
  · rw [hlast, printedTotals_append, List.mem_append]
    exact h.recorded.imp_right .inl
  · rw [hlast, addedMessages_append, List.length_append]
    have := h.last_le
    omega
  · rw [addedMessages_append] at hnil
    exact hput now hpc (List.append_eq_nil_iff.mp hnil).1

/-- A step that prints. -/
theorem LastInv.print (h : LastInv es s)
    (htotal : s.stats.totalMessages ≤ (addedMessages es).length)
    (hfs : printedTotals fs = [s.stats.totalMessages])
    (hlast : s'.stats.lastPrintedTotalMessages = s.stats.totalMessages)
    (hput : ∀ now, s'.timer = .put now → s.timer = .put now) : LastInv (es ++ fs) s' := by
  refine ⟨?_, ?_, fun now hpc hnil => ?_⟩
  · rw [hlast, printedTotals_append, hfs]
    exact .inr (List.mem_append_right _ (List.mem_singleton.mpr rfl))
  · rw [hlast, addedMessages_append, List.length_append]
    omega
  · rw [addedMessages_append] at hnil
    exact h.asked now (hput now hpc) (List.append_eq_nil_iff.mp hnil).1

theorem step_last {a : ProcessorAction} (h : LastInv es s)
    (hcallback : s.processor.statsCallback = false)
    (htotal : s.stats.totalMessages = (addedMessages es).length % sizeMod)
    (hstep : ProcessorStep s a s' fs) : LastInv (es ++ fs) s' := by
  have hle : s.stats.totalMessages ≤ (addedMessages es).length := by
    rw [htotal]
    exact Nat.mod_le _ _
  cases hstep with
  | stop hpc =>
    refine h.quiet ?_ h.asked
    show s.processor.stop.metricsCollector.lastPrintedTotalMessages = _
    unfold MessageProcessor.stop
    split <;> rfl
  | receiverPut hpc =>
    obtain ⟨hprinted, hlast⟩ := putStats_print hcallback s.clock .receiver
    exact h.print hle hprinted hlast fun now hpc => hpc
  | timerPut now hpc =>
    obtain ⟨hprinted, hlast⟩ := putStats_print hcallback s.clock .timer
    exact h.print hle hprinted hlast fun now hpc => absurd hpc (by simp)
  | timerMove pc hmove =>
    refine h.quiet rfl fun now' hput hnil => ?_
    cases hmove with
    | changed now hpc hchanged =>
      -- with nothing added yet both totals are zero
      have hlast := h.last_le
      rw [hnil, List.length_nil] at hlast hle
      have hne : s.stats.totalMessages ≠ s.stats.lastPrintedTotalMessages := by
        simpa [hasStatsChangedSinceLastPrint] using hchanged
      omega
    | enter hpc hrunning => exact absurd hput (by simp)
    | leave hpc hstopped => exact absurd hput (by simp)
    | read hpc => exact absurd hput (by simp)
    | late now hpc hlate => exact absurd hput (by simp)
    | early now hpc hearly => exact absurd hput (by simp)
    | unchanged now hpc hsame => exact absurd hput (by simp)
  | writeLast now hpc => exact h.quiet rfl fun now hpc => absurd hpc (by simp)
  | _ => exact h.quiet rfl h.asked

theorem run_last {s₀ : ProcessorThreads} {as : List ProcessorAction}
    (h₀ : HasAdded [] s₀.stats) (hcallback : s₀.processor.statsCallback = false)
    (hlast : LastInv [] s₀) (hrun : processorMachine.run s₀ as = some (s, es)) : LastInv es s := by
  refine processorMachine.run_induction (P := fun _ s es => LastInv es s) hlast ?_ hrun
  intro as a s es s' fs hrun ih hstep
  obtain ⟨hconfig, hadded⟩ := run_collector h₀ hrun
  exact step_last ih (hconfig.callback.trans hcallback) hadded.total (processorStep_inv hstep)

/-- A list in which `n` is followed by `n` does not increase. -/
theorem not_increasing {l₁ l₂ : List Nat} {n : Nat} (h₁ : n ∈ l₁) (h₂ : n ∈ l₂) :
    ¬(l₁ ++ l₂).Pairwise (· < ·) := fun h =>
  Nat.lt_irrefl n ((List.pairwise_append.mp h).2.2 n h₁ n h₂)

/-- A print of the timer that is not alone repeats a total, or the receiver's
print behind it does. -/
theorem repeats {s₀ : ProcessorThreads} {as : List ProcessorAction}
    (h₀ : HasAdded [] s₀.stats) (hcallback : s₀.processor.statsCallback = false)
    (hlast : LastInv [] s₀) (hrun : processorMachine.run s₀ as = some (s, es))
    (hfew : (addedMessages es).length < sizeMod) {a : ProcessorAction}
    (halone : ¬timerPrintsAlone es s a = true) :
    ∃ count s' fs,
      processorMachine.run s₀ (as ++ a :: List.replicate count .receiver) = some (s', fs)
      ∧ ¬(printedTotals fs).Pairwise (· < ·) := by
  have hinv := run_last h₀ hcallback hlast hrun
  have hcallback' := (run_collector h₀ hrun).1.callback.trans hcallback
  have htotal := run_total h₀ hrun hfew
  unfold timerPrintsAlone at halone
  split at halone
  next now hpc =>
    obtain ⟨hprinted, -⟩ := putStats_print hcallback' s.clock .timer
    have hstep : processorMachine.step s .timer
        = some ({ s with processor := (s.processor.putStats s.clock).2, timer := .writeLast now },
          [.emitted .timer (s.processor.putStats s.clock).1]) := by
      show s.stepTimer = _
      rw [stepTimer, hpc]
    by_cases hchanged : hasStatsChangedSinceLastPrint s.stats = true
    · -- the receiver goes on to print the total the timer has just printed
      have hdue : s.printDue = true := by simpa [hchanged] using halone
      obtain ⟨hbefore, hshould⟩ := printDue_iff.mp hdue
      have htot := (s.processor.putStats_spec s.clock).1
      obtain ⟨count, s', fs, hrest, hprinted'⟩ := willPrint_of_due (s := { s with
          processor := (s.processor.putStats s.clock).2, timer := .writeLast now })
        ((s.processor.putStats_spec s.clock).2.2.2.2.2.trans hcallback')
        (printDue_iff.mpr ⟨hbefore, by
          rw [(s.processor.putStats_spec s.clock).2.1, shouldPrintStats_congr htot]
          exact hshould⟩)
      refine ⟨count, s', _, processorMachine.run_append hrun
        (processorMachine.run_cons hstep hrest), ?_⟩
      rw [← List.append_assoc, printedTotals_append, printedTotals_append, hprinted]
      refine not_increasing (List.mem_append_right _ (List.mem_singleton.mpr rfl)) ?_
      rw [hprinted', ← htot]
      exact List.mem_singleton.mpr rfl
    · -- nothing has changed: the timer's own print is the repetition
      have hsame : s.stats.totalMessages = s.stats.lastPrintedTotalMessages := by
        simpa [hasStatsChangedSinceLastPrint] using hchanged
      have hpos : s.stats.totalMessages ≠ 0 := by
        rw [htotal]
        exact fun hzero => hinv.asked now hpc (List.length_eq_zero_iff.mp hzero)
      refine ⟨0, _, _, processorMachine.run_append hrun
        (processorMachine.run_cons hstep rfl), ?_⟩
      rw [List.append_nil, printedTotals_append, hprinted]
      refine not_increasing ?_ (List.mem_singleton.mpr rfl)
      rcases hinv.recorded with hzero | hmem
      · exact absurd (hsame.trans hzero) hpos
      · rw [hsame]
        exact hmem
  next => exact absurd rfl halone

/-! ## The totals printed -/

/-- The timer prints alone along the whole run. -/
abbrev RunsAlone (s₀ : ProcessorThreads) (as : List ProcessorAction) : Prop :=
  processorMachine.StepsMeet (fun es s a => timerPrintsAlone es s a = true) s₀ as

/-- **The totals printed increase in every run in which the timer prints
alone.** Where it does not, its first print of that kind repeats a total, at
once or with the print to which the receiver is on its way: the run up to that
print, continued by the receiver alone, prints a total twice. -/
theorem printed_totals_increasing (N : Nat) (timeoutSeconds : Int) (created now : TimePoint)
    (as : List ProcessorAction)
    (hrun : processorMachine.run (started N timeoutSeconds false created now) as = some (s, es))
    (hfew : (addedMessages es).length < sizeMod) :
    (RunsAlone (started N timeoutSeconds false created now) as →
      (printedTotals es).Pairwise (· < ·))
    ∧ (¬RunsAlone (started N timeoutSeconds false created now) as →
      ∃ pre a post s₁ es₁, as = pre ++ a :: post
        ∧ processorMachine.run (started N timeoutSeconds false created now) pre = some (s₁, es₁)
        ∧ RunsAlone (started N timeoutSeconds false created now) pre
        ∧ timerPrintsAlone es₁ s₁ a = false
        ∧ ∃ count s' fs, processorMachine.run (started N timeoutSeconds false created now)
            (pre ++ a :: List.replicate count .receiver) = some (s', fs)
          ∧ ¬(printedTotals fs).Pairwise (· < ·)) := by
  have hfresh : HasAdded [] (started N timeoutSeconds false created now).stats := ⟨[], rfl, rfl⟩
  refine ⟨fun halone => ?_, fun hnot => ?_⟩
  · exact (run_print hfresh rfl (started_print N timeoutSeconds false created now) hrun hfew
      halone).increasing
  · obtain ⟨pre, a, post, s₁, es₁, -, -, rfl, hpre, hmeet, halone, -⟩ :=
      processorMachine.exists_first hrun hnot
    have hfew₁ : (addedMessages es₁).length < sizeMod := by
      obtain ⟨s₂, es₂, es₃, hpre', -, rfl⟩ := processorMachine.run_append_inv hrun
      rw [hpre] at hpre'
      cases hpre'
      rw [addedMessages_append, List.length_append] at hfew
      omega
    have hlast : LastInv [] (started N timeoutSeconds false created now) :=
      ⟨.inl rfl, Nat.le_refl _, fun now h => absurd h (by simp [started])⟩
    exact ⟨pre, a, post, s₁, es₁, rfl, hpre, hmeet, by simpa using halone,
      repeats hfresh rfl hlast hpre hfew₁ halone⟩

/-- The receiver prints for two messages, and the timer for a third. -/
def aloneSchedule : List ProcessorAction :=
  [.receive (ascii "[t] [INFO] a"), .receiver, .receiver, .receiver, .receiver,
    .receive (ascii "[t] [INFO] b"), .receiver, .receiver, .receiver, .receiver, .receiver,
    .receiver, .receiver, .receive (ascii "[t] [INFO] c"), .receiver, .receiver, .receiver,
    .receiver, .tick 1000000000, .timer, .timer, .timer, .timer, .timer, .timer]

theorem printed_totals_alone :
    ∃ s es, processorMachine.run (started 2 1 false 0 0) aloneSchedule = some (s, es)
      ∧ (printedTotals es).Pairwise (· < ·) :=
  ⟨_, _, rfl, (printed_totals_increasing 2 1 0 0 aloneSchedule rfl (by decide)).1
    (processorMachine.stepsMeet_of_checkSteps timerPrintsAlone (by decide))⟩

/-- A message arrives between the timer's clock reading and its question: the
timer prints it, and so does the receiver. -/
def bothPrint : List ProcessorAction :=
  [.tick 1000000000, .timer, .timer, .timer, .receive (ascii "[t] [INFO] a"), .receiver, .timer,
    .timer, .receiver, .receiver, .receiver, .receiver]

theorem total_printed_twice :
    ∃ s es, processorMachine.run (started 1 1 false 0 0) bothPrint = some (s, es)
      ∧ printedTotals es = [1, 1] ∧ ¬(printedTotals es).Pairwise (· < ·) :=
  ⟨_, _, rfl, by decide, by decide⟩

end LogMetrics.MetricsApplication
