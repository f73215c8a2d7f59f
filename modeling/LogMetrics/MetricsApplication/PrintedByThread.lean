import LogMetrics.MetricsApplication.PrintedTotals

/-!
# Which thread prints which total

The two threads may print one total each (`total_printed_twice`), and that is
the worst of it. The receiver's prints do not depend on the timer: behind `k`
messages it has printed `N`, `2 * N` and so on, every multiple up to `k` once.
The timer asks before it prints whether the total has changed, and nobody but
the receiver changes it, so the timer never prints one twice either, although
the answer can be out of date when it prints. And what is printed are the
figures of the messages added up to then (`run_reports`).
-/

namespace LogMetrics.MetricsApplication

open LogMetrics.Base
open MetricsCollector ProcessorThreads

/-- The total a thread prints. -/
def ProcessorEvent.printedBy? (thread : Thread) : ProcessorEvent → Option Nat
  | .emitted thread' (.printed report) =>
    if thread' = thread then some report.totalMessages else none
  | _ => none

/-- The totals one thread printed, in order. -/
def printedBy (thread : Thread) (es : List ProcessorEvent) : List Nat :=
  es.filterMap (ProcessorEvent.printedBy? thread)

/-- The first `count` multiples of `N`. -/
def multiples (N count : Nat) : List Nat := (List.range count).map fun i => (i + 1) * N

/-- The prints of the receiver so far: it may not have come to the one for
the message it has just added. -/
def ProcessorThreads.printsDone (s : ProcessorThreads) : Nat :=
  if s.receiver.beforePut then (s.stats.totalMessages - 1) / s.processor.messageInterval
  else s.stats.totalMessages / s.processor.messageInterval

namespace ProcessorThreads

variable {s s' : ProcessorThreads}

theorem printsDone_before (h : s.receiver.beforePut = true) :
    s.printsDone = (s.stats.totalMessages - 1) / s.processor.messageInterval := if_pos h

theorem printsDone_past (h : s.receiver.beforePut = false) :
    s.printsDone = s.stats.totalMessages / s.processor.messageInterval := if_neg (by simp [h])

theorem printsDone_congr (hreceiver : s'.receiver.beforePut = s.receiver.beforePut)
    (htotal : s'.stats.totalMessages = s.stats.totalMessages)
    (hinterval : s'.processor.messageInterval = s.processor.messageInterval) :
    s'.printsDone = s.printsDone := by
  rw [printsDone, printsDone, hreceiver, htotal, hinterval]

end ProcessorThreads

theorem printedBy_append (thread : Thread) (es fs : List ProcessorEvent) :
    printedBy thread (es ++ fs) = printedBy thread es ++ printedBy thread fs :=
  List.filterMap_append

theorem multiples_succ (N count : Nat) :
    multiples N (count + 1) = multiples N count ++ [(count + 1) * N] := by
  rw [multiples, List.range_succ, List.map_append]
  rfl

theorem multiples_pairwise {N : Nat} (hN : 0 < N) (count : Nat) :
    (multiples N count).Pairwise (· < ·) := by
  rw [multiples, List.pairwise_map]
  refine List.pairwise_lt_range.imp fun {i j} hlt => ?_
  exact Nat.mul_lt_mul_of_pos_right (by omega) hN

theorem printedBy_put {p : MessageProcessor} (h : p.statsCallback = false) (now : TimePoint)
    (thread thread' : Thread) :
    printedBy thread [.emitted thread' (p.putStats now).1]
      = if thread' = thread then [p.metricsCollector.totalMessages] else [] := by
  unfold MessageProcessor.putStats
  rw [h]
  cases thread' <;> cases thread <;> rfl

/-- A total printed was printed by one of the threads. -/
theorem count_printedTotals (es : List ProcessorEvent) (n : Nat) :
    (printedTotals es).count n = (printedBy .receiver es).count n
      + (printedBy .timer es).count n := by
  induction es with
  | nil => rfl
  | cons e es ih =>
    have hone : (printedTotals [e]).count n = (printedBy .receiver [e]).count n
        + (printedBy .timer [e]).count n := by
      cases e with
      | emitted thread output =>
        cases output with
        | callback => rfl
        | printed report => cases thread <;> simp [printedTotals, printedBy, ProcessorEvent.printedBy?]
      | _ => rfl
    have hcons (thread : Thread) :
        printedBy thread (e :: es) = printedBy thread [e] ++ printedBy thread es :=
      printedBy_append thread [e] es
    rw [show printedTotals (e :: es) = printedTotals [e] ++ printedTotals es from
        printedTotals_append [e] es, hcons, hcons]
    simp only [List.count_append]
    omega

theorem mem_printedTotals {thread : Thread} {es : List ProcessorEvent} {n : Nat}
    (h : n ∈ printedBy thread es) : n ∈ printedTotals es := by
  rw [← List.count_pos_iff] at h ⊢
  rw [count_printedTotals]
  cases thread <;> omega

/-- Without a multiple of `N` in between the quotient stays. -/
theorem pred_div {N k : Nat} (hpos : 0 < k) (hne : k % N ≠ 0) : (k - 1) / N = k / N := by
  obtain ⟨j, rfl⟩ : ∃ j, k = j + 1 := ⟨k - 1, by omega⟩
  rw [Nat.succ_div, if_neg fun hdvd => hne (Nat.mod_eq_zero_of_dvd hdvd)]
  rfl

/-- At a multiple of `N` it is one more, and the multiple is that many. -/
theorem pred_div_succ {N k : Nat} (hpos : 0 < k) (hmod : k % N = 0) :
    (k - 1) / N + 1 = k / N ∧ ((k - 1) / N + 1) * N = k := by
  have hdvd := Nat.dvd_of_mod_eq_zero hmod
  have hone : (k - 1) / N + 1 = k / N := by
    obtain ⟨j, rfl⟩ : ∃ j, k = j + 1 := ⟨k - 1, by omega⟩
    rw [Nat.succ_div, if_pos hdvd]
    rfl
  refine ⟨hone, ?_⟩
  rw [hone]
  exact Nat.div_mul_cancel hdvd

/-! ## The invariant -/

structure ByThread (es : List ProcessorEvent) (s : ProcessorThreads) : Prop where
  ordered : (printedTotals es).Pairwise (· ≤ ·)
  le_last : ∀ n ∈ printedTotals es, n ≤ s.stats.lastPrintedTotalMessages
  last_le : s.stats.lastPrintedTotalMessages ≤ s.stats.totalMessages
  positive : s.receiver.beforePut = true → 0 < s.stats.totalMessages
  put : s.receiver = .put → shouldPrintStats s.processor.messageInterval s.stats = true
  receiver : printedBy .receiver es = multiples s.processor.messageInterval s.printsDone
  timer : (printedBy .timer es).Pairwise (· < ·)
  asked : ∀ now, s.timer = .put now → ∀ n ∈ printedBy .timer es, n < s.stats.totalMessages

variable {es fs : List ProcessorEvent} {s s' : ProcessorThreads}

theorem shouldPrintStats_iff {N : Nat} {stats : MessageStats} :
    shouldPrintStats N stats = true ↔ 0 < stats.totalMessages ∧ stats.totalMessages % N = 0 := by
  simp [shouldPrintStats]

/-- What is printed is at most the total. -/
theorem ByThread.le_total (h : ByThread es s) {thread : Thread} {n : Nat}
    (hn : n ∈ printedBy thread es) : n ≤ s.stats.totalMessages :=
  Nat.le_trans (h.le_last n (mem_printedTotals hn)) h.last_le

/-- A step that prints nothing, leaves the totals alone and lets the receiver
owe what it owed. -/
theorem ByThread.quiet (h : ByThread es s) (hfs : printedTotals fs = [])
    (hconfig : SameConfig s.processor s'.processor)
    (htotal : s'.stats.totalMessages = s.stats.totalMessages)
    (hlast : s'.stats.lastPrintedTotalMessages = s.stats.lastPrintedTotalMessages)
    (hbefore : s'.receiver.beforePut = true → s.receiver.beforePut = true)
    (hput : s'.receiver = .put → shouldPrintStats s.processor.messageInterval s.stats = true)
    (hdone : s'.printsDone = s.printsDone)
    (hasked : ∀ now, s'.timer = .put now →
      (∃ now', s.timer = .put now') ∨ hasStatsChangedSinceLastPrint s.stats = true) :
    ByThread (es ++ fs) s' := by
  have hnone (thread : Thread) : printedBy thread (es ++ fs) = printedBy thread es := by
    have hempty : printedBy thread fs = [] := by
      refine List.eq_nil_iff_forall_not_mem.mpr fun n hn => ?_
      have hmem := mem_printedTotals hn
      rw [hfs] at hmem
      exact absurd hmem List.not_mem_nil
    rw [printedBy_append, hempty, List.append_nil]
  have htotals : printedTotals (es ++ fs) = printedTotals es := by
    rw [printedTotals_append, hfs, List.append_nil]
  refine ⟨?_, ?_, ?_, fun hb => ?_, fun hpc => ?_, ?_, ?_, fun now hpc => ?_⟩
  · rw [htotals]
    exact h.ordered
  · rw [htotals, hlast]
    exact h.le_last
  · rw [hlast, htotal]
    exact h.last_le
  · rw [htotal]
    exact h.positive (hbefore hb)
  · rw [hconfig.interval, shouldPrintStats_congr htotal]
    exact hput hpc
  · rw [hnone, hdone, hconfig.interval]
    exact h.receiver
  · rw [hnone]
    exact h.timer
  · rw [hnone, htotal]
    rcases hasked now hpc with ⟨now', hpc'⟩ | hchanged
    · exact h.asked now' hpc'
    · -- the total is above the last one printed, and so above all of them
      have hne : s.stats.totalMessages ≠ s.stats.lastPrintedTotalMessages := by
        simpa [hasStatsChangedSinceLastPrint] using hchanged
      intro n hn
      have hle := h.le_last n (mem_printedTotals hn)
      have hlast := h.last_le
      omega

/-- The totals behind a print. -/
theorem ByThread.ordered_print (h : ByThread es s)
    (hfs : printedTotals fs = [s.stats.totalMessages]) :
    (printedTotals (es ++ fs)).Pairwise (· ≤ ·)
      ∧ ∀ n ∈ printedTotals (es ++ fs), n ≤ s.stats.totalMessages := by
  have hold : ∀ n ∈ printedTotals es, n ≤ s.stats.totalMessages := fun n hn =>
    Nat.le_trans (h.le_last n hn) h.last_le
  rw [printedTotals_append, hfs]
  refine ⟨?_, fun n hn => ?_⟩
  · rw [List.pairwise_append]
    refine ⟨h.ordered, List.pairwise_singleton _ _, fun n hn m hm => ?_⟩
    rw [List.mem_singleton.mp hm]
    exact hold n hn
  · rcases List.mem_append.mp hn with hn | hn
    · exact hold n hn
    · rw [List.mem_singleton.mp hn]

/-- One step, when the total does not wrap. -/
theorem step_byThread {a : ProcessorAction} (h : ByThread es s)
    (hcallback : s.processor.statsCallback = false)
    (htotal : s.stats.totalMessages = (addedMessages es).length)
    (hfew : (addedMessages (es ++ fs)).length < sizeMod) (hstep : ProcessorStep s a s' fs) :
    ByThread (es ++ fs) s' := by
  have hconfig := step_config hstep
  have hinterval := hconfig.interval
  have hsame : ∀ now, s.timer = .put now →
      (∃ now', s.timer = .put now') ∨ hasStatsChangedSinceLastPrint s.stats = true :=
    fun now hpc => .inl ⟨now, hpc⟩
  cases hstep with
  | tick d => exact h.quiet rfl hconfig rfl rfl id h.put rfl hsame
  | stop hpc =>
    have hstats : s.processor.stop.metricsCollector = s.processor.metricsCollector := by
      unfold MessageProcessor.stop
      split <;> rfl
    have htotal' : s.processor.stop.metricsCollector.totalMessages = s.stats.totalMessages := by
      rw [hstats]
    exact h.quiet rfl hconfig htotal' (by rw [ProcessorThreads.stats, hstats]) id h.put
      (printsDone_congr rfl htotal' hinterval) hsame
  | reject p text hpc hparse => exact h.quiet rfl hconfig rfl rfl id h.put rfl hsame
  | accept p message level hpc hparse =>
    exact h.quiet rfl hconfig rfl rfl (fun hb => absurd hb (by simp [ReceiverPc.beforePut]))
      (fun hpc => absurd hpc (by simp)) (printsDone_congr (by rw [hpc]; rfl) rfl rfl) hsame
  | receiverMove pc hmove =>
    cases hmove with
    | readReset hpc =>
      exact h.quiet rfl hconfig rfl rfl (fun _ => by rw [hpc]; rfl)
        (fun hpc => absurd hpc (by simp)) (printsDone_congr (by rw [hpc]; rfl) rfl rfl) hsame
    | due hpc hdue =>
      exact h.quiet rfl hconfig rfl rfl (fun _ => by rw [hpc]; rfl) (fun _ => hdue)
        (printsDone_congr (by rw [hpc]; rfl) rfl rfl) hsame
    | notDue hpc hdue =>
      have hpos := h.positive (by rw [hpc]; rfl)
      have hne : s.stats.totalMessages % s.processor.messageInterval ≠ 0 := by
        intro hmod
        rw [shouldPrintStats_iff.mpr ⟨hpos, hmod⟩] at hdue
        exact absurd hdue (by simp)
      refine h.quiet rfl hconfig rfl rfl (fun hb => absurd hb (by simp [ReceiverPc.beforePut]))
        (fun hpc => absurd hpc (by simp)) ?_ hsame
      rw [printsDone_before (s := s) (by rw [hpc]; rfl), printsDone_past rfl]
      exact (pred_div hpos hne).symm
    | readFinished hpc =>
      exact h.quiet rfl hconfig rfl rfl (fun hb => absurd hb (by simp [ReceiverPc.beforePut]))
        (fun hpc => absurd hpc (by simp)) (printsDone_congr (by rw [hpc]; rfl) rfl rfl) hsame
  | add message level hpc =>
    have hadd : sizeAdd s.stats.totalMessages 1 = s.stats.totalMessages + 1 := by
      refine sizeAdd_eq ?_
      rw [addedMessages_append, List.length_append, ← htotal] at hfew
      exact hfew
    have hnone (thread : Thread) :
        printedBy thread (es ++ [.added message level]) = printedBy thread es := by
      rw [printedBy_append]
      exact List.append_nil _
    have htotals : printedTotals (es ++ [.added message level]) = printedTotals es := by
      rw [printedTotals_append]
      exact List.append_nil _
    have hlast := h.last_le
    refine ⟨?_, ?_, ?_, fun _ => ?_, fun hpc => absurd hpc (by simp), ?_, ?_, fun now hput => ?_⟩
    · rw [htotals]
      exact h.ordered
    · rw [htotals]
      exact h.le_last
    · show s.stats.lastPrintedTotalMessages ≤ sizeAdd s.stats.totalMessages 1
      omega
    · show 0 < sizeAdd s.stats.totalMessages 1
      omega
    · -- the print for this message is still to come
      rw [hnone, h.receiver, printsDone_past (by rw [hpc]; rfl), printsDone_before rfl]
      show _ = multiples _ ((sizeAdd s.stats.totalMessages 1 - 1) / _)
      rw [hadd, Nat.add_sub_cancel]
    · rw [hnone]
      exact h.timer
    · rw [hnone]
      intro n hn
      have hle := h.le_total hn
      show n < sizeAdd s.stats.totalMessages 1
      omega
  | writeReset now hpc =>
    exact h.quiet rfl hconfig rfl rfl (fun _ => by rw [hpc]; rfl)
      (fun hpc => absurd hpc (by simp)) (printsDone_congr (by rw [hpc]; rfl) rfl rfl) hsame
  | receiverPut hpc =>
    obtain ⟨hprinted, hlast⟩ := putStats_print hcallback s.clock .receiver
    have hother : printedBy .timer (es ++ [.emitted .receiver (s.processor.putStats s.clock).1])
        = printedBy .timer es := by
      rw [printedBy_append, printedBy_put hcallback]
      exact List.append_nil _
    obtain ⟨hpos, hmod⟩ := shouldPrintStats_iff.mp (h.put hpc)
    obtain ⟨hsucc, hmul⟩ := pred_div_succ hpos hmod
    have htot := (s.processor.putStats_spec s.clock).1
    obtain ⟨hordered, hle⟩ := h.ordered_print hprinted
    refine ⟨hordered, ?_, ?_, fun hb => absurd hb (by simp [ReceiverPc.beforePut]),
      fun hpc => absurd hpc (by simp), ?_, ?_, fun now hput => ?_⟩
    · rw [ProcessorThreads.stats, hlast]
      exact hle
    · rw [ProcessorThreads.stats, hlast]
      exact Nat.le_of_eq htot.symm
    · rw [printedBy_append, printedBy_put hcallback, h.receiver,
        printsDone_before (by rw [hpc]; rfl), printsDone_past rfl]
      show _ = multiples (s.processor.putStats s.clock).2.messageInterval
        ((s.processor.putStats s.clock).2.metricsCollector.totalMessages
          / (s.processor.putStats s.clock).2.messageInterval)
      have hinterval' : (s.processor.putStats s.clock).2.messageInterval
        = s.processor.messageInterval := hinterval
      rw [hinterval', htot, ← hsucc, multiples_succ, hmul]
      rfl
    · rw [hother]
      exact h.timer
    · rw [hother]
      show ∀ n ∈ printedBy .timer es, n < (s.processor.putStats s.clock).2.metricsCollector.totalMessages
      rw [htot]
      exact h.asked now hput
  | writeFinished now hpc =>
    exact h.quiet rfl hconfig rfl rfl (fun hb => absurd hb (by simp [ReceiverPc.beforePut]))
      (fun hpc => absurd hpc (by simp)) (printsDone_congr (by rw [hpc]; rfl) rfl rfl) hsame
  | timerMove pc hmove =>
    refine h.quiet rfl hconfig rfl rfl id h.put rfl fun now hput => ?_
    cases hmove with
    | changed now hpc hchanged => exact .inr hchanged
    | _ => exact absurd hput (by simp)
  | timerPut now hpc =>
    obtain ⟨hprinted, hlast⟩ := putStats_print hcallback s.clock .timer
    have hother : printedBy .receiver (es ++ [.emitted .timer (s.processor.putStats s.clock).1])
        = printedBy .receiver es := by
      rw [printedBy_append, printedBy_put hcallback]
      exact List.append_nil _
    have htot := (s.processor.putStats_spec s.clock).1
    obtain ⟨hordered, hle⟩ := h.ordered_print hprinted
    refine ⟨hordered, ?_, ?_, fun hb => ?_, fun hput => ?_, ?_, ?_,
      fun now hput => absurd hput (by simp)⟩
    · rw [ProcessorThreads.stats, hlast]
      exact hle
    · rw [ProcessorThreads.stats, hlast]
      exact Nat.le_of_eq htot.symm
    · rw [ProcessorThreads.stats, htot]
      exact h.positive hb
    · rw [hinterval, shouldPrintStats_congr htot]
      exact h.put hput
    · have hdone : ProcessorThreads.printsDone { s with
          processor := (s.processor.putStats s.clock).2
          timer := .writeLast now } = s.printsDone := printsDone_congr rfl htot hinterval
      rw [hother, h.receiver, hinterval, hdone]
    · -- the timer was told that the total had changed, and it has not gone down
      rw [printedBy_append, printedBy_put hcallback, if_pos rfl, List.pairwise_append]
      refine ⟨h.timer, List.pairwise_singleton _ _, fun n hn m hm => ?_⟩
      rw [List.mem_singleton.mp hm]
      exact h.asked now hpc n hn
  | writeLast now hpc =>
    exact h.quiet rfl hconfig rfl rfl id h.put rfl fun now hpc => absurd hpc (by simp)

theorem started_byThread (N : Nat) (timeoutSeconds : Int) (statsCallback : Bool)
    (created now : TimePoint) :
    ByThread [] (started N timeoutSeconds statsCallback created now) := by
  refine ⟨List.Pairwise.nil, by simp [printedTotals], Nat.le_refl _,
    fun hb => absurd hb (by simp [started, ReceiverPc.beforePut]),
    fun hpc => absurd hpc (by simp [started]), ?_, List.Pairwise.nil,
    fun now hpc => absurd hpc (by simp [started])⟩
  rw [printsDone_past rfl]
  show [] = multiples _ (0 / _)
  rw [Nat.zero_div]
  rfl

theorem run_byThread {s₀ : ProcessorThreads} {as : List ProcessorAction}
    (h₀ : HasAdded [] s₀.stats) (hcallback : s₀.processor.statsCallback = false)
    (hprints : ByThread [] s₀) (hrun : processorMachine.run s₀ as = some (s, es))
    (hfew : (addedMessages es).length < sizeMod) : ByThread es s := by
  refine processorMachine.run_induction
    (P := fun _ s es => (addedMessages es).length < sizeMod → ByThread es s)
    (fun _ => hprints) ?_ hrun hfew
  intro as a s es s' fs hrun ih hstep hfew
  have hfew' : (addedMessages es).length < sizeMod := by
    rw [addedMessages_append, List.length_append] at hfew
    omega
  exact step_byThread (ih hfew') ((run_collector h₀ hrun).1.callback.trans hcallback)
    (run_total h₀ hrun hfew') hfew (processorStep_inv hstep)

/-! ## The figures printed -/

/-- Every report shows the figures of the messages added before it. -/
theorem run_reports {s₀ : ProcessorThreads} {as : List ProcessorAction}
    (h₀ : HasAdded [] s₀.stats) (hcallback : s₀.processor.statsCallback = false)
    (hrun : processorMachine.run s₀ as = some (s, es)) {pre post : List ProcessorEvent}
    {thread : Thread} {output : Output} (hsplit : es = pre ++ .emitted thread output :: post) :
    ∃ time calls, added calls = addedMessages pre
      ∧ output = .printed (printStats time (runCalls calls)).1 := by
  obtain ⟨time, calls, hadded, houtput⟩ := run_outputs h₀ hrun hsplit
  rw [hcallback] at houtput
  exact ⟨time, calls, hadded, houtput⟩

/-- What is printed behind `started`, when the total does not wrap. -/
structure PrintedWell (N : Nat) (es : List ProcessorEvent) (s : ProcessorThreads) : Prop where
  ordered : (printedTotals es).Pairwise (· ≤ ·)
  twice : ∀ n, (printedTotals es).count n ≤ 2
  receiver : s.receiver = .idle →
    printedBy .receiver es = multiples N ((addedMessages es).length / N)
  timer : (printedBy .timer es).Pairwise (· < ·)
  reports : ∀ pre thread output post, es = pre ++ .emitted thread output :: post →
    ∃ time calls, added calls = addedMessages pre
      ∧ output = .printed (printStats time (runCalls calls)).1

/-- **Who prints which totals.** The totals never go down, and none comes out
more than twice: the receiver has printed `N`, `2 * N` and so on, each
multiple of `N` up to the number of messages once, and the timer's totals
increase. Every report shows the figures of the messages added before it. -/
theorem printed_by_thread {N : Nat} (hN : 0 < N) {timeoutSeconds : Int} {created now : TimePoint}
    {as : List ProcessorAction}
    (hrun : processorMachine.run (started N timeoutSeconds false created now) as = some (s, es))
    (hfew : (addedMessages es).length < sizeMod) : PrintedWell N es s := by
  have hfresh : HasAdded [] (started N timeoutSeconds false created now).stats := ⟨[], rfl, rfl⟩
  obtain ⟨hconfig, -⟩ := run_collector hfresh hrun
  have hinterval : s.processor.messageInterval = N := hconfig.interval
  have h := run_byThread hfresh rfl (started_byThread N timeoutSeconds false created now) hrun hfew
  have hreceiver := h.receiver
  rw [hinterval] at hreceiver
  refine ⟨h.ordered, fun n => ?_, fun hidle => ?_, h.timer,
    fun pre thread output post hsplit => run_reports hfresh rfl hrun hsplit⟩
  · have honce {l : List Nat} (hl : l.Pairwise (· < ·)) : l.count n ≤ 1 :=
      List.nodup_iff_count.mp (hl.imp Nat.ne_of_lt) n
    have htimer := honce h.timer
    have hmultiples := honce (multiples_pairwise hN s.printsDone)
    rw [count_printedTotals, hreceiver]
    omega
  · rw [hreceiver, printsDone_past (by rw [hidle]; rfl), hinterval, run_total hfresh hrun hfew]

end LogMetrics.MetricsApplication
