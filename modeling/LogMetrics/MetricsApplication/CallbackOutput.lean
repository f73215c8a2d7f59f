import Mathlib.Data.List.Induction
import LogMetrics.MetricsApplication.ProcessorThreads

/-!
# The timeout with a stats callback

`has_stats_changed_since_last_print` compares the total with the total of the
last `print_stats`. With a stats callback installed nothing is ever printed,
so that total stays zero and the question is answered yes from the first
message on: the timer calls the callback again every `T` seconds
(`callback_repeated`), although the test in `stats_timer_thread` is there to
ask for a change.

`changed_between_iff`: the emissions of the timer are all preceded by a
message since the emission before exactly in the runs in which no iteration
of the timer comes `T` seconds after the last print time while the
statistics are `stale`.
-/

namespace LogMetrics.MetricsApplication

open LogMetrics.Base
open LogMetrics.Logger (LogLevel)
open MetricsCollector MessageProcessor

/-- The timer's emissions each come with a message counted since any emission
before. -/
def ChangedBetween (es : List ProcessorEvent) : Prop :=
  ∀ a thread o b o' c, es = a ++ .emitted thread o :: (b ++ .emitted .timer o' :: c) →
    addedMessages b ≠ []

/-- One event's effect on whether the statistics have come out and nothing was
counted since. -/
def staleStep (stale : Bool) : ProcessorEvent → Bool
  | .emitted _ _ => true
  | .added _ _ => false
  | _ => stale

/-- The statistics have come out, and nothing was counted since. -/
def stale (es : List ProcessorEvent) : Bool := es.foldl staleStep false

/-- The step is not an iteration of the timer that comes too late for stale
statistics. -/
def noStaleTimeout (es : List ProcessorEvent) (p : MessageProcessor) (call : ProcessorCall) :
    Bool :=
  match call with
  | .timer now _ =>
    !(decide (timeSinceLastPrint now p.lastStatsPrintTime ≥ p.timeoutSeconds) && stale es)
  | .message _ _ => true

/-- The event is an emission of the timer. -/
def ProcessorEvent.isTimeout : ProcessorEvent → Bool
  | .emitted .timer _ => true
  | _ => false

theorem stale_snoc (es : List ProcessorEvent) (e : ProcessorEvent) :
    stale (es ++ [e]) = staleStep (stale es) e := by
  simp [stale]

theorem stale_iff (es : List ProcessorEvent) :
    stale es = true ↔ ∃ a thread o b, es = a ++ .emitted thread o :: b ∧ addedMessages b = [] := by
  induction es using List.reverseRecOn with
  | nil =>
    constructor
    · intro h
      exact absurd h (by decide)
    · rintro ⟨a, thread, o, b, hsplit, -⟩
      exact absurd hsplit (by simp)
  | append_singleton es e ih =>
    -- the last event is the emission itself, or it is behind it
    have hsplit : (∃ a thread o b, es ++ [e] = a ++ .emitted thread o :: b ∧ addedMessages b = [])
        ↔ (∃ thread o, e = .emitted thread o)
          ∨ (stale es = true ∧ addedMessages [e] = []) := by
      rw [ih]
      constructor
      · rintro ⟨a, thread, o, b, hsplit, hb⟩
        rcases List.eq_nil_or_concat b with rfl | ⟨b, q, rfl⟩
        · exact .inl ⟨thread, o, List.singleton_inj.mp (List.append_inj' hsplit rfl).2⟩
        · rw [List.concat_eq_append] at hsplit hb
          rw [← List.cons_append, ← List.append_assoc] at hsplit
          obtain ⟨rfl, hq⟩ := List.append_inj' hsplit rfl
          obtain rfl := List.singleton_inj.mp hq
          rw [addedMessages_append, List.append_eq_nil_iff] at hb
          exact .inr ⟨⟨a, thread, o, b, rfl, hb.1⟩, hb.2⟩
      · rintro (⟨thread, o, rfl⟩ | ⟨⟨a, thread, o, b, rfl, hb⟩, he⟩)
        · exact ⟨es, thread, o, [], rfl, rfl⟩
        · refine ⟨a, thread, o, b ++ [e], by simp, ?_⟩
          rw [addedMessages_append, hb, he]
          rfl
    rw [hsplit, stale_snoc]
    cases e with
    | emitted thread o => simp [staleStep]
    | added message level => simp [staleStep, addedMessages]
    | log logMessage => simp [staleStep, addedMessages]
    | parseError text => simp [staleStep, addedMessages]
    | lastWritten thread time => simp [staleStep, addedMessages]

/-- Events that are no emissions of the timer do not break the law. -/
theorem ChangedBetween.append {es fs : List ProcessorEvent} (h : ChangedBetween es)
    (hfs : ∀ e ∈ fs, e.isTimeout = false) : ChangedBetween (es ++ fs) := by
  intro a thread o b o' c hsplit
  have hnot : ProcessorEvent.emitted .timer o' ∉ fs := fun hmem =>
    absurd (hfs _ hmem) (by simp [ProcessorEvent.isTimeout])
  rw [← List.cons_append, ← List.append_assoc] at hsplit
  -- the later emission lies behind `es`, which is excluded, or in it
  rcases List.append_eq_append_iff.mp hsplit with ⟨m, -, hm⟩ | ⟨m, hm, hc⟩
  · exact absurd (by rw [hm]; simp) hnot
  · cases m with
    | nil => exact absurd (by rw [← List.nil_append fs, ← hc]; simp) hnot
    | cons e m =>
      obtain ⟨rfl, -⟩ := List.cons.inj hc
      exact h a thread o b o' m (by rw [hm]; simp)

/-- An emission of the timer keeps the law when the statistics are not
stale. -/
theorem ChangedBetween.snoc {es : List ProcessorEvent} (h : ChangedBetween es) {o' : Output}
    (hstale : stale es = false) : ChangedBetween (es ++ [.emitted .timer o']) := by
  intro a thread o b o'' c hsplit
  rw [← List.cons_append, ← List.append_assoc] at hsplit
  rcases List.eq_nil_or_concat c with rfl | ⟨c, q, rfl⟩
  · obtain ⟨rfl, -⟩ := List.append_inj' hsplit rfl
    intro hb
    have := (stale_iff _).mpr ⟨a, thread, o, b, rfl, hb⟩
    rw [hstale] at this
    exact absurd this (by decide)
  · rw [List.concat_eq_append, ← List.cons_append, ← List.append_assoc] at hsplit
    obtain ⟨rfl, -⟩ := List.append_inj' hsplit rfl
    exact h a thread o b o'' c (by simp)

/-- Stale statistics and an emission of the timer break the law. -/
theorem not_changedBetween {es fs : List ProcessorEvent} {o' : Output} (hstale : stale es = true) :
    ¬ChangedBetween (es ++ .emitted .timer o' :: fs) := by
  obtain ⟨a, thread, o, b, rfl, hb⟩ := (stale_iff es).mp hstale
  intro h
  exact h a thread o b o' fs (by simp) hb

/-! ## Calls with a callback installed -/

theorem checkCount_callback {p : MessageProcessor} (h : p.statsCallback = true)
    (clock : Readings) :
    p.checkCount clock =
      if shouldPrintStats p.messageInterval p.metricsCollector then
        ({ p with lastStatsPrintTime := clock.finished },
          [.emitted .receiver .callback, .lastWritten .receiver clock.finished])
      else (p, []) := by
  rw [checkCount, putStats, if_pos h]

theorem timerIteration_callback {p : MessageProcessor} (h : p.statsCallback = true)
    (now printed : TimePoint) :
    p.timerIteration now printed =
      if timeSinceLastPrint now p.lastStatsPrintTime ≥ p.timeoutSeconds
          && hasStatsChangedSinceLastPrint p.metricsCollector then
        ({ p with lastStatsPrintTime := now },
          [.emitted .timer .callback, .lastWritten .timer now])
      else (p, []) := by
  rw [timerIteration, putStats, if_pos h]

/-- What a call can do with a callback installed. -/
inductive CallbackStep (p : MessageProcessor) :
    ProcessorCall → MessageProcessor → List ProcessorEvent → Prop
  | reject (logMessage text : Bytes) (clock : Readings) :
      CallbackStep p (.message logMessage clock) p [.log logMessage, .parseError text]
  | accept (logMessage message : Bytes) (level : LogLevel) (clock : Readings) :
      CallbackStep p (.message logMessage clock)
        { p with
          metricsCollector := addMessage message level clock.added p.metricsCollector
          lastStatsPrintTime := clock.reset }
        [.log logMessage, .added message level, .lastWritten .receiver clock.reset]
  | due (logMessage message : Bytes) (level : LogLevel) (clock : Readings) :
      CallbackStep p (.message logMessage clock)
        { p with
          metricsCollector := addMessage message level clock.added p.metricsCollector
          lastStatsPrintTime := clock.finished }
        [.log logMessage, .added message level, .lastWritten .receiver clock.reset,
          .emitted .receiver .callback, .lastWritten .receiver clock.finished]
  | quiet (now printed : TimePoint) : CallbackStep p (.timer now printed) p []
  | timeout (now printed : TimePoint)
      (hlate : timeSinceLastPrint now p.lastStatsPrintTime ≥ p.timeoutSeconds) :
      hasStatsChangedSinceLastPrint p.metricsCollector = true →
      CallbackStep p (.timer now printed) { p with lastStatsPrintTime := now }
        [.emitted .timer .callback, .lastWritten .timer now]

theorem callbackStep_inv {p p' : MessageProcessor} {call : ProcessorCall}
    {fs : List ProcessorEvent} (hcallback : p.statsCallback = true)
    (hstep : callMachine.step p call = some (p', fs)) : CallbackStep p call p' fs := by
  cases call with
  | message logMessage clock =>
    have hcall : p.processMessage logMessage clock = (p', fs) := Option.some.inj hstep
    unfold processMessage at hcall
    split at hcall
    next text hparse =>
      cases hcall
      exact .reject logMessage text clock
    next message level hparse =>
      dsimp only at hcall
      rw [checkCount_callback (p := { p with
        metricsCollector := addMessage message level clock.added p.metricsCollector
        lastStatsPrintTime := clock.reset }) hcallback] at hcall
      by_cases hdue : shouldPrintStats p.messageInterval
          (addMessage message level clock.added p.metricsCollector) = true
      · rw [if_pos hdue] at hcall
        cases hcall
        exact .due logMessage message level clock
      · rw [if_neg hdue] at hcall
        cases hcall
        exact .accept logMessage message level clock
  | timer now printed =>
    have hcall := (callMachine_timer hstep).2
    rw [timerIteration_callback hcallback] at hcall
    split at hcall
    next htest =>
      cases hcall
      simp only [Bool.and_eq_true, decide_eq_true_eq] at htest
      exact .timeout now printed htest.1 htest.2
    next =>
      cases hcall
      exact .quiet now printed

/-! ## The law -/

/-- Nothing is ever printed, and statistics that have come out are those of
some message. -/
structure CallbackInv (es : List ProcessorEvent) (p : MessageProcessor) : Prop where
  callback : p.statsCallback = true
  unprinted : p.metricsCollector.lastPrintedTotalMessages = 0
  total : p.metricsCollector.totalMessages = (addedMessages es).length % sizeMod
  counted : stale es = true → addedMessages es ≠ []

variable {p p' : MessageProcessor} {call : ProcessorCall} {es fs : List ProcessorEvent}

theorem stale_append (es fs : List ProcessorEvent) :
    stale (es ++ fs) = fs.foldl staleStep (stale es) := List.foldl_append ..

/-- With nothing ever printed, "changed" says that there is a message. -/
theorem CallbackInv.changed_iff (h : CallbackInv es p) :
    hasStatsChangedSinceLastPrint p.metricsCollector = true
      ↔ (addedMessages es).length % sizeMod ≠ 0 := by
  rw [hasStatsChangedSinceLastPrint, h.unprinted, h.total, bne_iff_ne]

/-- A call that adds a message. -/
theorem CallbackInv.add (h : CallbackInv es p) {message : Bytes} {level : LogLevel}
    (hfs : addedMessages fs = [(message, level)]) (time last : TimePoint) :
    CallbackInv (es ++ fs) { p with
      metricsCollector := addMessage message level time p.metricsCollector
      lastStatsPrintTime := last } := by
  refine ⟨h.callback, h.unprinted, ?_, fun _ => ?_⟩
  · rw [addedMessages_append, hfs, List.length_append]
    show sizeAdd p.metricsCollector.totalMessages 1 = _
    rw [sizeAdd, h.total, Nat.mod_add_mod]
    rfl
  · rw [addedMessages_append, hfs]
    simp

theorem step_callback (h : CallbackInv es p) (hstep : CallbackStep p call p' fs) :
    CallbackInv (es ++ fs) p' := by
  cases hstep with
  | reject logMessage text clock =>
    refine ⟨h.callback, h.unprinted, ?_, fun hs => ?_⟩
    · rw [addedMessages_append_quiet es rfl]
      exact h.total
    · rw [addedMessages_append_quiet es rfl]
      rw [stale_append] at hs
      exact h.counted hs
  | accept logMessage message level clock => exact h.add rfl _ _
  | due logMessage message level clock => exact h.add rfl _ _
  | quiet now printed =>
    rw [List.append_nil]
    exact h
  | timeout now printed hlate hchanged =>
    refine ⟨h.callback, h.unprinted, ?_, fun _ => ?_⟩
    · rw [addedMessages_append_quiet es rfl]
      exact h.total
    · rw [addedMessages_append_quiet es rfl]
      intro hnil
      exact h.changed_iff.mp hchanged (by rw [hnil]; rfl)

/-- One call keeps the law, when it is not a late iteration of the timer with
stale statistics. -/
theorem step_changed (h : ChangedBetween es) (hstep : CallbackStep p call p' fs)
    (hfresh : noStaleTimeout es p call = true) : ChangedBetween (es ++ fs) := by
  cases hstep with
  | reject logMessage text clock => exact h.append (by simp [ProcessorEvent.isTimeout])
  | accept logMessage message level clock => exact h.append (by simp [ProcessorEvent.isTimeout])
  | due logMessage message level clock => exact h.append (by simp [ProcessorEvent.isTimeout])
  | quiet now printed => exact h.append (by simp)
  | timeout now printed hlate hchanged =>
    have hstale : stale es = false := by
      simpa [noStaleTimeout, hlate] using hfresh
    rw [show [ProcessorEvent.emitted .timer .callback, .lastWritten .timer now]
      = [.emitted .timer .callback] ++ [.lastWritten .timer now] from rfl, ← List.append_assoc]
    exact (h.snoc hstale).append (by simp [ProcessorEvent.isTimeout])

theorem run_callback {p₀ : MessageProcessor} {calls : List ProcessorCall}
    (h₀ : CallbackInv [] p₀) (hrun : callMachine.run p₀ calls = some (p, es)) :
    CallbackInv es p :=
  callMachine.run_induction (P := fun _ p es => CallbackInv es p) h₀
    (fun _ _ _ _ _ _ _ h hstep => step_callback h (callbackStep_inv h.callback hstep)) hrun

theorem run_changed {p₀ : MessageProcessor} {calls : List ProcessorCall}
    (h₀ : CallbackInv [] p₀) (hrun : callMachine.run p₀ calls = some (p, es))
    (hfresh : callMachine.StepsMeet (fun es p call => noStaleTimeout es p call = true) p₀ calls) :
    ChangedBetween es := by
  refine callMachine.run_induction
    (P := fun calls _ es =>
      callMachine.StepsMeet (fun es p call => noStaleTimeout es p call = true) p₀ calls →
      ChangedBetween es) ?_ ?_ hrun hfresh
  · intro _ a thread o b o' c hsplit
    exact absurd hsplit (by simp)
  · intro calls call p es p' fs hrun ih hstep hfresh
    have hcallback := (run_callback h₀ hrun).callback
    exact step_changed (ih hfresh.init) (callbackStep_inv hcallback hstep)
      (hfresh.last callMachine hrun)

/-- A late iteration of the timer with stale statistics puts them out again. -/
theorem timeout_of_stale (h : CallbackInv es p) (hfew : (addedMessages es).length < sizeMod)
    (hstep : callMachine.step p call = some (p', fs))
    (hfresh : ¬noStaleTimeout es p call = true) : ¬ChangedBetween (es ++ fs) := by
  cases call with
  | message logMessage clock => exact absurd rfl hfresh
  | timer now printed =>
    simp only [noStaleTimeout, Bool.not_eq_true', Bool.not_eq_false, Bool.and_eq_true,
      decide_eq_true_eq] at hfresh
    obtain ⟨hlate, hstale⟩ := hfresh
    -- what has come out is of some message, and no print has recorded it
    have hchanged : hasStatsChangedSinceLastPrint p.metricsCollector = true := by
      rw [h.changed_iff, Nat.mod_eq_of_lt hfew]
      exact fun hzero => h.counted hstale (List.length_eq_zero_iff.mp hzero)
    have hcall := (callMachine_timer hstep).2
    rw [timerIteration_callback h.callback, if_pos (by simp [hlate, hchanged])] at hcall
    cases hcall
    exact not_changedBetween hstale

/-- **With a callback the timeout waits for a change exactly in the runs in
which no iteration of the timer is late for stale statistics.** -/
theorem changed_between_iff (N : Nat) (timeoutSeconds : Int) (created now : TimePoint)
    (calls : List ProcessorCall)
    (hrun : callMachine.run (.started N timeoutSeconds true created now) calls = some (p, es)) :
    (callMachine.StepsMeet (fun es p call => noStaleTimeout es p call = true)
        (.started N timeoutSeconds true created now) calls → ChangedBetween es)
      ∧ ((addedMessages es).length < sizeMod → ChangedBetween es →
        callMachine.StepsMeet (fun es p call => noStaleTimeout es p call = true)
          (.started N timeoutSeconds true created now) calls) := by
  have h₀ : CallbackInv [] (.started N timeoutSeconds true created now) :=
    ⟨rfl, rfl, rfl, fun h => absurd h (by decide)⟩
  refine ⟨run_changed h₀ hrun, fun hfew hchanged pre call post hsplit p₁ es₁ hpre => ?_⟩
  subst hsplit
  obtain ⟨p₂, es₂, es₃, hpre', hrest, rfl⟩ := callMachine.run_append_inv hrun
  rw [hpre] at hpre'
  cases hpre'
  obtain ⟨p₃, fs, es₄, hstep, -, rfl⟩ := callMachine.run_cons_inv hrest
  by_contra hfresh
  have hfew₁ : (addedMessages es₁).length < sizeMod := by
    rw [addedMessages_append, List.length_append] at hfew
    omega
  refine timeout_of_stale (run_callback h₀ hpre) hfew₁ hstep hfresh ?_
  intro a thread o b o' c hb
  exact hchanged a thread o b o' (c ++ es₄) (by rw [← List.append_assoc, hb]; simp)

/-- With `N` = 10 and `T` = 1 a message, and at each of the next seconds an
iteration of the timer: the second finds nothing new. -/
def oneMessageTwoTimeouts : List ProcessorCall :=
  [.message (ascii "[t] [INFO] a") ⟨0, 0, 0, 0⟩, .timer 1000000000 1000000000,
    .timer 2000000000 2000000000]

theorem callback_repeated :
    ∃ p es, callMachine.run (.started 10 1 true 0 0) oneMessageTwoTimeouts = some (p, es)
      ∧ ¬ChangedBetween es := by
  refine ⟨_, _, rfl, fun h => ?_⟩
  exact h [.log (ascii "[t] [INFO] a"), .added (ascii "a") .info, .lastWritten .receiver 0] .timer
    .callback [.lastWritten .timer 1000000000] .callback [.lastWritten .timer 2000000000] rfl rfl

/-- A second message between the two iterations. -/
def twoMessagesTwoTimeouts : List ProcessorCall :=
  [.message (ascii "[t] [INFO] a") ⟨0, 0, 0, 0⟩, .timer 1000000000 1000000000,
    .message (ascii "[t] [INFO] b") ⟨1500000000, 1500000000, 1500000000, 1500000000⟩,
    .timer 2500000000 2500000000]

theorem changed_between_messages :
    ∃ p es, callMachine.run (.started 10 1 true 0 0) twoMessagesTwoTimeouts = some (p, es)
      ∧ ChangedBetween es :=
  ⟨_, _, rfl, (changed_between_iff 10 1 0 0 twoMessagesTwoTimeouts rfl).1
    (callMachine.stepsMeet_of_checkSteps noStaleTimeout (by decide))⟩

end LogMetrics.MetricsApplication
