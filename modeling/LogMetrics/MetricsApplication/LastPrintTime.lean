import LogMetrics.MetricsApplication.ProcessorThreads

/-!
# The inactivity timer

`last_stats_print_time_` is written by both threads, each time with a clock
reading taken some steps before. The timer's reading is the oldest: it is
taken at the top of an iteration and written back behind the test, the
question and the print. What `process_message` writes in between is lost
(`last_set_back`), and the next iteration counts its timeout from the older
instant; and the print comes all the same, however short a time ago the reset
was.

In no run is a reading ahead of the clock (`run_behind`). A thread is *late*
when it is bound to write a reading older than what is there, or when the
timer has passed its test and is still to print, and the timeout has not gone
by since a reset. `writesInOrder` asks of each write, and of each test passed,
that it leaves no thread late. In runs whose steps all do (`RunsInOrder`) the
value never decreases, and behind every reset the timer leaves the timeout
before it prints (`TimerKept`). The first step that does not can be continued,
in the timer's present iteration, to a step that sets the value back or prints
too early (`late_breaks`).
-/

namespace LogMetrics.MetricsApplication

open LogMetrics.Base
open LogMetrics.Logger (LogLevel)
open MetricsCollector ProcessorThreads

/-- `last_stats_print_time_`. -/
abbrev ProcessorThreads.last (s : ProcessorThreads) : TimePoint := s.processor.lastStatsPrintTime

/-- The timeout, in the unit of the clock. -/
abbrev ProcessorThreads.timeout (s : ProcessorThreads) : Int :=
  s.processor.timeoutSeconds * oneSecond

/-- The reading that the receiver is about to write. -/
def ReceiverPc.pending : ReceiverPc → Option TimePoint
  | .writeReset now => some now
  | .writeFinished now => some now
  | _ => none

/-- The reading of the timer's iteration. -/
def TimerPc.held : TimerPc → Option TimePoint
  | .readLast now => some now
  | .checkChanged now => some now
  | .put now => some now
  | .writeLast now => some now
  | _ => none

/-- The reading with which the timer has passed its timeout test. -/
def TimerPc.tested : TimerPc → Option TimePoint
  | .checkChanged now => some now
  | .put now => some now
  | .writeLast now => some now
  | _ => none

/-- The timer has passed its timeout test, and has not printed. -/
def TimerPc.beforePrint : TimerPc → Bool
  | .checkChanged _ => true
  | .put _ => true
  | _ => false

/-- The timeout test passes. -/
def timeoutPassed (s : ProcessorThreads) (now : TimePoint) : Bool :=
  decide (MessageProcessor.timeSinceLastPrint now s.last ≥ s.processor.timeoutSeconds)

/-- While the timer has passed its test, the receiver writes no reading newer
than the timer's, nor, as long as the timer has not printed, one that is not
the timeout behind the clock. The timer writes none newer than the one the
receiver is about to write. And with a timeout that is not positive the test
is not passed with a reading older than what is there. -/
def writesInOrder (_ : List ProcessorEvent) (s : ProcessorThreads) (a : ProcessorAction) : Bool :=
  match a, s.receiver.pending, s.timer with
  | .receiver, some reset, timer =>
    (timer.tested.all fun now => decide (reset ≤ now))
      && (!timer.beforePrint || decide (s.timeout ≤ s.clock - reset))
  | .timer, pending, .writeLast now => pending.all fun later => decide (now ≤ later)
  | .timer, _, .readLast now =>
    !timeoutPassed s now || decide (0 < s.processor.timeoutSeconds) || decide (s.last ≤ now)
  | _, _, _ => true

/-! ## The law -/

/-- The value never decreases along the run, and whenever the timer prints, or
calls the callback, the timeout has gone by since every value written
before. -/
structure TimerKept (s₀ : ProcessorThreads) (as : List ProcessorAction) : Prop where
  never_back : ∀ pre mid post s₁ es₁ s₂ es₂, as = pre ++ mid ++ post →
    processorMachine.run s₀ pre = some (s₁, es₁) →
    processorMachine.run s₀ (pre ++ mid) = some (s₂, es₂) → s₁.last ≤ s₂.last
  never_early : ∀ pre post s es s' fs output, as = pre ++ .timer :: post →
    processorMachine.run s₀ pre = some (s, es) →
    processorMachine.step s .timer = some (s', fs) → .emitted .timer output ∈ fs →
    ∀ thread reset, .lastWritten thread reset ∈ es → s.timeout ≤ s.clock - reset

variable {es fs : List ProcessorEvent} {s s' : ProcessorThreads}

/-! ## No reading is ahead of the clock -/

/-- What is written and what is about to be written was read before, and the
timer has not ended unless the processor has been stopped. -/
structure Behind (s : ProcessorThreads) : Prop where
  last : s.last ≤ s.clock
  pending : ∀ now, s.receiver.pending = some now → now ≤ s.clock
  held : ∀ now, s.timer.held = some now → now ≤ s.clock
  ended : s.timer = .done → s.processor.running = false

theorem Behind.timer (h : Behind s) (hstep : ProcessorStep s .timer s' fs) : Behind s' := by
  have hput := s.processor.putStats_spec s.clock
  -- the reading held is held on, or given up
  have hheld {pc : TimerPc} (hsame : pc.held = s.timer.held) :
      ∀ now, pc.held = some now → now ≤ s.clock := fun now hh => h.held now (hsame ▸ hh)
  have hnone {pc : TimerPc} (hpc : pc.held = none) :
      ∀ now, pc.held = some now → now ≤ s.clock := fun now hh => by rw [hpc] at hh; cases hh
  cases hstep with
  | timerMove pc hmove =>
    cases hmove with
    | enter hpc hrunning => exact ⟨h.last, h.pending, hnone rfl, by simp⟩
    | leave hpc hstopped => exact ⟨h.last, h.pending, hnone rfl, fun _ => hstopped⟩
    | read hpc =>
      refine ⟨h.last, h.pending, fun now hh => ?_, by simp⟩
      cases hh
      exact Int.le_refl _
    | late now hpc hlate => exact ⟨h.last, h.pending, hheld (by rw [hpc]; rfl), by simp⟩
    | early now hpc hearly => exact ⟨h.last, h.pending, hnone rfl, by simp⟩
    | changed now hpc hchanged => exact ⟨h.last, h.pending, hheld (by rw [hpc]; rfl), by simp⟩
    | unchanged now hpc hsame => exact ⟨h.last, h.pending, hnone rfl, by simp⟩
  | timerPut now hpc =>
    refine ⟨?_, h.pending, hheld (by rw [hpc]; rfl), by simp⟩
    show (s.processor.putStats s.clock).2.lastStatsPrintTime ≤ s.clock
    rw [hput.2.2.2.1]
    exact h.last
  | writeLast now hpc =>
    exact ⟨h.held now (by rw [hpc]; rfl), h.pending, hnone rfl, by simp⟩

/-- A step of the receiver, or none at all, leaves the timer's reading. -/
theorem Behind.receiver (h : Behind s) (hlast : s'.last ≤ s.clock) (hclock : s'.clock = s.clock)
    (htimer : s'.timer = s.timer)
    (hrunning : s.processor.running = false → s'.processor.running = false)
    (hpending : ∀ now, s'.receiver.pending = some now → now ≤ s.clock) : Behind s' := by
  refine ⟨by rw [hclock]; exact hlast, by rw [hclock]; exact hpending, ?_, ?_⟩
  · rw [htimer, hclock]
    exact h.held
  · rw [htimer]
    exact fun hdone => hrunning (h.ended hdone)

theorem step_behind {a : ProcessorAction} (h : Behind s) (hstep : ProcessorStep s a s' fs) :
    Behind s' := by
  have hput := s.processor.putStats_spec s.clock
  have hrefl := Int.le_refl s.clock
  have hnone {pc : ReceiverPc} (hpc : pc.pending = none) :
      ∀ now, pc.pending = some now → now ≤ s.clock := fun now hp => by rw [hpc] at hp; cases hp
  cases hstep with
  | tick d =>
    have hclock : s.clock ≤ s.clock + d := Int.le_add_of_nonneg_right (Int.natCast_nonneg d)
    exact ⟨Int.le_trans h.last hclock, fun now hp => Int.le_trans (h.pending now hp) hclock,
      fun now hh => Int.le_trans (h.held now hh) hclock, h.ended⟩
  | stop hpc =>
    have hstop : s.processor.stop.lastStatsPrintTime = s.last
        ∧ s.processor.stop.running = false := by
      unfold MessageProcessor.stop
      split
      next hrunning => exact ⟨rfl, by simpa using hrunning⟩
      next => exact ⟨rfl, rfl⟩
    exact h.receiver (Int.le_trans (Int.le_of_eq hstop.1) h.last) rfl rfl (fun _ => hstop.2) h.pending
  | reject logMessage text hpc hparse => exact h
  | accept logMessage message level hpc hparse => exact h.receiver h.last rfl rfl id (hnone rfl)
  | receiverMove pc hmove =>
    cases hmove with
    | readReset hpc =>
      exact h.receiver h.last rfl rfl id fun now hp => Option.some.inj hp ▸ hrefl
    | due hpc hdue => exact h.receiver h.last rfl rfl id (hnone rfl)
    | notDue hpc hdue => exact h.receiver h.last rfl rfl id (hnone rfl)
    | readFinished hpc =>
      exact h.receiver h.last rfl rfl id fun now hp => Option.some.inj hp ▸ hrefl
  | add message level hpc => exact h.receiver h.last rfl rfl id (hnone rfl)
  | writeReset now hpc =>
    exact h.receiver (h.pending now (by rw [hpc]; rfl)) rfl rfl id (hnone rfl)
  | receiverPut hpc =>
    exact h.receiver (Int.le_trans (Int.le_of_eq hput.2.2.2.1) h.last) rfl rfl
      (fun hstopped => hput.2.2.2.2.1.trans hstopped) (hnone rfl)
  | writeFinished now hpc =>
    exact h.receiver (h.pending now (by rw [hpc]; rfl)) rfl rfl id (hnone rfl)
  | timerMove pc hmove => exact h.timer (.timerMove pc hmove)
  | timerPut now hpc => exact h.timer (.timerPut now hpc)
  | writeLast now hpc => exact h.timer (.writeLast now hpc)

theorem started_behind (N : Nat) (timeoutSeconds : Int) (statsCallback : Bool)
    (created now : TimePoint) : Behind (started N timeoutSeconds statsCallback created now) :=
  ⟨Int.le_refl _, fun _ h => absurd h (by simp [started, ReceiverPc.pending]),
    fun _ h => absurd h (by simp [started, TimerPc.held]),
    fun h => absurd h (by simp [started])⟩

theorem run_behind {s₀ : ProcessorThreads} {as : List ProcessorAction} (h₀ : Behind s₀)
    (hrun : processorMachine.run s₀ as = some (s, es)) : Behind s :=
  processorMachine.run_invariant (P := Behind)
    (fun _ _ _ _ h hstep => step_behind h (processorStep_inv hstep)) hrun h₀

/-! ## Runs in order -/

/-- Nobody is late. -/
structure InOrder (es : List ProcessorEvent) (s : ProcessorThreads) : Prop where
  pending : ∀ now, s.receiver.pending = some now → s.last ≤ now
  tested : ∀ now, s.timer.tested = some now → s.last ≤ now
  timedOut : s.timer.beforePrint = true → s.timeout ≤ s.clock - s.last
  written : ∀ thread reset, .lastWritten thread reset ∈ es → reset ≤ s.last

/-- The test is passed with readings at least the timeout behind the value, so
it is passed in order when the timeout is positive. -/
theorem last_le_of_timeoutPassed {now : TimePoint} (h : timeoutPassed s now = true)
    (htimeout : 0 < s.processor.timeoutSeconds) : s.last ≤ now := by
  simp only [timeoutPassed, decide_eq_true_eq] at h
  refine Int.le_of_not_gt fun hlt => ?_
  have hneg : MessageProcessor.timeSinceLastPrint now s.last ≤ 0 :=
    Int.tdiv_le_tdiv (b := 0) (by decide) (Int.sub_nonpos_of_le (Int.le_of_lt hlt))
  exact absurd (Int.le_trans h hneg) (Int.not_le_of_gt htimeout)

/-- A test passed in order means that the timeout has gone by. -/
theorem timeout_le_of_timeoutPassed {now : TimePoint} (h : timeoutPassed s now = true)
    (hle : s.last ≤ now) : s.timeout ≤ now - s.last := by
  simp only [timeoutPassed, decide_eq_true_eq] at h
  rw [MessageProcessor.timeSinceLastPrint, Int.tdiv_eq_ediv_of_nonneg (Int.sub_nonneg_of_le hle)] at h
  exact (Int.le_ediv_iff_mul_le (by decide)).mp h

/-- Steps that do not write the value. -/
theorem InOrder.quiet (h : InOrder es s) (hfs : ∀ thread reset, .lastWritten thread reset ∉ fs)
    (hlast : s'.last = s.last)
    (hpending : ∀ now, s'.receiver.pending = some now → s.last ≤ now)
    (htested : ∀ now, s'.timer.tested = some now → s.last ≤ now)
    (htimedOut : s'.timer.beforePrint = true → s'.timeout ≤ s'.clock - s.last) :
    InOrder (es ++ fs) s' := by
  rw [← hlast] at hpending htested htimedOut
  refine ⟨hpending, htested, htimedOut, fun thread reset hr => ?_⟩
  rw [hlast]
  rcases List.mem_append.mp hr with hr | hr
  · exact h.written thread reset hr
  · exact absurd hr (hfs thread reset)

/-- A write that is in order. -/
theorem InOrder.write (h : InOrder es s) {now : TimePoint} (thread : Thread)
    (hlast : s'.last = now) (hle : s.last ≤ now)
    (hpending : ∀ later, s'.receiver.pending = some later → now ≤ later)
    (htested : ∀ later, s'.timer.tested = some later → now ≤ later)
    (htimedOut : s'.timer.beforePrint = true → s'.timeout ≤ s'.clock - now) :
    InOrder (es ++ [.lastWritten thread now]) s' := by
  subst hlast
  refine ⟨hpending, htested, htimedOut, fun thread' reset hr => ?_⟩
  rcases List.mem_append.mp hr with hr | hr
  · exact Int.le_trans (h.written thread' reset hr) hle
  · cases List.mem_singleton.mp hr
    exact Int.le_refl _

/-- A write of the receiver in order: what it asks of the timer. -/
theorem writesInOrder_receiver {reset : TimePoint} (hpending : s.receiver.pending = some reset) :
    writesInOrder es s .receiver = true
      ↔ (∀ now, s.timer.tested = some now → reset ≤ now)
        ∧ (s.timer.beforePrint = true → s.timeout ≤ s.clock - reset) := by
  simp only [writesInOrder, hpending, Bool.and_eq_true, Option.all_eq_true, decide_eq_true_eq,
    Bool.or_eq_true, Bool.not_eq_true']
  cases s.timer.beforePrint <;> simp

/-- The receiver writes the reading it has pending. -/
theorem InOrder.receiverWrite (h : InOrder es s) {now : TimePoint}
    (hpending : s.receiver.pending = some now) (horder : writesInOrder es s .receiver = true)
    (hlast : s'.last = now) (hclock : s'.clock = s.clock) (hnone : s'.receiver.pending = none)
    (htimer : s'.timer = s.timer) (htimeout : s'.timeout = s.timeout) :
    s.last ≤ s'.last ∧ InOrder (es ++ [.lastWritten .receiver now]) s' := by
  have hle := h.pending now hpending
  obtain ⟨htested, htimedOut⟩ := (writesInOrder_receiver hpending).mp horder
  refine ⟨by rw [hlast]; exact hle, h.write .receiver hlast hle (fun later hp => ?_)
    (fun later ht => ?_) (fun hb => ?_)⟩
  · rw [hnone] at hp
    exact absurd hp (by simp)
  · rw [htimer] at ht
    exact htested later ht
  · rw [htimer] at hb
    rw [htimeout, hclock]
    exact htimedOut hb

/-- A test passed in order has a reading not older than the value. -/
theorem last_le_of_inOrder {now : TimePoint} (hpc : s.timer = .readLast now)
    (hlate : timeoutPassed s now = true) (horder : writesInOrder es s .timer = true) :
    s.last ≤ now := by
  simp only [writesInOrder, hpc, hlate, Bool.not_true, Bool.false_or, Bool.or_eq_true,
    decide_eq_true_eq] at horder
  rcases horder with hpositive | hle
  · exact last_le_of_timeoutPassed hlate hpositive
  · exact hle

/-- One step of a run in order. -/
theorem step_inOrder {a : ProcessorAction} (hbehind : Behind s) (h : InOrder es s)
    (horder : writesInOrder es s a = true) (hstep : ProcessorStep s a s' fs) :
    s.last ≤ s'.last ∧ InOrder (es ++ fs) s' := by
  have hput := s.processor.putStats_spec s.clock
  have hquiet : ∀ {s'}, s'.last = s.last → InOrder (es ++ fs) s' →
      s.last ≤ s'.last ∧ InOrder (es ++ fs) s' := fun hlast h' => ⟨Int.le_of_eq hlast.symm, h'⟩
  cases hstep with
  | tick d =>
    have hclock : s.clock ≤ s.clock + d := Int.le_add_of_nonneg_right (Int.natCast_nonneg d)
    exact hquiet rfl (h.quiet (by simp) rfl h.pending h.tested fun hb =>
      Int.le_trans (h.timedOut hb) (Int.sub_le_sub_right hclock s.last))
  | stop hpc =>
    have hstop : s.processor.stop.lastStatsPrintTime = s.processor.lastStatsPrintTime
        ∧ s.processor.stop.timeoutSeconds = s.processor.timeoutSeconds := by
      unfold MessageProcessor.stop
      split <;> exact ⟨rfl, rfl⟩
    refine hquiet hstop.1 (h.quiet (by simp) hstop.1 h.pending h.tested fun hb => ?_)
    show s.processor.stop.timeoutSeconds * oneSecond ≤ _
    rw [hstop.2]
    exact h.timedOut hb
  | reject p text hpc hparse =>
    exact hquiet rfl (h.quiet (by simp) rfl h.pending h.tested h.timedOut)
  | accept p message level hpc hparse =>
    exact hquiet rfl (h.quiet (by simp) rfl (fun now hp => absurd hp (by simp [ReceiverPc.pending]))
      h.tested h.timedOut)
  | receiverMove pc hmove =>
    refine hquiet rfl (h.quiet (by simp) rfl (fun now hp => ?_) h.tested h.timedOut)
    cases hmove with
    | readReset hpc => cases hp; exact hbehind.last
    | due hpc hdue => exact absurd hp (by simp [ReceiverPc.pending])
    | notDue hpc hdue => exact absurd hp (by simp [ReceiverPc.pending])
    | readFinished hpc => cases hp; exact hbehind.last
  | add message level hpc =>
    exact hquiet rfl (h.quiet (by simp) rfl (fun now hp => absurd hp (by simp [ReceiverPc.pending]))
      h.tested h.timedOut)
  | writeReset now hpc =>
    have hpending : s.receiver.pending = some now := by rw [hpc]; rfl
    exact h.receiverWrite hpending horder rfl rfl rfl rfl rfl
  | receiverPut hpc =>
    refine hquiet hput.2.2.2.1 (h.quiet (by simp) hput.2.2.2.1
      (fun now hp => absurd hp (by simp [ReceiverPc.pending])) h.tested fun hb => ?_)
    show (s.processor.putStats s.clock).2.timeoutSeconds * oneSecond ≤ _
    rw [hput.2.2.1]
    exact h.timedOut hb
  | writeFinished now hpc =>
    have hpending : s.receiver.pending = some now := by rw [hpc]; rfl
    exact h.receiverWrite hpending horder rfl rfl rfl rfl rfl
  | timerMove pc hmove =>
    refine hquiet rfl (h.quiet (by simp) rfl h.pending (fun now ht => ?_) fun hb => ?_)
    · cases hmove with
      | enter hpc hrunning => exact absurd ht (by simp [TimerPc.tested])
      | leave hpc hstopped => exact absurd ht (by simp [TimerPc.tested])
      | read hpc => exact absurd ht (by simp [TimerPc.tested])
      | late later hpc hlate =>
        -- the test has just been passed, in order
        obtain rfl := Option.some.inj ht
        exact last_le_of_inOrder hpc (decide_eq_true hlate) horder
      | early later hpc hearly => exact absurd ht (by simp [TimerPc.tested])
      | changed later hpc hchanged => exact h.tested now (by rw [hpc]; exact ht)
      | unchanged later hpc hsame => exact absurd ht (by simp [TimerPc.tested])
    · cases hmove with
      | enter hpc hrunning => exact absurd hb (by simp [TimerPc.beforePrint])
      | leave hpc hstopped => exact absurd hb (by simp [TimerPc.beforePrint])
      | read hpc => exact absurd hb (by simp [TimerPc.beforePrint])
      | late later hpc hlate =>
        -- and the clock is at the reading or behind it
        have hlater := hbehind.held later (by rw [hpc]; rfl)
        exact Int.le_trans (timeout_le_of_timeoutPassed (decide_eq_true hlate)
          (last_le_of_inOrder (s := s) hpc (decide_eq_true hlate) horder))
          (Int.sub_le_sub_right hlater s.last)
      | early later hpc hearly => exact absurd hb (by simp [TimerPc.beforePrint])
      | changed later hpc hchanged => exact h.timedOut (by rw [hpc]; rfl)
      | unchanged later hpc hsame => exact absurd hb (by simp [TimerPc.beforePrint])
  | timerPut now hpc =>
    refine hquiet hput.2.2.2.1 (h.quiet (by simp) hput.2.2.2.1 h.pending
      (fun later ht => ?_) fun hb => absurd hb (by simp [TimerPc.beforePrint]))
    exact h.tested later (by rw [hpc]; exact ht)
  | writeLast now hpc =>
    have hle := h.tested now (by rw [hpc]; rfl)
    refine ⟨hle, h.write .timer rfl hle (fun later hp => ?_)
      (fun later ht => absurd ht (by simp [TimerPc.tested]))
      fun hb => absurd hb (by simp [TimerPc.beforePrint])⟩
    simpa [writesInOrder, hpc, show s.receiver.pending = some later from hp] using horder

theorem started_inOrder (N : Nat) (timeoutSeconds : Int) (statsCallback : Bool)
    (created now : TimePoint) : InOrder [] (started N timeoutSeconds statsCallback created now) :=
  ⟨fun _ h => absurd h (by simp [started, ReceiverPc.pending]),
    fun _ h => absurd h (by simp [started, TimerPc.tested]),
    fun h => absurd h (by simp [started, TimerPc.beforePrint]), fun _ _ h => absurd h (by simp)⟩

/-- The runs in order. -/
abbrev RunsInOrder (s₀ : ProcessorThreads) (as : List ProcessorAction) : Prop :=
  processorMachine.StepsMeet (fun es s a => writesInOrder es s a = true) s₀ as

theorem run_inOrder {s₀ : ProcessorThreads} {as : List ProcessorAction} (hbehind : Behind s₀)
    (h₀ : InOrder [] s₀) (horder : RunsInOrder s₀ as) (hrun : processorMachine.run s₀ as = some (s, es)) :
    InOrder es s := by
  refine processorMachine.run_induction (P := fun as s es => RunsInOrder s₀ as → InOrder es s)
    (fun _ => h₀) ?_ hrun horder
  intro as a s es s' fs hrun ih hstep horder
  exact (step_inOrder (run_behind hbehind hrun) (ih horder.init)
    (horder.last processorMachine hrun) (processorStep_inv hstep)).2

/-- From one state of a run in order to a later one the value has not
decreased. -/
theorem run_last_mono {s₀ s₁ : ProcessorThreads} {es₁ : List ProcessorEvent}
    {pre mid : List ProcessorAction} (hbehind : Behind s₀) (h₀ : InOrder [] s₀)
    (horder : RunsInOrder s₀ (pre ++ mid))
    (hpre : processorMachine.run s₀ pre = some (s₁, es₁))
    (hmid : processorMachine.run s₀ (pre ++ mid) = some (s, es)) : s₁.last ≤ s.last := by
  induction mid using List.reverseRecOn generalizing s es with
  | nil =>
    rw [List.append_nil, hpre] at hmid
    cases hmid
    exact Int.le_refl _
  | append_singleton mid a ih =>
    rw [← List.append_assoc] at hmid horder
    obtain ⟨s₂, es₂, fs, hrun, hstep, rfl⟩ := processorMachine.run_snoc_inv hmid
    have hlast := ih horder.init hrun
    have hnext := (step_inOrder (run_behind hbehind hrun) (run_inOrder hbehind h₀ horder.init hrun)
      (horder.last processorMachine hrun) (processorStep_inv hstep)).1
    exact Int.le_trans hlast hnext

/-- A prefix of a run in order is in order. -/
theorem RunsInOrder.front {s₀ : ProcessorThreads} {pre post : List ProcessorAction}
    (h : RunsInOrder s₀ (pre ++ post)) : RunsInOrder s₀ pre := by
  intro pre' a post' hsplit s es hrun
  exact h pre' a (post' ++ post) (by rw [hsplit]; simp) s es hrun

/-- The timer emits in `put` only. -/
theorem put_of_emitted {output : Output} (h : processorMachine.step s .timer = some (s', fs))
    (houtput : .emitted .timer output ∈ fs) : ∃ now, s.timer = .put now := by
  cases processorStep_inv h with
  | timerMove pc hmove => exact absurd houtput List.not_mem_nil
  | timerPut now hpc => exact ⟨now, hpc⟩
  | writeLast now hpc => exact absurd (List.mem_singleton.mp houtput) (by simp)

theorem timerKept_of_inOrder {s₀ : ProcessorThreads} {as : List ProcessorAction}
    (hbehind : Behind s₀) (h₀ : InOrder [] s₀) (horder : RunsInOrder s₀ as) : TimerKept s₀ as := by
  refine ⟨?_, ?_⟩
  · rintro pre mid post s₁ es₁ s₂ es₂ rfl hpre hmid
    exact run_last_mono hbehind h₀ horder.front hpre hmid
  · rintro pre post s es s' fs output rfl hpre hstep houtput thread reset hreset
    obtain ⟨now, hpc⟩ := put_of_emitted hstep houtput
    have hinv := run_inOrder hbehind h₀ horder.front hpre
    -- the value is at or behind each one written before
    exact Int.le_trans (hinv.timedOut (by rw [hpc]; rfl))
      (Int.sub_le_sub_left (hinv.written thread reset hreset) s.clock)

/-! ## What a late thread leads to -/

/-- A thread is bound to write a reading older than what is there, or the
timer has passed its test and is still to print, and the timeout has not gone
by since a reset. -/
def Late (es : List ProcessorEvent) (s : ProcessorThreads) : Prop :=
  (∃ now, s.receiver.pending = some now ∧ now < s.last)
    ∨ (∃ now, s.timer.tested = some now ∧ now < s.last)
    ∨ (s.timer.beforePrint = true
      ∧ ∃ thread reset, .lastWritten thread reset ∈ es ∧ s.clock - reset < s.timeout)

/-- The clock does not move, and the timer takes at most `count` steps. -/
def Briefly (count : Nat) (bs : List ProcessorAction) : Prop :=
  (∀ d, .tick d ∉ bs) ∧ bs.count .timer ≤ count

theorem Briefly.append {m n : Nat} {bs cs : List ProcessorAction} (hbs : Briefly m bs)
    (hcs : Briefly n cs) : Briefly (m + n) (bs ++ cs) := by
  refine ⟨fun d hd => ?_, ?_⟩
  · rcases List.mem_append.mp hd with hd | hd
    · exact hbs.1 d hd
    · exact hcs.1 d hd
  · rw [List.count_append]
    exact Nat.add_le_add hbs.2 hcs.2

theorem briefly_receiver (count : Nat) : Briefly 0 (List.replicate count .receiver) := by
  refine ⟨fun d hd => ?_, ?_⟩
  · exact absurd (List.eq_of_mem_replicate hd) (by simp)
  · simp [List.count_replicate]

/-- Going on alone, the receiver comes to the end of its call. -/
def Finishes (s : ProcessorThreads) : Prop :=
  ∃ count s' fs, processorMachine.run s (List.replicate count .receiver) = some (s', fs)
    ∧ s'.receiver = .idle ∧ s'.timer = s.timer ∧ s'.clock = s.clock

theorem Finishes.step (h : Finishes s')
    (hstep : processorMachine.step s .receiver = some (s', fs)) (htimer : s'.timer = s.timer)
    (hclock : s'.clock = s.clock) : Finishes s := by
  obtain ⟨count, s'', gs, hrun, hidle, htimer', hclock'⟩ := h
  exact ⟨count + 1, s'', fs ++ gs, processorMachine.run_cons hstep hrun, hidle,
    htimer'.trans htimer, hclock'.trans hclock⟩

theorem receiver_finishes (s : ProcessorThreads) : Finishes s := by
  obtain ⟨p, clock, receiver, timer⟩ := s
  have hidle : ∀ p, Finishes ⟨p, clock, .idle, timer⟩ := fun p => ⟨0, _, _, rfl, rfl, rfl, rfl⟩
  have hwriteFinished : ∀ p now, Finishes ⟨p, clock, .writeFinished now, timer⟩ := fun p now =>
    (hidle { p with lastStatsPrintTime := now }).step rfl rfl rfl
  have hreadFinished : ∀ p, Finishes ⟨p, clock, .readFinished, timer⟩ := fun p =>
    (hwriteFinished p clock).step rfl rfl rfl
  have hput : ∀ p, Finishes ⟨p, clock, .put, timer⟩ := fun p =>
    (hreadFinished (p.putStats clock).2).step rfl rfl rfl
  have hcheck : ∀ p, Finishes ⟨p, clock, .checkCount, timer⟩ := by
    intro p
    by_cases hdue : shouldPrintStats p.messageInterval p.metricsCollector = true
    · exact (hput p).step (if_pos hdue) rfl rfl
    · exact (hidle p).step (if_neg hdue) rfl rfl
  have hwriteReset : ∀ p now, Finishes ⟨p, clock, .writeReset now, timer⟩ := fun p now =>
    (hcheck { p with lastStatsPrintTime := now }).step rfl rfl rfl
  have hreadReset : ∀ p, Finishes ⟨p, clock, .readReset, timer⟩ := fun p =>
    (hwriteReset p clock).step rfl rfl rfl
  cases receiver with
  | idle => exact hidle p
  | add message level => exact (hreadReset _).step rfl rfl rfl
  | readReset => exact hreadReset p
  | writeReset now => exact hwriteReset p now
  | checkCount => exact hcheck p
  | put => exact hput p
  | readFinished => exact hreadFinished p
  | writeFinished now => exact hwriteFinished p now

/-- A timer that has passed its test can be led to print with that reading:
the receiver ends its call, and if nothing has changed then, one more message
comes. -/
theorem beforePrint_prints (h : s.timer.beforePrint = true) :
    ∃ bs s' fs now, processorMachine.run s bs = some (s', fs) ∧ Briefly 1 bs
      ∧ s.timer.tested = some now ∧ s'.timer = .put now ∧ s'.clock = s.clock := by
  cases hpc : s.timer with
  | put now =>
    exact ⟨[], s, [], now, rfl, ⟨fun d => List.not_mem_nil, Nat.zero_le 1⟩, rfl, hpc, rfl⟩
  | checkChanged now =>
    obtain ⟨count, ⟨p, clock, receiver, timer⟩, fs, hrun, hidle, htimer, hclock⟩ :=
      receiver_finishes s
    obtain rfl : receiver = .idle := hidle
    obtain rfl : timer = .checkChanged now := htimer.trans hpc
    by_cases hchanged : hasStatsChangedSinceLastPrint p.metricsCollector = true
    · have hask : processorMachine.step ⟨p, clock, .idle, .checkChanged now⟩ .timer
          = some (⟨p, clock, .idle, .put now⟩, []) := if_pos hchanged
      have hrest := processorMachine.run_cons hask (processorMachine.run_nil _)
      have hbriefly : Briefly 1 [.timer] := ⟨by simp, by simp⟩
      exact ⟨_, _, _, now, processorMachine.run_append hrun hrest,
        Nat.zero_add 1 ▸ (briefly_receiver count).append hbriefly, rfl, rfl, hclock⟩
    · have hreceive : processorMachine.step ⟨p, clock, .idle, .checkChanged now⟩
          (.receive (ascii "[t] [INFO] a"))
            = some (⟨p, clock, .add (ascii "a") .info, .checkChanged now⟩,
              [.log (ascii "[t] [INFO] a")]) := by
        simp only [processorMachine, ProcessorThreads.step,
          show parsePayload (ascii "[t] [INFO] a") = .ok (ascii "a", .info) from rfl]
      let p' := { p with
        metricsCollector := addMessage (ascii "a") .info clock p.metricsCollector }
      have hadd : processorMachine.step ⟨p, clock, .add (ascii "a") .info, .checkChanged now⟩ .receiver
          = some (⟨p', clock, .readReset, .checkChanged now⟩, [.added (ascii "a") .info]) := rfl
      have hask : processorMachine.step ⟨p', clock, .readReset, .checkChanged now⟩ .timer
          = some (⟨p', clock, .readReset, .put now⟩, []) := by
        refine if_pos ?_
        simp only [hasStatsChangedSinceLastPrint, bne_iff_ne, ne_eq, not_not] at hchanged ⊢
        show sizeAdd p.metricsCollector.totalMessages 1 ≠ p.metricsCollector.lastPrintedTotalMessages
        rw [← hchanged]
        exact sizeAdd_one_ne _
      have hrest := processorMachine.run_cons hreceive (processorMachine.run_cons hadd
        (processorMachine.run_cons hask (processorMachine.run_nil _)))
      have hbriefly : Briefly 1 [.receive (ascii "[t] [INFO] a"), .receiver, .timer] :=
        ⟨by simp, by simp⟩
      exact ⟨_, _, _, now, processorMachine.run_append hrun hrest,
        Nat.zero_add 1 ▸ (briefly_receiver count).append hbriefly, rfl, rfl, hclock⟩
  | loop => rw [hpc] at h; exact absurd h (by simp [TimerPc.beforePrint])
  | readNow => rw [hpc] at h; exact absurd h (by simp [TimerPc.beforePrint])
  | readLast now => rw [hpc] at h; exact absurd h (by simp [TimerPc.beforePrint])
  | writeLast now => rw [hpc] at h; exact absurd h (by simp [TimerPc.beforePrint])
  | done => rw [hpc] at h; exact absurd h (by simp [TimerPc.beforePrint])

/-- Played on from `s`, the schedule takes the value back, or comes to a print
of the timer less than the timeout behind a reset in `es`. -/
def Breaks (es : List ProcessorEvent) (s : ProcessorThreads) (bs : List ProcessorAction) : Prop :=
  (∃ s' fs, processorMachine.run s bs = some (s', fs) ∧ s'.last < s.last)
    ∨ ∃ bs' s' fs now, bs = bs' ++ [.timer] ∧ processorMachine.run s bs' = some (s', fs)
      ∧ s'.timer = .put now
      ∧ ∃ thread reset, .lastWritten thread reset ∈ es ∧ s'.clock - reset < s'.timeout

/-- The timer prints, and writes its reading back. -/
theorem put_step {now : TimePoint} (hpc : s.timer = .put now) :
    processorMachine.step s .timer
      = some ({ s with processor := (s.processor.putStats s.clock).2, timer := .writeLast now },
        [.emitted .timer (s.processor.putStats s.clock).1]) := by
  show s.stepTimer = _
  rw [stepTimer, hpc]

theorem writeLast_step {now : TimePoint} (hpc : s.timer = .writeLast now) :
    processorMachine.step s .timer
      = some ({ s with
          processor := { s.processor with lastStatsPrintTime := now }
          timer := .loop }, [.lastWritten .timer now]) := by
  show s.stepTimer = _
  rw [stepTimer, hpc]

/-- A late thread can go on to break the law, the timer in its present
iteration. -/
theorem late_breaks (h : Late es s) : ∃ bs, Briefly 3 bs ∧ Breaks es s bs := by
  rcases h with ⟨now, hpending, hlt⟩ | ⟨now, htested, hlt⟩ | ⟨hbefore, hearly⟩
  · -- the receiver writes what it has pending
    refine ⟨[.receiver], ⟨by simp, by simp⟩, .inl ?_⟩
    obtain ⟨p, clock, receiver, timer⟩ := s
    cases receiver with
    | writeReset later =>
      cases hpending
      exact ⟨_, _, rfl, hlt⟩
    | writeFinished later =>
      cases hpending
      exact ⟨_, _, rfl, hlt⟩
    | _ => exact absurd hpending (by simp [ReceiverPc.pending])
  · by_cases hbefore : s.timer.beforePrint = true
    · -- the timer prints and writes back
      obtain ⟨bs, s', fs, now', hrun, hbriefly, htested', hput, -⟩ := beforePrint_prints hbefore
      obtain rfl : now = now' := Option.some.inj (htested.symm.trans htested')
      have hrest := processorMachine.run_cons (put_step hput)
        (processorMachine.run_cons (writeLast_step rfl) (processorMachine.run_nil _))
      have htwo : Briefly 2 [.timer, .timer] := ⟨by simp, by simp⟩
      exact ⟨_, hbriefly.append htwo, .inl ⟨_, _, processorMachine.run_append hrun hrest, hlt⟩⟩
    · have hpc : s.timer = .writeLast now := by
        cases hpc : s.timer with
        | writeLast now' => rw [hpc] at htested; cases htested; rfl
        | checkChanged now' => rw [hpc] at hbefore; exact absurd rfl hbefore
        | put now' => rw [hpc] at hbefore; exact absurd rfl hbefore
        | _ => rw [hpc] at htested; exact absurd htested (by simp [TimerPc.tested])
      exact ⟨[.timer], ⟨by simp, by simp⟩, .inl ⟨_, _,
        processorMachine.run_cons (writeLast_step hpc) (processorMachine.run_nil _), hlt⟩⟩
  · -- the timer prints at once
    obtain ⟨thread, reset, hreset, hlt⟩ := hearly
    obtain ⟨bs, s', fs, now, hrun, hbriefly, -, hput, hclock⟩ := beforePrint_prints hbefore
    have htimer : Briefly 2 [.timer] := ⟨by simp, by simp⟩
    refine ⟨bs ++ [.timer], hbriefly.append htimer, .inr ⟨bs, s', fs, now, rfl, hrun, hput, thread,
      reset, hreset, ?_⟩⟩
    rw [hclock, ProcessorThreads.timeout, (run_config hrun).timeout]
    exact hlt

/-- A step that is not in order leaves a thread late. -/
theorem late_of_not_inOrder {a : ProcessorAction} (horder : ¬writesInOrder es s a = true)
    (hstep : processorMachine.step s a = some (s', fs)) : Late (es ++ fs) s' := by
  have hcases := horder
  unfold writesInOrder at hcases
  split at hcases
  next _ _ reset hpending =>
    -- the receiver has written a reading newer than the timer's, or too new for its print
    obtain ⟨hlast, htimer, hclock, htimeout, hwritten⟩ : s'.last = reset ∧ s'.timer = s.timer
        ∧ s'.clock = s.clock ∧ s'.timeout = s.timeout ∧ .lastWritten .receiver reset ∈ fs := by
      obtain ⟨p, clock, receiver, timer⟩ := s
      cases receiver with
      | writeReset later => cases hpending; cases hstep; exact ⟨rfl, rfl, rfl, rfl, by simp⟩
      | writeFinished later => cases hpending; cases hstep; exact ⟨rfl, rfl, rfl, rfl, by simp⟩
      | _ => exact absurd hpending (by simp [ReceiverPc.pending])
    rw [writesInOrder_receiver hpending, not_and_or] at horder
    rcases horder with hnewer | hearly
    · simp only [not_forall, Int.not_le] at hnewer
      obtain ⟨now, htested, hlt⟩ := hnewer
      exact .inr (.inl ⟨now, by rw [htimer]; exact htested, by rw [hlast]; exact hlt⟩)
    · simp only [Classical.not_imp, Int.not_le] at hearly
      refine .inr (.inr ⟨by rw [htimer]; exact hearly.1, .receiver, reset,
        List.mem_append_right _ hwritten, ?_⟩)
      rw [hclock, htimeout]
      exact hearly.2
  next now hpc =>
    -- the timer has written a reading newer than the one the receiver holds
    replace hpc : s.timer = .writeLast now := hpc
    rw [writeLast_step hpc] at hstep
    cases hstep
    obtain ⟨later, hpending, hlt⟩ : ∃ later, s.receiver.pending = some later ∧ later < now := by
      cases hp : s.receiver.pending with
      | none => rw [hp] at hcases; exact absurd rfl hcases
      | some later => exact ⟨later, rfl, by simpa [hp] using hcases⟩
    exact .inl ⟨later, hpending, hlt⟩
  next now hpc =>
    replace hpc : s.timer = .readLast now := hpc
    simp only [Bool.or_eq_true, Bool.not_eq_true', decide_eq_true_eq, not_or, Bool.not_eq_false,
      Int.not_le] at hcases
    obtain ⟨⟨hpassed, -⟩, hlt⟩ := hcases
    simp only [timeoutPassed, decide_eq_true_eq] at hpassed
    have hlate : processorMachine.step s .timer
        = some ({ s with timer := .checkChanged now }, []) := by
      show s.stepTimer = _
      rw [stepTimer, hpc]
      exact if_pos hpassed
    rw [hlate] at hstep
    cases hstep
    exact .inr (.inl ⟨now, rfl, hlt⟩)
  next => exact absurd rfl hcases

/-! ## The inactivity timer is not set back, but by a late thread -/

theorem not_kept_of_breaks {s₀ : ProcessorThreads} {as bs : List ProcessorAction}
    (hrun : processorMachine.run s₀ as = some (s, es)) (h : Breaks es s bs) :
    (processorMachine.run s₀ (as ++ bs)).isSome = true ∧ ¬TimerKept s₀ (as ++ bs) := by
  rcases h with ⟨s', fs, hrest, hlt⟩ | ⟨bs', s', fs, now, rfl, hrest, hput, thread, reset, hreset, hlt⟩
  · have hback := processorMachine.run_append hrun hrest
    refine ⟨by rw [hback]; rfl, fun hkept => ?_⟩
    exact absurd (hkept.never_back as bs [] _ _ _ _ (List.append_nil _).symm hrun hback)
      (Int.not_le_of_gt hlt)
  · have hthere := processorMachine.run_append hrun hrest
    have hprint := processorMachine.run_append hthere
      (processorMachine.run_cons (put_step hput) (processorMachine.run_nil _))
    rw [← List.append_assoc]
    refine ⟨by rw [hprint]; rfl, fun hkept => ?_⟩
    exact absurd (hkept.never_early (as ++ bs') [] s' _ _ _ _ rfl hthere (put_step hput)
      (List.mem_singleton_self _) thread reset (List.mem_append_left _ hreset))
      (Int.not_le_of_gt hlt)

/-- **The value never decreases in the runs in order**, and in them the timer
leaves the timeout between every reset and its next print. The first step of a
run that is not in order can be continued, the clock standing still and the
timer in its present iteration, to a step that sets the value back or prints
too early. -/
theorem last_kept_of_inOrder (N : Nat) (timeoutSeconds : Int) (statsCallback : Bool)
    (created now : TimePoint) (as : List ProcessorAction)
    (hrun : processorMachine.run (started N timeoutSeconds statsCallback created now) as
      = some (s, es)) :
    (RunsInOrder (started N timeoutSeconds statsCallback created now) as →
      TimerKept (started N timeoutSeconds statsCallback created now) as)
    ∧ (¬RunsInOrder (started N timeoutSeconds statsCallback created now) as →
      ∃ pre a post s₁ es₁, as = pre ++ a :: post
        ∧ processorMachine.run (started N timeoutSeconds statsCallback created now) pre
          = some (s₁, es₁)
        ∧ RunsInOrder (started N timeoutSeconds statsCallback created now) pre
        ∧ writesInOrder es₁ s₁ a = false
        ∧ ∃ bs, Briefly 3 bs
          ∧ (processorMachine.run (started N timeoutSeconds statsCallback created now)
              (pre ++ a :: bs)).isSome = true
          ∧ ¬TimerKept (started N timeoutSeconds statsCallback created now) (pre ++ a :: bs)) := by
  refine ⟨timerKept_of_inOrder (started_behind ..) (started_inOrder ..), fun hnot => ?_⟩
  obtain ⟨pre, a, post, s₁, es₁, s₂, fs, rfl, hpre, hmeet, horder, hstep⟩ :=
    processorMachine.exists_first hrun hnot
  -- the step that leaves a thread late, and the run on from it
  have hthere := processorMachine.run_append hpre
    (processorMachine.run_cons hstep (processorMachine.run_nil _))
  rw [List.append_nil] at hthere
  obtain ⟨bs, hbriefly, hbreaks⟩ := late_breaks (late_of_not_inOrder horder hstep)
  have hlost := not_kept_of_breaks hthere hbreaks
  rw [List.append_assoc] at hlost
  exact ⟨pre, a, post, s₁, es₁, rfl, hpre, hmeet, by simpa using horder, bs, hbriefly, hlost⟩

/-- The receiver ends its call between two iterations of the timer. -/
def inOrderSchedule : List ProcessorAction :=
  [.receive (ascii "[t] [INFO] a"), .receiver, .receiver, .receiver, .receiver,
    .tick 1000000000, .timer, .timer, .timer, .timer, .timer, .timer,
    .receive (ascii "[t] [INFO] b"), .receiver, .receiver, .receiver, .receiver, .timer, .timer,
    .timer]

theorem last_kept_inOrderSchedule : TimerKept (started 10 1 false 0 0) inOrderSchedule :=
  (last_kept_of_inOrder 10 1 false 0 0 inOrderSchedule rfl).1
    (processorMachine.stepsMeet_of_checkSteps writesInOrder (by decide))

/-- A message arrives while the timer prints: its reset, at two seconds, is
overwritten with the reading of the first, and the timer prints again at
once. -/
def setBack : List ProcessorAction :=
  [.receive (ascii "[t] [INFO] a"), .receiver, .receiver, .receiver, .receiver,
    .tick 1000000000, .timer, .timer, .timer, .timer, .timer,
    .tick 1000000000, .receive (ascii "[t] [INFO] b"), .receiver, .receiver, .receiver,
    .timer, .timer, .timer, .timer, .timer, .timer]

theorem last_set_back :
    (processorMachine.run (started 10 1 false 0 0) setBack).isSome
      ∧ ¬TimerKept (started 10 1 false 0 0) setBack := by
  refine ⟨rfl, fun hkept => ?_⟩
  have hback := hkept.never_back (setBack.take 16) [.timer] (setBack.drop 17) _ _ _ _ rfl rfl rfl
  exact absurd hback (by decide)

/-- The reset comes between the test and the question, and the timer prints a
tenth of a second behind it; no write is overwritten with an older one. -/
def printedEarly : List ProcessorAction :=
  [.tick 900000000, .receive (ascii "[t] [INFO] a"), .receiver, .receiver, .tick 100000000,
    .timer, .timer, .timer, .receiver, .timer, .timer]

example : processorMachine.checkSteps writesInOrder [] (started 10 1 false 0 0) printedEarly
    = false := by decide

end LogMetrics.MetricsApplication
