import LogMetrics.Base.Progress
import LogMetrics.MetricsApplication.LastPrintTime
import LogMetrics.MetricsApplication.PrintedTotals

/-!
# Silence

While the receiver rests, what has been counted and not yet printed is printed
by the timer. Every reading a thread holds or has written is no later than the
clock at the beginning of the silence (`run_behind`), so once the timeout has
gone by on the clock no test that starts with a fresh reading fails, wherever
in its iteration the silence found the timer: six of its turns lead to the
print (`turnsLeft`). Behind the print nothing has changed, and the timer prints
nothing more (`run_silent`). Records that do not parse do not break the
silence.
-/

namespace LogMetrics.MetricsApplication

open LogMetrics.Base
open MetricsCollector ProcessorThreads

/-- The clock moves, the timer moves, or a record comes that does not parse. -/
def silent : ProcessorAction → Bool
  | .tick _ => true
  | .timer => true
  | .receive logMessage => !(parsePayload logMessage).isOk
  | _ => false

variable {es fs gs : List ProcessorEvent} {s s' s₁ s₂ : ProcessorThreads}

/-- Only a timer that has ended has no step. -/
theorem stepTimer_isSome (h : s.timer ≠ .done) : s.stepTimer.isSome = true := by
  unfold stepTimer
  split
  next => split <;> rfl
  next => rfl
  next => split <;> rfl
  next => split <;> rfl
  next => rfl
  next => rfl
  next hpc => exact absurd hpc h

/-! ## A silence -/

/-- The timeout `timeoutSeconds` behind `c`. -/
def deadline (timeoutSeconds : Int) (c : TimePoint) : TimePoint :=
  c + timeoutSeconds.toNat * oneSecond

/-- In a silence since `c`, with a total of `n` that has not been printed. -/
structure Unprinted (timeoutSeconds : Int) (c : TimePoint) (n : Nat) (s : ProcessorThreads) :
    Prop where
  running : s.processor.running = true
  timeout : s.processor.timeoutSeconds = timeoutSeconds
  callback : s.processor.statsCallback = false
  last : s.last ≤ c
  writes : ∀ now, s.timer = .writeLast now → now ≤ c
  alive : s.timer ≠ .done
  total : s.stats.totalMessages = n
  changed : hasStatsChangedSinceLastPrint s.stats = true

/-- Nothing has changed since the last print, and the timer is not about to
print. -/
structure Printed (s : ProcessorThreads) : Prop where
  running : s.processor.running = true
  same : hasStatsChangedSinceLastPrint s.stats = false
  asked : ∀ now, s.timer ≠ .put now
  alive : s.timer ≠ .done

variable {timeoutSeconds : Int} {c : TimePoint} {n : Nat}

/-- The timer moves, and its processor stays as it is. -/
theorem Unprinted.move (h : Unprinted timeoutSeconds c n s) {pc : TimerPc}
    (hwrites : ∀ now, pc ≠ .writeLast now) (halive : pc ≠ .done) :
    Unprinted timeoutSeconds c n { s with timer := pc } :=
  { h with writes := fun now hpc => absurd hpc (hwrites now), alive := halive }

theorem Printed.move (h : Printed s) {pc : TimerPc} (hasked : ∀ now, pc ≠ .put now)
    (halive : pc ≠ .done) : Printed { s with timer := pc } :=
  { h with asked := hasked, alive := halive }

theorem Unprinted.timer (h : Unprinted timeoutSeconds c n s)
    (hstep : ProcessorStep s .timer s' fs) :
    Unprinted timeoutSeconds c n s' ∧ printedTotals fs = []
      ∨ Printed s' ∧ printedTotals fs = [n] := by
  cases hstep with
  | timerMove pc hmove =>
    cases hmove with
    | enter hpc hrunning => exact .inl ⟨h.move (by simp) (by simp), rfl⟩
    | leave hpc hstopped => exact absurd h.running (by simp [hstopped])
    | read hpc => exact .inl ⟨h.move (by simp) (by simp), rfl⟩
    | late now hpc hlate => exact .inl ⟨h.move (by simp) (by simp), rfl⟩
    | early now hpc hearly => exact .inl ⟨h.move (by simp) (by simp), rfl⟩
    | changed now hpc hchanged => exact .inl ⟨h.move (by simp) (by simp), rfl⟩
    | unchanged now hpc hsame => exact absurd h.changed (by simp [hsame])
  | timerPut now hpc =>
    obtain ⟨hprinted, hlast⟩ := putStats_print h.callback s.clock .timer
    have hput := s.processor.putStats_spec s.clock
    refine .inr ⟨⟨hput.2.2.2.2.1.trans h.running, ?_, by simp, by simp⟩, ?_⟩
    · -- the total printed is the total
      simp only [ProcessorThreads.stats, hasStatsChangedSinceLastPrint, hlast, hput.1, bne_self_eq_false]
    · rw [hprinted]
      exact congrArg (fun total => [total]) h.total
  | writeLast now hpc =>
    exact .inl ⟨{ h with last := h.writes now hpc, writes := by simp, alive := by simp }, rfl⟩

theorem Printed.timer (h : Printed s) (hstep : ProcessorStep s .timer s' fs) :
    Printed s' ∧ printedTotals fs = [] := by
  cases hstep with
  | timerMove pc hmove =>
    cases hmove with
    | enter hpc hrunning => exact ⟨h.move (by simp) (by simp), rfl⟩
    | leave hpc hstopped => exact absurd h.running (by simp [hstopped])
    | read hpc => exact ⟨h.move (by simp) (by simp), rfl⟩
    | late now hpc hlate => exact ⟨h.move (by simp) (by simp), rfl⟩
    | early now hpc hearly => exact ⟨h.move (by simp) (by simp), rfl⟩
    | changed now hpc hchanged => exact absurd hchanged (by simp [h.same])
    | unchanged now hpc hsame => exact ⟨h.move (by simp) (by simp), rfl⟩
  | timerPut now hpc => exact absurd hpc (h.asked now)
  | writeLast now hpc => exact ⟨{ h with asked := by simp, alive := by simp }, rfl⟩

/-- The clock alone moves. -/
theorem Unprinted.tick (h : Unprinted timeoutSeconds c n s) (d : Nat) :
    Unprinted timeoutSeconds c n { s with clock := s.clock + d } := { h with }

theorem Printed.tick (h : Printed s) (d : Nat) : Printed { s with clock := s.clock + d } :=
  { h with }

/-- In a silence the clock moves, or the timer. -/
theorem silent_step {a : ProcessorAction} (hsilent : silent a = true)
    (hstep : processorMachine.step s a = some (s', fs)) :
    (∃ d : Nat, a ≠ .timer ∧ s' = { s with clock := s.clock + d } ∧ printedTotals fs = [])
      ∨ a = .timer ∧ ProcessorStep s .timer s' fs := by
  cases processorStep_inv hstep with
  | tick d => exact .inl ⟨d, by simp, rfl, rfl⟩
  | reject logMessage text hpc hparse =>
    refine .inl ⟨0, by simp, ?_, rfl⟩
    rw [show s.clock + (0 : Nat) = s.clock from Int.add_zero _]
  | accept logMessage message level hpc hparse =>
    rw [silent, hparse] at hsilent
    exact absurd hsilent (by simp [Except.isOk, Except.toBool])
  | timerMove pc hmove => exact .inr ⟨rfl, .timerMove pc hmove⟩
  | timerPut now hpc => exact .inr ⟨rfl, .timerPut now hpc⟩
  | writeLast now hpc => exact .inr ⟨rfl, .writeLast now hpc⟩
  | stop hpc => exact absurd hsilent (by simp [silent])
  | receiverMove pc hmove => exact absurd hsilent (by simp [silent])
  | add message level hpc => exact absurd hsilent (by simp [silent])
  | writeReset now hpc => exact absurd hsilent (by simp [silent])
  | receiverPut hpc => exact absurd hsilent (by simp [silent])
  | writeFinished now hpc => exact absurd hsilent (by simp [silent])

theorem step_unprinted {a : ProcessorAction} (h : Unprinted timeoutSeconds c n s)
    (hsilent : silent a = true) (hstep : processorMachine.step s a = some (s', fs)) :
    Unprinted timeoutSeconds c n s' ∧ printedTotals fs = []
      ∨ Printed s' ∧ printedTotals fs = [n] := by
  rcases silent_step hsilent hstep with ⟨d, -, rfl, hfs⟩ | ⟨-, htimer⟩
  · exact .inl ⟨h.tick d, hfs⟩
  · exact h.timer htimer

theorem step_printed {a : ProcessorAction} (h : Printed s) (hsilent : silent a = true)
    (hstep : processorMachine.step s a = some (s', fs)) : Printed s' ∧ printedTotals fs = [] := by
  rcases silent_step hsilent hstep with ⟨d, -, rfl, hfs⟩ | ⟨-, htimer⟩
  · exact ⟨h.tick d, hfs⟩
  · exact h.timer htimer

/-- Along a silence the total is printed once, or not yet. -/
theorem run_silent {as : List ProcessorAction} (h : Unprinted timeoutSeconds c n s)
    (hsilent : as.all silent = true) (hrun : processorMachine.run s as = some (s', fs)) :
    Unprinted timeoutSeconds c n s' ∧ printedTotals fs = []
      ∨ Printed s' ∧ printedTotals fs = [n] := by
  refine processorMachine.run_induction (P := fun as s' fs => as.all silent = true →
    Unprinted timeoutSeconds c n s' ∧ printedTotals fs = []
      ∨ Printed s' ∧ printedTotals fs = [n]) (fun _ => .inl ⟨h, rfl⟩) ?_ hrun hsilent
  rintro as a s₁ es₁ s₂ es₂ - ih hstep hsilent
  simp only [List.all_append, List.all_cons, List.all_nil, Bool.and_true, Bool.and_eq_true] at hsilent
  rw [printedTotals_append]
  rcases ih hsilent.1 with ⟨h₁, hfs⟩ | ⟨h₁, hfs⟩
  · rw [hfs, List.nil_append]
    exact step_unprinted h₁ hsilent.2 hstep
  · obtain ⟨h₂, hnone⟩ := step_printed h₁ hsilent.2 hstep
    exact .inr ⟨h₂, by rw [hfs, hnone, List.append_nil]⟩

/-! ## Behind the deadline -/

/-- The timer's turns before the one that prints, when every fresh reading
passes the test. One that was taken before may fail it. -/
def turnsLeft (s : ProcessorThreads) : Nat :=
  match s.timer with
  | .writeLast _ => 5
  | .loop => 4
  | .readNow => 3
  | .readLast now => if timeoutPassed s now then 2 else 5
  | .checkChanged _ => 1
  | .put _ => 0
  | .done => 0

theorem turnsLeft_lt (s : ProcessorThreads) : turnsLeft s < 6 := by
  unfold turnsLeft
  split
  next => decide
  next => decide
  next => decide
  next => split <;> decide
  next => decide
  next => decide
  next => decide

/-- A reading from the deadline on passes the test. -/
theorem timeoutPassed_of_deadline {now : TimePoint} (h : Unprinted timeoutSeconds c n s)
    (hnow : deadline timeoutSeconds c ≤ now) : timeoutPassed s now = true := by
  have hpos : (0 : Int) < oneSecond := by decide
  have hgone : timeoutSeconds.toNat * oneSecond ≤ now - s.last := by
    refine Int.le_sub_right_of_add_le (Int.le_trans ?_ hnow)
    rw [deadline, Int.add_comm]
    exact Int.add_le_add_right h.last _
  have hwhole : (timeoutSeconds.toNat : Int) ≤ MessageProcessor.timeSinceLastPrint now s.last := by
    have hdiv := Int.tdiv_le_tdiv hpos hgone
    rwa [Int.mul_tdiv_cancel _ (Int.ne_of_gt hpos)] at hdiv
  rw [timeoutPassed, h.timeout, decide_eq_true_eq]
  exact Int.le_trans (Int.self_le_toNat timeoutSeconds) hwhole

/-- In the silence, behind the deadline. -/
def Overdue (timeoutSeconds : Int) (c : TimePoint) (n : Nat) (s : ProcessorThreads) : Prop :=
  Unprinted timeoutSeconds c n s ∧ deadline timeoutSeconds c ≤ s.clock

/-- Each turn of the timer brings the print nearer. -/
theorem overdue_leadsTo (timeoutSeconds : Int) (c : TimePoint) (n : Nat) :
    processorMachine.LeadsTo (Overdue timeoutSeconds c n) Printed turnsLeft silent
      (· == .timer) := by
  refine ⟨?_, fun h hstep hsilent => (step_printed h hsilent hstep).1⟩
  rintro s a s' es ⟨h, hdeadline⟩ hstep hsilent
  rcases step_unprinted h hsilent hstep with ⟨h', hfs⟩ | ⟨h', -⟩
  · rcases silent_step hsilent hstep with ⟨d, ha, rfl, -⟩ | ⟨rfl, htimer⟩
    · refine .inl ⟨⟨h', ?_⟩, ?_⟩
      · exact Int.le_trans hdeadline (Int.le_add_of_nonneg_right (Int.natCast_nonneg d))
      · rw [if_neg (by simpa using ha)]
        exact Nat.le_refl _
    · rw [if_pos (by rfl)]
      cases htimer with
      | timerMove pc hmove =>
        refine .inl ⟨⟨h', hdeadline⟩, ?_⟩
        cases hmove with
        | enter hpc hrunning => simp [turnsLeft, hpc]
        | leave hpc hstopped => exact absurd h.running (by simp [hstopped])
        | read hpc =>
          have hlate := timeoutPassed_of_deadline h' hdeadline
          simp [turnsLeft, hpc, hlate]
        | late now hpc hlate =>
          have hpassed : timeoutPassed s now = true := decide_eq_true hlate
          simp [turnsLeft, hpc, hpassed]
        | early now hpc hearly =>
          have hpassed : timeoutPassed s now = false := decide_eq_false hearly
          simp [turnsLeft, hpc, hpassed]
        | changed now hpc hchanged => simp [turnsLeft, hpc]
        | unchanged now hpc hsame => exact absurd h.changed (by simp [hsame])
      | timerPut now hpc =>
        rw [(putStats_print h.callback s.clock .timer).1] at hfs
        exact absurd hfs (by simp)
      | writeLast now hpc => exact .inl ⟨⟨h', hdeadline⟩, by simp [turnsLeft, hpc]⟩
  · exact .inr h'

/-- A silence begins, with something to print. -/
theorem run_unprinted {N : Nat} {created now : TimePoint} {as : List ProcessorAction}
    (hrun : processorMachine.run (started N timeoutSeconds false created now) as = some (s, es))
    (hrunning : s.processor.running = true)
    (hchanged : hasStatsChangedSinceLastPrint s.stats = true) :
    Unprinted timeoutSeconds s.clock s.stats.totalMessages s := by
  obtain ⟨hconfig, -⟩ := run_collector ⟨[], rfl, rfl⟩ hrun
  have hbehind := run_behind (started_behind N timeoutSeconds false created now) hrun
  exact
    { running := hrunning
      timeout := hconfig.timeout
      callback := hconfig.callback
      last := hbehind.last
      writes := fun now hpc => hbehind.held now (by rw [hpc]; rfl)
      alive := fun hdone => by rw [hbehind.ended hdone] at hrunning; cases hrunning
      total := rfl
      changed := hchanged }

/-- **A silence is printed.** Whatever the threads have done so far, as long as
the receiver does nothing but turn away records that do not parse, and nobody
stops the processor, the timer always has a step, and it prints what has not
been printed once and not twice: within six steps once the timeout has gone by
on the clock. -/
theorem silence_prints (N : Nat) (timeoutSeconds : Int) (created now : TimePoint)
    (as bs cs : List ProcessorAction)
    (hrun : processorMachine.run (started N timeoutSeconds false created now) as = some (s, es))
    (hrunning : s.processor.running = true)
    (hchanged : hasStatsChangedSinceLastPrint s.stats = true)
    (hsilent : (bs ++ cs).all silent = true)
    (hwait : processorMachine.run s bs = some (s₁, fs))
    (hrest : processorMachine.run s₁ cs = some (s₂, gs)) :
    (processorMachine.step s₂ .timer).isSome = true
      ∧ (printedTotals (fs ++ gs) = [] ∨ printedTotals (fs ++ gs) = [s.stats.totalMessages])
      ∧ (deadline timeoutSeconds s.clock ≤ s₁.clock → 6 ≤ cs.count .timer →
          printedTotals (fs ++ gs) = [s.stats.totalMessages]
            ∧ hasStatsChangedSinceLastPrint s₂.stats = false) := by
  have h := run_unprinted hrun hrunning hchanged
  have hwhole := run_silent h hsilent (processorMachine.run_append hwait hrest)
  have hlead := overdue_leadsTo timeoutSeconds s.clock s.stats.totalMessages
  rw [List.all_append, Bool.and_eq_true] at hsilent
  refine ⟨?_, ?_, fun hdeadline hturns => ?_⟩
  · rcases hwhole with ⟨h₂, -⟩ | ⟨h₂, -⟩
    · exact stepTimer_isSome h₂.alive
    · exact stepTimer_isSome h₂.alive
  · rcases hwhole with ⟨-, hnone⟩ | ⟨-, hone⟩
    · exact .inl hnone
    · exact .inr hone
  · have hprinted : Printed s₂ := by
      rcases run_silent h hsilent.1 hwait with ⟨h₁, -⟩ | ⟨h₁, -⟩
      · exact hlead.reaches ⟨h₁, hdeadline⟩ hsilent.2
          (Nat.lt_of_lt_of_le (turnsLeft_lt s₁) hturns) hrest
      · exact hlead.run_stays h₁ hsilent.2 hrest
    rcases hwhole with ⟨h₂, -⟩ | ⟨h₂, hone⟩
    · exact absurd h₂.changed (by simp [hprinted.same])
    · exact ⟨hone, h₂.same⟩

/-- A message is taken up while the timer makes its test, which fails, and a
record that does not parse comes after it: the timer takes all six steps. -/
def silenceBegins : List ProcessorAction :=
  [.timer, .timer, .receive (ascii "[t] [INFO] a"), .receiver, .receiver, .receiver, .receiver]

theorem silence_prints_six : ∃ s s₁ s₂ es fs gs,
    processorMachine.run (started 10 1 false 0 0) silenceBegins = some (s, es)
      ∧ processorMachine.run s [.tick 1000000000, .receive (ascii "b")] = some (s₁, fs)
      ∧ processorMachine.run s₁ (List.replicate 6 .timer) = some (s₂, gs)
      ∧ printedTotals (fs ++ gs) = [1] := by
  obtain ⟨s, s₁, s₂, es, fs, gs, hrun, hrunning, hchanged, htotal, hwait, hwaited, hrest⟩ :
      ∃ s s₁ s₂ es fs gs,
        processorMachine.run (started 10 1 false 0 0) silenceBegins = some (s, es)
          ∧ s.processor.running = true ∧ hasStatsChangedSinceLastPrint s.stats = true
          ∧ s.stats.totalMessages = 1
          ∧ processorMachine.run s [.tick 1000000000, .receive (ascii "b")] = some (s₁, fs)
          ∧ deadline 1 s.clock ≤ s₁.clock
          ∧ processorMachine.run s₁ (List.replicate 6 .timer) = some (s₂, gs) :=
    ⟨_, _, _, _, _, _, rfl, rfl, rfl, rfl, rfl, by decide, rfl⟩
  have hprints := (silence_prints 10 1 0 0 silenceBegins [.tick 1000000000, .receive (ascii "b")]
    (List.replicate 6 .timer) hrun hrunning hchanged rfl hwait hrest).2.2 hwaited (by decide)
  exact ⟨s, s₁, s₂, es, fs, gs, hrun, hwait, hrest, hprints.1.trans (by rw [htotal])⟩

end LogMetrics.MetricsApplication
