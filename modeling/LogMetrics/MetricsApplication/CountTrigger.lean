import Mathlib.Data.Nat.Basic
import LogMetrics.MetricsApplication.ProcessorThreads

/-!
# Statistics every `N` messages

What the receiver has to do with a sequence of payloads can be written down
without the timer: `expectedNotes`. A payload that a parser rejects is only
logged; an accepted one is added and resets the timer, and when it brings
the number of accepted ones to a multiple of `N` the statistics come out and
the timer is reset again.

Invariant: what the receiver has done, and what its place in
`process_message` says it still will (`pending`), is what is expected of the
payloads so far (`CountInv`). The timer is not in it: its steps leave the
receiver's place and the collector's total alone. `count_triggered` reads off
the law, for every schedule.
-/

namespace LogMetrics.MetricsApplication

open LogMetrics.Base
open LogMetrics.Logger (LogLevel)
open MetricsCollector ProcessorThreads

/-- What the receiver does, without the values it prints and reads; `run_outputs`
says what `emitted` puts out. -/
inductive ReceiverNote where
  | log (logMessage : Bytes)
  | added (message : Bytes) (level : LogLevel)
  | timerReset
  | emitted
  deriving DecidableEq, Repr

def ProcessorEvent.receiverNote? : ProcessorEvent → Option ReceiverNote
  | .log logMessage => some (.log logMessage)
  | .parseError _ => none
  | .added message level => some (.added message level)
  | .emitted .receiver _ => some .emitted
  | .emitted .timer _ => none
  | .lastWritten .receiver _ => some .timerReset
  | .lastWritten .timer _ => none

/-- What the receiver did, in order. -/
def receiverNotes (es : List ProcessorEvent) : List ReceiverNote :=
  es.filterMap ProcessorEvent.receiverNote?

/-- The payloads handed to `process_message`, in order. -/
def payloads (es : List ProcessorEvent) : List Bytes :=
  es.filterMap fun
    | .log logMessage => some logMessage
    | _ => none

/-- The message and the level of a payload that both parsers accept. -/
def accepted? (payload : Bytes) : Option (Bytes × LogLevel) := do
  let message ← parseMessageFromLog payload
  let level ← parseLevelFromLog payload
  return (message, level)

/-- The accepted payloads, parsed. -/
def accepted (ps : List Bytes) : List (Bytes × LogLevel) := ps.filterMap accepted?

/-- What follows when the number of accepted payloads has become `k`. -/
def countNotes (N k : Nat) : List ReceiverNote :=
  if 0 < k ∧ k % N = 0 then [.emitted, .timerReset] else []

/-- What is to be done with a payload after `k` accepted ones. -/
def payloadNotes (N k : Nat) (payload : Bytes) : List ReceiverNote :=
  match accepted? payload with
  | none => [.log payload]
  | some (message, level) =>
    [.log payload, .added message level, .timerReset] ++ countNotes N (k + 1)

/-- What is to be done with payloads, one after another, after `k` accepted
ones. -/
def expectedNotes (N : Nat) : Nat → List Bytes → List ReceiverNote
  | _, [] => []
  | k, p :: ps => payloadNotes N k p ++ expectedNotes N (k + (accepted [p]).length) ps

theorem parsePayload_error {payload text : Bytes} (h : parsePayload payload = .error text) :
    accepted? payload = none := by
  unfold parsePayload at h
  unfold accepted?
  split at h
  next hmessage => rw [hmessage]; rfl
  next message hmessage =>
    rw [hmessage]
    split at h
    next hlevel => rw [hlevel]; rfl
    next => exact absurd h (by simp)

theorem parsePayload_ok {payload message : Bytes} {level : LogLevel}
    (h : parsePayload payload = .ok (message, level)) :
    accepted? payload = some (message, level) := by
  unfold parsePayload at h
  unfold accepted?
  split at h
  next => exact absurd h (by simp)
  next message' hmessage =>
    rw [hmessage]
    split at h
    next => exact absurd h (by simp)
    next level' hlevel =>
      rw [hlevel]
      cases h
      rfl

theorem accepted_append (ps qs : List Bytes) : accepted (ps ++ qs) = accepted ps ++ accepted qs :=
  List.filterMap_append

theorem length_accepted_cons (p : Bytes) (ps : List Bytes) :
    (accepted (p :: ps)).length = (accepted [p]).length + (accepted ps).length := by
  rw [← List.length_append, ← accepted_append]
  rfl

theorem accepted_singleton (p : Bytes) : accepted [p] = (accepted? p).toList := by
  cases h : accepted? p <;> simp [accepted, h]

theorem expectedNotes_snoc (N k : Nat) (ps : List Bytes) (p : Bytes) :
    expectedNotes N k (ps ++ [p])
      = expectedNotes N k ps ++ payloadNotes N (k + (accepted ps).length) p := by
  induction ps generalizing k with
  | nil => exact List.append_nil _
  | cons q ps ih =>
    rw [List.cons_append, expectedNotes, ih, expectedNotes, List.append_assoc,
      length_accepted_cons q ps, Nat.add_assoc]

/-- Among `k` accepted payloads and those that follow, every `N`-th makes the
statistics come out. -/
theorem count_emitted (N k : Nat) (ps : List Bytes) :
    (expectedNotes N k ps).count .emitted + k / N = (k + (accepted ps).length) / N := by
  induction ps generalizing k with
  | nil => simp [expectedNotes, accepted]
  | cons p ps ih =>
    have ih' := ih (k + (accepted [p]).length)
    rw [expectedNotes, List.count_append, length_accepted_cons p ps, ← Nat.add_assoc, ← ih']
    -- this payload adds one emission when it brings the count to a multiple
    have hpay : (payloadNotes N k p).count .emitted + k / N = (k + (accepted [p]).length) / N := by
      rw [accepted_singleton, payloadNotes]
      cases accepted? p with
      | none => simp
      | some parsed =>
        simp only [Option.toList_some, List.length_singleton, Nat.succ_div, countNotes,
          ← Nat.dvd_iff_mod_eq_zero]
        by_cases hdvd : N ∣ k + 1
        · simp [hdvd, Nat.add_comm]
        · simp [hdvd]
    omega

/-! ## The invariant -/

/-- What the receiver still does for the payload it is at, when `k` messages
have been added. -/
def pending (N k : Nat) : ReceiverPc → List ReceiverNote
  | .idle => []
  | .add message level => [.added message level, .timerReset] ++ countNotes N (k + 1)
  | .readReset => [.timerReset] ++ countNotes N k
  | .writeReset _ => [.timerReset] ++ countNotes N k
  | .checkCount => countNotes N k
  | .put => [.emitted, .timerReset]
  | .readFinished => [.timerReset]
  | .writeFinished _ => [.timerReset]

/-- The message the receiver is about to add. -/
def pendingAdd : ReceiverPc → List (Bytes × LogLevel)
  | .add message level => [(message, level)]
  | _ => []

structure CountInv (N : Nat) (es : List ProcessorEvent) (s : ProcessorThreads) : Prop where
  notes : receiverNotes es ++ pending N (addedMessages es).length s.receiver
    = expectedNotes N 0 (payloads es)
  counted : addedMessages es ++ pendingAdd s.receiver = accepted (payloads es)

variable {N : Nat} {es fs : List ProcessorEvent} {s s' : ProcessorThreads}

theorem receiverNotes_append (es fs : List ProcessorEvent) :
    receiverNotes (es ++ fs) = receiverNotes es ++ receiverNotes fs := List.filterMap_append

theorem payloads_append (es fs : List ProcessorEvent) :
    payloads (es ++ fs) = payloads es ++ payloads fs := List.filterMap_append

/-- A step that does some of what is pending, and takes no payload. -/
theorem CountInv.advance (h : CountInv N es s) (hpay : payloads fs = [])
    (hnotes : receiverNotes fs
        ++ pending N ((addedMessages es).length + (addedMessages fs).length) s'.receiver
      = pending N (addedMessages es).length s.receiver)
    (hadd : addedMessages fs ++ pendingAdd s'.receiver = pendingAdd s.receiver) :
    CountInv N (es ++ fs) s' := by
  constructor
  · rw [receiverNotes_append, payloads_append, hpay, List.append_nil, List.append_assoc,
      addedMessages_append, List.length_append, hnotes]
    exact h.notes
  · rw [addedMessages_append, payloads_append, hpay, List.append_nil, List.append_assoc, hadd]
    exact h.counted

/-- Between two payloads nothing is pending. -/
theorem CountInv.idle (h : CountInv N es s) (hpc : s.receiver = .idle) :
    receiverNotes es = expectedNotes N 0 (payloads es)
      ∧ addedMessages es = accepted (payloads es) := by
  have hnotes := h.notes
  have hcounted := h.counted
  rw [hpc, pending, List.append_nil] at hnotes
  rw [hpc, show pendingAdd .idle = [] from rfl, List.append_nil] at hcounted
  exact ⟨hnotes, hcounted⟩

/-- A step that takes a payload. -/
theorem CountInv.payload (h : CountInv N es s) (p : Bytes) (hpc : s.receiver = .idle)
    (hpay : payloads fs = [p]) (hfs : addedMessages fs = [])
    (hnotes : receiverNotes fs ++ pending N (addedMessages es).length s'.receiver
      = payloadNotes N (addedMessages es).length p)
    (hadd : pendingAdd s'.receiver = accepted [p]) :
    CountInv N (es ++ fs) s' := by
  obtain ⟨hdone, hcounted⟩ := h.idle hpc
  constructor
  · rw [receiverNotes_append, payloads_append, addedMessages_append, hpay, hfs, List.append_nil,
      List.append_assoc, hnotes, expectedNotes_snoc, hdone, Nat.zero_add, hcounted]
  · rw [addedMessages_append, payloads_append, hpay, hfs, List.append_nil, accepted_append,
      hcounted, hadd]

/-- The test on the count, when `k` messages have been added. -/
theorem countNotes_total {k : Nat} {stats : MessageStats} (htotal : stats.totalMessages = k) :
    countNotes N k = if shouldPrintStats N stats then [.emitted, .timerReset] else [] := by
  simp only [countNotes, shouldPrintStats, htotal, Bool.and_eq_true, decide_eq_true_eq,
    beq_iff_eq, gt_iff_lt]

theorem step_count {a : ProcessorAction} (h : CountInv N es s)
    (hinterval : s.processor.messageInterval = N)
    (htotal : s.stats.totalMessages = (addedMessages es).length)
    (hstep : ProcessorStep s a s' fs) : CountInv N (es ++ fs) s' := by
  cases hstep with
  | tick d => exact h.advance rfl rfl rfl
  | stop hpc => exact h.advance rfl rfl rfl
  | reject p text hpc hparse =>
    have hreject := parsePayload_error hparse
    refine h.payload p hpc rfl rfl ?_ ?_
    · rw [payloadNotes, hreject, hpc]
      rfl
    · rw [accepted_singleton, hreject, hpc]
      rfl
  | accept p message level hpc hparse =>
    have haccept := parsePayload_ok hparse
    refine h.payload p hpc rfl rfl ?_ ?_
    · rw [payloadNotes, haccept]
      rfl
    · rw [accepted_singleton, haccept]
      rfl
  | receiverMove pc hmove =>
    cases hmove with
    | readReset hpc => exact h.advance rfl (by rw [hpc]; rfl) (by rw [hpc]; rfl)
    | due hpc hdue =>
      -- the collector's total is the count, so the test agrees with `countNotes`
      refine h.advance rfl ?_ (by rw [hpc]; rfl)
      have hcount := countNotes_total (N := N) htotal
      rw [← hinterval, if_pos hdue] at hcount
      rw [hpc]
      show _ = countNotes N _
      rw [← hinterval, hcount]
      rfl
    | notDue hpc hdue =>
      refine h.advance rfl ?_ (by rw [hpc]; rfl)
      have hcount := countNotes_total (N := N) htotal
      rw [← hinterval, if_neg (by simp [hdue])] at hcount
      rw [hpc]
      show _ = countNotes N _
      rw [← hinterval, hcount]
      rfl
    | readFinished hpc => exact h.advance rfl (by rw [hpc]; rfl) (by rw [hpc]; rfl)
  | add message level hpc => exact h.advance rfl (by rw [hpc]; rfl) (by rw [hpc]; rfl)
  | writeReset now hpc => exact h.advance rfl (by rw [hpc]; rfl) (by rw [hpc]; rfl)
  | receiverPut hpc => exact h.advance rfl (by rw [hpc]; rfl) (by rw [hpc]; rfl)
  | writeFinished now hpc => exact h.advance rfl (by rw [hpc]; rfl) (by rw [hpc]; rfl)
  | timerMove pc hmove => exact h.advance rfl rfl rfl
  | timerPut now hpc => exact h.advance rfl rfl rfl
  | writeLast now hpc => exact h.advance rfl rfl rfl

/-- No more messages are added than payloads taken. -/
theorem CountInv.added_le (h : CountInv N es s) :
    (addedMessages es).length ≤ (payloads es).length := by
  have hcounted := congrArg List.length h.counted
  rw [List.length_append] at hcounted
  have hle : (accepted (payloads es)).length ≤ (payloads es).length :=
    List.length_filterMap_le _ _
  omega

theorem run_count {s₀ : ProcessorThreads} {as : List ProcessorAction}
    (h₀ : HasAdded [] s₀.stats) (hidle : s₀.receiver = .idle)
    (hrun : processorMachine.run s₀ as = some (s, es)) (hfew : (payloads es).length < sizeMod) :
    CountInv s₀.processor.messageInterval es s := by
  refine processorMachine.run_induction
    (P := fun _ s es => (payloads es).length < sizeMod →
      CountInv s₀.processor.messageInterval es s) ?_ ?_ hrun hfew
  · intro _
    constructor
    · rw [hidle]
      rfl
    · rw [hidle]
      rfl
  · intro as a s es s' fs hrun ih hstep hfew
    rw [payloads_append, List.length_append] at hfew
    have hinv := ih (by omega)
    -- below `2 ^ 64` messages the total has not wrapped
    obtain ⟨hconfig, hadded⟩ := run_collector h₀ hrun
    have hle := hinv.added_le
    have htotal := hadded.total
    rw [Nat.mod_eq_of_lt (by omega)] at htotal
    exact step_count hinv hconfig.interval htotal (processorStep_inv hstep)

/-- **Statistics every `N` messages.** Whatever the timer does in between, the
receiver does what is expected of the payloads: after each of them exactly
that, so `k` accepted ones make the statistics come out `k / N` times, the
collector has had each accepted one, and a rejected one changes nothing. -/
theorem count_triggered (N : Nat) (timeoutSeconds : Int) (statsCallback : Bool)
    (created now : TimePoint) (as : List ProcessorAction)
    (hrun : processorMachine.run (started N timeoutSeconds statsCallback created now) as
      = some (s, es))
    (hfew : (payloads es).length < sizeMod) :
    receiverNotes es <+: expectedNotes N 0 (payloads es)
      ∧ (s.receiver = .idle →
          receiverNotes es = expectedNotes N 0 (payloads es)
            ∧ (receiverNotes es).count .emitted = (accepted (payloads es)).length / N
            ∧ HasAdded (accepted (payloads es)) s.stats
            ∧ ∀ p, accepted? p = none →
                ∃ text, processorMachine.step s (.receive p)
                  = some (s, [.log p, .parseError text])) := by
  have hfresh : HasAdded [] (started N timeoutSeconds statsCallback created now).stats :=
    ⟨[], rfl, rfl⟩
  have hinv : CountInv N es s := run_count hfresh rfl hrun hfew
  refine ⟨⟨_, hinv.notes⟩, fun hidle => ?_⟩
  obtain ⟨hnotes, hcounted⟩ := hinv.idle hidle
  refine ⟨hnotes, ?_, ?_, fun p hreject => ?_⟩
  · have hcount := count_emitted N 0 (payloads es)
    rw [Nat.zero_div, Nat.add_zero, Nat.zero_add] at hcount
    rw [hnotes, hcount]
  · rw [← hcounted]
    exact (run_collector hfresh hrun).2
  · cases hparse : parsePayload p with
    | ok parsed =>
      have haccept := parsePayload_ok hparse
      rw [hreject] at haccept
      exact absurd haccept (by simp)
    | error text =>
      refine ⟨text, ?_⟩
      simp [processorMachine, ProcessorThreads.step, hidle, hparse]

/-- A text that is no record between two records, with the timer at work. -/
def mixedSchedule : List ProcessorAction :=
  [.receive (ascii "[t] [INFO] a"), .timer, .receiver, .receiver, .tick 5, .receiver, .timer,
    .receiver, .receive (ascii "[t] INFO"), .receive (ascii "[t] [fatal] b"), .receiver, .receiver,
    .receiver, .receiver, .receiver, .timer, .receiver, .receiver]

theorem count_triggered_mixed :
    ∃ s es, processorMachine.run (started 2 1 false 0 0) mixedSchedule = some (s, es)
      ∧ (receiverNotes es).count .emitted = 1 :=
  ⟨_, _, rfl, ((count_triggered 2 1 false 0 0 mixedSchedule rfl (by decide)).2 rfl).2.1.trans
    (by decide)⟩

end LogMetrics.MetricsApplication
