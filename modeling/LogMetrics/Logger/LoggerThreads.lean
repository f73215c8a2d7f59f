import LogMetrics.Base.Linearizable
import LogMetrics.Logger.SinkRuns

/-!
# A `Logger` shared by threads

Any number of threads call any methods of one logger but `set_default_level`,
whose store to `default_level_` is not protected by `sinks_mutex_`. A step is
the locked section of a method, except that `log` writes to one sink at a
time; what touches nothing shared is part of the step before it. `debug` to
`fatal`, and `log` without a level, are calls of `log`.

`log` locks `sinks_mutex_` twice, and between the two sections the sinks it
asked about may have been cleared, or lost, or others added. It is atomic all
the same: it takes effect at the second lock, or, when the level is too low
or no sink valid, where it finds that out. At the second lock the answer to
the question asked before does not matter (`log_sinks`). So every history of
calls linearizes to the logger one thread sees (`linearizable`), and the sinks
have been given the records of one sequence of calls (`FileContents.lean`,
`run_served`).
-/

namespace LogMetrics.Logger

open LogMetrics.Base

variable {σ ι : Type} [DecidableEq ι]

/-! ## The threads -/

/-- A call of a shared logger; a null `sink` is `none`, and `timestamp` is
what `get_current_timestamp` returns if it is asked. -/
inductive SharedCall (σ : Type) where
  | addSink (sink : Option σ)
  | clearSinks
  | sinkCount
  | isValid
  | getDefaultLevel
  | log (timestamp message : Bytes) (level : LogLevel)

/-- What a call returns. -/
inductive Reply where
  | done
  | count (n : Nat)
  | valid (answer : Bool)
  | level (level : LogLevel)
  deriving DecidableEq, Repr

/-- The call made by one thread alone. -/
def SharedCall.apply [ILogSink σ] (call : SharedCall σ) (logger : Logger σ) : Reply × Logger σ :=
  match call with
  | .addSink sink => (.done, logger.addSink sink)
  | .clearSinks => (.done, logger.clearSinks)
  | .sinkCount => (.count logger.sinkCount, logger)
  | .isValid => (.valid logger.isValid, logger)
  | .getDefaultLevel => (.level logger.getDefaultLevel, logger)
  | .log timestamp message level => (.done, logger.log timestamp message level)

/-- Where a thread is. `write` holds `sinks_mutex_`; its next sink is in place
`k`. -/
inductive LoggerPc (σ : Type) where
  | idle
  | start (call : SharedCall σ)
  | validCheck (timestamp message : Bytes) (level : LogLevel)
  | lockSinks (timestamp message : Bytes) (level : LogLevel)
  | write (record : Bytes) (k : Nat)
  | returning (reply : Reply)

/-- The logger and the threads. -/
structure LoggerThreads (σ ι : Type) where
  defaultLevel : LogLevel
  sinks : List σ
  sinksMutex : Option ι
  pc : ι → LoggerPc σ

inductive LoggerAction (σ ι : Type) where
  | call (t : ι) (call : SharedCall σ)
  | advance (t : ι)

namespace LoggerThreads

/-- What `sinks_mutex_` protects, and the level. -/
def logger (s : LoggerThreads σ ι) : Logger σ := ⟨s.sinks, s.defaultLevel⟩

def moveTo (s : LoggerThreads σ ι) (t : ι) (pc : LoggerPc σ) : LoggerThreads σ ι :=
  { s with pc := Function.update s.pc t pc }

variable [ILogSink σ]

/-- The first step of a call. -/
def enter (s : LoggerThreads σ ι) (t : ι) (call : SharedCall σ) : Option (LoggerThreads σ ι) :=
  match call with
  | .addSink none => some (s.moveTo t (.returning .done))
  | .addSink (some sink) =>
    if s.sinksMutex.isSome then none
    else some ({ s with sinks := s.sinks ++ [sink] }.moveTo t (.returning .done))
  | .clearSinks =>
    if s.sinksMutex.isSome then none
    else some ({ s with sinks := [] }.moveTo t (.returning .done))
  | .sinkCount =>
    if s.sinksMutex.isSome then none
    else some (s.moveTo t (.returning (.count s.sinks.length)))
  | .isValid =>
    if s.sinksMutex.isSome then none
    else some (s.moveTo t (.returning (.valid s.logger.isValid)))
  | .getDefaultLevel => some (s.moveTo t (.returning (.level s.defaultLevel)))
  | .log timestamp message level =>
    if Logger.isBelow level s.defaultLevel then some (s.moveTo t (.returning .done))
    else some (s.moveTo t (.validCheck timestamp message level))

/-- One step of thread `t` inside a call. -/
def advance (s : LoggerThreads σ ι) (t : ι) :
    Option (LoggerThreads σ ι × List (HistoryEvent ι (SharedCall σ) Reply)) :=
  match s.pc t with
  | .idle => none
  | .start call => (s.enter t call).map (·, [])
  | .validCheck timestamp message level =>
    if s.sinksMutex.isSome then none
    else if not s.logger.isValid then
      some (s.moveTo t (.returning .done), [])
    else some (s.moveTo t (.lockSinks timestamp message level), [])
  | .lockSinks timestamp message level =>
    if s.sinksMutex.isSome then none
    else
      some ({ s with sinksMutex := some t }.moveTo t
        (.write (formatMessage timestamp message level) 0), [])
  | .write record k =>
    match s.sinks[k]? with
    | some sink =>
      some ({ s with sinks := s.sinks.set k (ILogSink.write record sink) }.moveTo t
        (.write record (k + 1)), [])
    | none => some ({ s with sinksMutex := none }.moveTo t (.returning .done), [])
  | .returning reply => some (s.moveTo t .idle, [.returned t reply])

def step (s : LoggerThreads σ ι) :
    LoggerAction σ ι → Option (LoggerThreads σ ι × List (HistoryEvent ι (SharedCall σ) Reply))
  | .call t call =>
    match s.pc t with
    | .idle => some (s.moveTo t (.start call), [.called t call])
    | _ => none
  | .advance t => s.advance t

/-- Before any thread has called: the logger the constructor makes, or any
other. -/
def start (logger : Logger σ) : LoggerThreads σ ι where
  defaultLevel := logger.defaultLevel
  sinks := logger.sinks
  sinksMutex := none
  pc := fun _ => .idle

end LoggerThreads

/-- The threads as a machine. -/
def loggerMachine (σ ι : Type) [ILogSink σ] [DecidableEq ι] :
    Machine (LoggerThreads σ ι) (LoggerAction σ ι) (HistoryEvent ι (SharedCall σ) Reply) :=
  ⟨LoggerThreads.step⟩

/-! ## The logger the threads have in mind -/

namespace LoggerPc

/-- The record being written, and the place of the next sink. -/
def writing : LoggerPc σ → Option (Bytes × Nat)
  | .write record k => some (record, k)
  | _ => none

/-- A `log` behind its second lock has taken effect, whatever sinks are still
to be written to. -/
def status : LoggerPc σ → Status (SharedCall σ) Reply
  | .idle => .idle
  | .start call => .pending call
  | .validCheck timestamp message level => .pending (.log timestamp message level)
  | .lockSinks timestamp message level => .pending (.log timestamp message level)
  | .write _ _ => .committed .done
  | .returning reply => .committed reply

end LoggerPc

namespace LoggerThreads

/-- The write the thread that holds `sinks_mutex_` is in. -/
def current (s : LoggerThreads σ ι) : Option (Bytes × Nat) :=
  s.sinksMutex.bind fun t => (s.pc t).writing

variable [ILogSink σ]

/-- The sinks behind the write some thread is in. -/
def finished (sinks : List σ) : Option (Bytes × Nat) → List σ
  | some (record, k) => sinks.take k ++ (sinks.drop k).map (ILogSink.write record)
  | none => sinks

/-- The logger and what the threads wait for. -/
def abs (s : LoggerThreads σ ι) : Atomic ι (SharedCall σ) Reply (Logger σ) where
  object := ⟨finished s.sinks s.current, s.defaultLevel⟩
  status := fun t => (s.pc t).status

end LoggerThreads

open LoggerThreads (finished)

section Moves

variable {s : LoggerThreads σ ι} {t u : ι} {pc : LoggerPc σ}

@[simp] theorem moveTo_self : (s.moveTo t pc).pc t = pc := Function.update_self ..

theorem moveTo_ne (h : u ≠ t) : (s.moveTo t pc).pc u = s.pc u := Function.update_of_ne h ..

@[simp] theorem moveTo_sinks : (s.moveTo t pc).sinks = s.sinks := rfl

@[simp] theorem moveTo_sinksMutex : (s.moveTo t pc).sinksMutex = s.sinksMutex := rfl

@[simp] theorem moveTo_defaultLevel : (s.moveTo t pc).defaultLevel = s.defaultLevel := rfl

/-- Only the status of the thread that moves changes. -/
theorem status_moveTo [ILogSink σ] :
    (s.moveTo t pc).abs.status = Function.update s.abs.status t pc.status := by
  funext u
  show ((Function.update s.pc t pc) u).status = _
  by_cases hut : u = t
  · subst hut
    simp
  · simp [Function.update_of_ne hut, LoggerThreads.abs]

/-- A thread that does not write before and behind its move leaves the write
another is in alone. -/
theorem current_moveTo (hbefore : (s.pc t).writing = none) (hafter : pc.writing = none) :
    (s.moveTo t pc).current = s.current := by
  show s.sinksMutex.bind (fun u => ((Function.update s.pc t pc) u).writing) = s.current
  unfold LoggerThreads.current
  cases s.sinksMutex with
  | none => rfl
  | some u =>
    by_cases hut : u = t
    · subst hut
      simp [hbefore, hafter]
    · simp [Function.update_of_ne hut]

/-- A move together with a change of what the mutex protects. -/
theorem abs_moveTo [ILogSink σ] (sinks : List σ) (m : Option ι) :
    ({ s with sinks, sinksMutex := m }.moveTo t pc).abs
      = ⟨⟨finished sinks (m.bind fun u => (Function.update s.pc t pc u).writing),
          s.defaultLevel⟩, Function.update s.abs.status t pc.status⟩ := by
  rw [← status_moveTo]
  rfl

/-- A move outside the writing loop leaves the logger in mind alone. -/
theorem abs_moveTo_outside [ILogSink σ] (hbefore : (s.pc t).writing = none)
    (hafter : pc.writing = none) :
    (s.moveTo t pc).abs
      = { s.abs with status := Function.update s.abs.status t pc.status } := by
  have hcurrent := current_moveTo hbefore hafter
  unfold LoggerThreads.current at hcurrent
  have habs : (s.moveTo t pc).abs = _ := abs_moveTo s.sinks s.sinksMutex
  rw [show (s.sinksMutex.bind fun u => (Function.update s.pc t pc u).writing)
    = s.sinksMutex.bind fun u => (s.pc u).writing from hcurrent] at habs
  exact habs

/-- A move of a thread between two places at which it waits for the same. -/
theorem abs_stay [ILogSink σ] (hbefore : (s.pc t).writing = none) (hafter : pc.writing = none)
    (hstatus : pc.status = (s.pc t).status) : (s.moveTo t pc).abs = s.abs := by
  rw [abs_moveTo_outside hbefore hafter, hstatus]
  exact congrArg (fun status => ({ s.abs with status } : Atomic ..))
    (Function.update_eq_self t s.abs.status)

omit [DecidableEq ι] in
/-- While nobody holds the mutex, nobody is writing. -/
theorem current_of_free (hfree : s.sinksMutex = none) : s.current = none := by
  simp [LoggerThreads.current, hfree]

omit [DecidableEq ι] in
/-- The thread that holds the mutex is the one that is writing. -/
theorem current_of_held (hheld : s.sinksMutex = some t) : s.current = (s.pc t).writing := by
  simp [LoggerThreads.current, hheld]

end Moves

/-! ## What a step can do -/

variable [ILogSink σ]

/-- The steps, by what they do to the logger. -/
inductive LoggerStep (s : LoggerThreads σ ι) :
    LoggerThreads σ ι → List (HistoryEvent ι (SharedCall σ) Reply) → Prop
  | called (t : ι) (call : SharedCall σ) (hpc : s.pc t = .idle) :
      LoggerStep s (s.moveTo t (.start call)) [.called t call]
  | unlocked (t : ι) (call : SharedCall σ) (reply : Reply) (hpc : s.pc t = .start call)
      (hsame : ∀ sinks, call.apply ⟨sinks, s.defaultLevel⟩ = (reply, ⟨sinks, s.defaultLevel⟩)) :
      LoggerStep s (s.moveTo t (.returning reply)) []
  | locked (t : ι) (call : SharedCall σ) (reply : Reply) (sinks : List σ)
      (hpc : s.pc t = .start call) (hfree : s.sinksMutex = none)
      (happly : call.apply s.logger = (reply, ⟨sinks, s.defaultLevel⟩)) :
      LoggerStep s ({ s with sinks }.moveTo t (.returning reply)) []
  | passed (t : ι) (timestamp message : Bytes) (level : LogLevel)
      (hpc : s.pc t = .start (.log timestamp message level))
      (habove : Logger.isBelow level s.defaultLevel = false) :
      LoggerStep s (s.moveTo t (.validCheck timestamp message level)) []
  | invalid (t : ι) (timestamp message : Bytes) (level : LogLevel)
      (hpc : s.pc t = .validCheck timestamp message level) (hfree : s.sinksMutex = none)
      (hvalid : s.logger.isValid = false) : LoggerStep s (s.moveTo t (.returning .done)) []
  | valid (t : ι) (timestamp message : Bytes) (level : LogLevel)
      (hpc : s.pc t = .validCheck timestamp message level) :
      LoggerStep s (s.moveTo t (.lockSinks timestamp message level)) []
  | lock (t : ι) (timestamp message : Bytes) (level : LogLevel)
      (hpc : s.pc t = .lockSinks timestamp message level) (hfree : s.sinksMutex = none) :
      LoggerStep s ({ s with sinksMutex := some t }.moveTo t
        (.write (formatMessage timestamp message level) 0)) []
  | write (t : ι) (record : Bytes) (k : Nat) (sink : σ) (hpc : s.pc t = .write record k)
      (hsink : s.sinks[k]? = some sink) :
      LoggerStep s ({ s with sinks := s.sinks.set k (ILogSink.write record sink) }.moveTo t
        (.write record (k + 1))) []
  | unlock (t : ι) (record : Bytes) (k : Nat) (hpc : s.pc t = .write record k)
      (hend : s.sinks[k]? = none) :
      LoggerStep s ({ s with sinksMutex := none }.moveTo t (.returning .done)) []
  | returned (t : ι) (reply : Reply) (hpc : s.pc t = .returning reply) :
      LoggerStep s (s.moveTo t .idle) [.returned t reply]

theorem enter_inv {s s' : LoggerThreads σ ι} {t : ι} {call : SharedCall σ}
    (hpc : s.pc t = .start call) (h : s.enter t call = some s') : LoggerStep s s' [] := by
  unfold LoggerThreads.enter at h
  split at h
  next => cases h; exact .unlocked t _ .done hpc fun _ => rfl
  next sink =>
    split at h
    next => exact absurd h (by simp)
    next hfree => cases h; exact .locked t _ _ _ hpc (by simpa using hfree) rfl
  next =>
    split at h
    next => exact absurd h (by simp)
    next hfree => cases h; exact .locked t _ _ _ hpc (by simpa using hfree) rfl
  next =>
    split at h
    next => exact absurd h (by simp)
    next hfree => cases h; exact .locked t _ _ _ hpc (by simpa using hfree) rfl
  next =>
    split at h
    next => exact absurd h (by simp)
    next hfree => cases h; exact .locked t _ _ _ hpc (by simpa using hfree) rfl
  next => cases h; exact .unlocked t _ _ hpc fun _ => rfl
  next timestamp message level =>
    split at h
    next hbelow =>
      cases h
      refine .unlocked t _ _ hpc fun sinks => ?_
      simp [SharedCall.apply, Logger.log, hbelow]
    next habove => cases h; exact .passed t _ _ _ hpc (by simpa using habove)

theorem loggerStep_inv {s s' : LoggerThreads σ ι} {a : LoggerAction σ ι}
    {es : List (HistoryEvent ι (SharedCall σ) Reply)}
    (h : (loggerMachine σ ι).step s a = some (s', es)) : LoggerStep s s' es := by
  cases a with
  | call t call =>
    simp only [loggerMachine, LoggerThreads.step] at h
    split at h
    next hpc => cases h; exact .called t call hpc
    next => exact absurd h (by simp)
  | advance t =>
    simp only [loggerMachine, LoggerThreads.step, LoggerThreads.advance] at h
    split at h
    next => exact absurd h (by simp)
    next call hpc =>
      obtain ⟨s₁, henter, heq⟩ := Option.map_eq_some_iff.mp h
      cases heq
      exact enter_inv hpc henter
    next timestamp message level hpc =>
      split at h
      next => exact absurd h (by simp)
      next hfree =>
        split at h
        next hvalid =>
          cases h
          exact .invalid t _ _ _ hpc (by simpa using hfree) (by simpa using hvalid)
        next => cases h; exact .valid t _ _ _ hpc
    next timestamp message level hpc =>
      split at h
      next => exact absurd h (by simp)
      next hfree => cases h; exact .lock t _ _ _ hpc (by simpa using hfree)
    next record k hpc =>
      split at h
      next sink hsink => cases h; exact .write t record k sink hpc hsink
      next hend => cases h; exact .unlock t record k hpc hend
    next reply hpc => cases h; exact .returned t reply hpc

/-! ## The refinement -/

/-- A thread that writes holds the mutex, and a message on its way is not
below the level. -/
structure Exclusive (s : LoggerThreads σ ι) : Prop where
  holder : ∀ t, ((s.pc t).writing).isSome = true ↔ s.sinksMutex = some t
  level : ∀ t timestamp message level, s.pc t = .validCheck timestamp message level
    ∨ s.pc t = .lockSinks timestamp message level → Logger.isBelow level s.defaultLevel = false

section Keeps

variable {s s' : LoggerThreads σ ι} {es : List (HistoryEvent ι (SharedCall σ) Reply)}

omit [ILogSink σ] in
/-- A move into or out of the writing loop is the only one that has to do with
the mutex. -/
theorem Exclusive.move (h : Exclusive s) (t : ι) (pc : LoggerPc σ)
    (hwriting : (pc.writing).isSome = ((s.pc t).writing).isSome)
    (hlevel : ∀ timestamp message level, pc = .validCheck timestamp message level
      ∨ pc = .lockSinks timestamp message level → Logger.isBelow level s.defaultLevel = false) :
    Exclusive (s.moveTo t pc) := by
  refine ⟨fun u => ?_, fun u => ?_⟩
  · by_cases hut : u = t
    · subst hut
      rw [moveTo_self, hwriting]
      exact h.holder u
    · rw [moveTo_ne hut]
      exact h.holder u
  · by_cases hut : u = t
    · subst hut
      rw [moveTo_self]
      exact hlevel
    · rw [moveTo_ne hut]
      exact h.level u

omit [ILogSink σ] in
theorem Exclusive.lock (h : Exclusive s) (hfree : s.sinksMutex = none) (t : ι) (record : Bytes) :
    Exclusive ({ s with sinksMutex := some t }.moveTo t (.write record 0)) := by
  refine ⟨fun u => ?_, fun u => ?_⟩
  · by_cases hut : u = t
    · subst hut
      simp [LoggerPc.writing]
    · have hu := h.holder u
      rw [moveTo_ne hut]
      rw [hfree] at hu
      simpa [Ne.symm hut] using hu
  · by_cases hut : u = t
    · subst hut
      simp
    · rw [moveTo_ne hut]
      exact h.level u

omit [ILogSink σ] in
theorem Exclusive.unlock (h : Exclusive s) {t : ι} (hpc : ((s.pc t).writing).isSome = true)
    (reply : Reply) :
    Exclusive ({ s with sinksMutex := none }.moveTo t (.returning reply)) := by
  refine ⟨fun u => ?_, fun u => ?_⟩
  · by_cases hut : u = t
    · subst hut
      simp [LoggerPc.writing]
    · have hu := h.holder u
      rw [moveTo_ne hut]
      rw [(h.holder t).mp hpc] at hu
      simpa [Ne.symm hut] using hu
  · by_cases hut : u = t
    · subst hut
      simp
    · rw [moveTo_ne hut]
      exact h.level u

theorem LoggerStep.exclusive (h : Exclusive s) (hstep : LoggerStep s s' es) : Exclusive s' := by
  cases hstep with
  | called t call hpc => exact h.move t _ (by simp [hpc, LoggerPc.writing]) (by simp)
  | unlocked t call reply hpc hsame =>
    exact h.move t _ (by simp [hpc, LoggerPc.writing]) (by simp)
  | locked t call reply sinks hpc hfree happly =>
    have hmoved := h.move t (.returning reply) (by simp [hpc, LoggerPc.writing]) (by simp)
    exact ⟨hmoved.holder, hmoved.level⟩
  | passed t timestamp message level hpc habove =>
    refine h.move t _ (by simp [hpc, LoggerPc.writing]) fun timestamp' message' level' hat => ?_
    obtain ⟨-, -, rfl⟩ := by simpa using hat
    exact habove
  | invalid t timestamp message level hpc hfree hvalid =>
    exact h.move t _ (by simp [hpc, LoggerPc.writing]) (by simp)
  | valid t timestamp message level hpc =>
    refine h.move t _ (by simp [hpc, LoggerPc.writing]) fun timestamp' message' level' hat => ?_
    obtain ⟨-, -, rfl⟩ := by simpa using hat
    exact h.level t _ _ _ (.inl hpc)
  | lock t timestamp message level hpc hfree => exact h.lock hfree t _
  | write t record k sink hpc hsink =>
    have hmoved := h.move t (.write record (k + 1)) (by simp [hpc, LoggerPc.writing]) (by simp)
    exact ⟨hmoved.holder, hmoved.level⟩
  | unlock t record k hpc hend => exact h.unlock (by simp [hpc, LoggerPc.writing]) .done
  | returned t reply hpc => exact h.move t _ (by simp [hpc, LoggerPc.writing]) (by simp)

omit [DecidableEq ι] in
/-- While nobody holds the mutex, the logger in mind is the one there is. -/
theorem abs_object_of_free (hfree : s.sinksMutex = none) : s.abs.object = s.logger := by
  show (⟨finished s.sinks s.current, s.defaultLevel⟩ : Logger σ) = s.logger
  rw [current_of_free hfree]
  rfl

/-- One more sink written to, the same sinks in the end. -/
theorem finished_write {sinks : List σ} {record : Bytes} {k : Nat} {sink : σ}
    (h : sinks[k]? = some sink) :
    finished (sinks.set k (ILogSink.write record sink)) (some (record, k + 1))
      = finished sinks (some (record, k)) := by
  obtain ⟨hk, hsink⟩ := List.getElem?_eq_some_iff.mp h
  have htake : (sinks.set k (ILogSink.write record sink)).take (k + 1)
      = sinks.take k ++ [ILogSink.write record sink] := by
    rw [List.take_add_one, List.take_set_of_le (Nat.le_refl k), List.getElem?_set_self hk]
    rfl
  simp only [finished]
  rw [htake, List.drop_set_of_lt (by omega), List.drop_eq_getElem_cons hk, hsink, List.map_cons,
    List.append_assoc]
  rfl

/-- A commit, when it is known what the call does. -/
theorem commit_of_apply {p : Atomic ι (SharedCall σ) Reply (Logger σ)} {t : ι}
    (call : SharedCall σ) {reply : Reply} {logger : Logger σ}
    (hpending : p.status t = .pending call) (happly : call.apply p.object = (reply, logger)) :
    AtomicStep SharedCall.apply p []
      ⟨logger, Function.update p.status t (.committed reply)⟩ := by
  have hcommit : AtomicStep SharedCall.apply p [] _ := .commit t call hpending
  rwa [happly] at hcommit

variable [LawfulSink σ]

/-- Behind the level test, `log` writes to every sink, whether or not one is
valid now. -/
theorem log_above {timestamp message : Bytes} {level d : LogLevel}
    (habove : Logger.isBelow level d = false) (logger : Logger σ)
    (hlevel : logger.defaultLevel = d) :
    logger.log timestamp message level
      = ⟨finished logger.sinks (some (formatMessage timestamp message level, 0)), d⟩ := by
  subst hlevel
  have hsinks := log_sinks timestamp message level logger
  rw [LoggerCall.recordAt, habove] at hsinks
  have hsame := Logger.log_defaultLevel timestamp message level logger
  cases hlog : logger.log timestamp message level with
  | mk sinks d =>
    rw [hlog] at hsinks hsame
    subst hsame
    exact congrArg (Logger.mk · _) hsinks

/-- **Each step is one of the atomic logger**, or none. -/
theorem LoggerStep.atomic (h : Exclusive s) (hstep : LoggerStep s s' es) :
    AtomicStep SharedCall.apply s.abs es s'.abs := by
  cases hstep with
  | called t call hpc =>
    rw [abs_moveTo_outside (by simp [hpc, LoggerPc.writing]) rfl]
    exact .call t call (by simp [LoggerThreads.abs, hpc, LoggerPc.status])
  | unlocked t call reply hpc hsame =>
    rw [abs_moveTo_outside (by simp [hpc, LoggerPc.writing]) rfl]
    exact commit_of_apply call (by simp [LoggerThreads.abs, hpc, LoggerPc.status]) (hsame _)
  | locked t call reply sinks hpc hfree happly =>
    rw [abs_moveTo, hfree]
    refine commit_of_apply call (by simp [LoggerThreads.abs, hpc, LoggerPc.status]) ?_
    rw [abs_object_of_free hfree]
    exact happly
  | passed t timestamp message level hpc habove =>
    rw [abs_stay (by simp [hpc, LoggerPc.writing]) rfl (by simp [hpc, LoggerPc.status])]
    exact .stay
  | invalid t timestamp message level hpc hfree hvalid =>
    rw [abs_moveTo_outside (by simp [hpc, LoggerPc.writing]) rfl]
    refine commit_of_apply (.log timestamp message level)
      (by simp [LoggerThreads.abs, hpc, LoggerPc.status]) ?_
    rw [abs_object_of_free hfree]
    simp [SharedCall.apply, Logger.log, hvalid]
  | valid t timestamp message level hpc =>
    rw [abs_stay (by simp [hpc, LoggerPc.writing]) rfl (by simp [hpc, LoggerPc.status])]
    exact .stay
  | lock t timestamp message level hpc hfree =>
    rw [abs_moveTo, Option.bind_some, Function.update_self]
    refine commit_of_apply (.log timestamp message level)
      (by simp [LoggerThreads.abs, hpc, LoggerPc.status]) ?_
    rw [abs_object_of_free hfree]
    exact congrArg (Reply.done, ·) (log_above (h.level t _ _ _ (.inr hpc)) s.logger rfl)
  | write t record k sink hpc hsink =>
    have hheld : s.sinksMutex = some t := (h.holder t).mp (by simp [hpc, LoggerPc.writing])
    have hcurrent : s.current = some (record, k) := by
      rw [current_of_held hheld, hpc]
      rfl
    rw [abs_moveTo, hheld, Option.bind_some, Function.update_self,
      show (LoggerPc.write (σ := σ) record (k + 1)).writing = some (record, k + 1) from rfl,
      finished_write hsink, ← hcurrent,
      show (LoggerPc.write (σ := σ) record (k + 1)).status = s.abs.status t by
        simp [LoggerThreads.abs, hpc, LoggerPc.status],
      Function.update_eq_self]
    exact .stay
  | unlock t record k hpc hend =>
    have hheld : s.sinksMutex = some t := (h.holder t).mp (by simp [hpc, LoggerPc.writing])
    have hcurrent : s.current = some (record, k) := by
      rw [current_of_held hheld, hpc]
      rfl
    have hk : s.sinks.length ≤ k := List.getElem?_eq_none_iff.mp hend
    have hfinished : finished s.sinks none = finished s.sinks s.current := by
      rw [hcurrent]
      simp [finished, List.take_of_length_le hk, List.drop_eq_nil_of_le hk]
    rw [abs_moveTo, Option.bind_none, hfinished,
      show (LoggerPc.returning (σ := σ) .done).status = s.abs.status t by
        simp [LoggerThreads.abs, hpc, LoggerPc.status],
      Function.update_eq_self]
    exact .stay
  | returned t reply hpc =>
    rw [abs_moveTo_outside (by simp [hpc, LoggerPc.writing]) rfl]
    exact .reply t reply (by simp [LoggerThreads.abs, hpc, LoggerPc.status])

end Keeps

/-! ## Every interleaving -/

omit [DecidableEq ι] [ILogSink σ] in
theorem start_exclusive (logger : Logger σ) :
    Exclusive (LoggerThreads.start (ι := ι) logger) := by
  refine ⟨fun t => ?_, fun t timestamp message level hat => ?_⟩
  · simp [LoggerThreads.start, LoggerPc.writing]
  · exact absurd hat (by simp [LoggerThreads.start])

variable [LawfulSink σ]

theorem loggerMachine_refines :
    (loggerMachine σ ι).Refines SharedCall.apply Exclusive LoggerThreads.abs :=
  ⟨fun h hstep => (loggerStep_inv hstep).exclusive h,
    fun h hstep => (loggerStep_inv hstep).atomic h⟩

/-- **A logger is linearizable.** Whatever calls any number of threads make,
and however they are interleaved, the calls that have returned, and some of
the others, could have been made one after another: by that order each
returns what it did return, one that returned before another was called comes
before it, and while no thread is writing the sinks are as they would be
behind these calls. -/
theorem linearizable (logger : Logger σ) (as : List (LoggerAction σ ι)) (s : LoggerThreads σ ι)
    (es : List (HistoryEvent ι (SharedCall σ) Reply))
    (hrun : (loggerMachine σ ι).run (.start logger) as = some (s, es)) :
    ∃ ops, Linearizes SharedCall.apply logger es ops
      ∧ (s.sinksMutex = none → s.logger = objectAfter SharedCall.apply logger ops) := by
  obtain ⟨-, ops, hlin, hobject⟩ := loggerMachine_refines.linearizes_run
    (start_exclusive logger) (fun _ => rfl) hrun
  refine ⟨ops, hlin, fun hfree => ?_⟩
  rw [← abs_object_of_free hfree, hobject]
  rfl

/-- Between the two locks of a `log`, the sink it has found valid is cleared and
another is added. -/
def replacedSchedule : List (LoggerAction FileSink Bool) :=
  [.call true (.addSink (some { isOpen := true, good := true })), .advance true, .advance true,
    .call true (.log (ascii "T") (ascii "a") .info), .advance true, .advance true,
    .call false .clearSinks, .advance false, .advance false,
    .call false (.addSink (some { isOpen := true, good := true })), .advance false, .advance false,
    .advance true, .advance true, .advance true, .advance true]

theorem linearizable_replaced :
    ∃ s es, (loggerMachine FileSink Bool).run (.start (Logger.create .info)) replacedSchedule
        = some (s, es)
      ∧ s.sinks.map FileSink.appended = [ascii "[T] [INFO] a" ++ ['\n'.toUInt8]]
      ∧ ∃ ops, Linearizes SharedCall.apply (Logger.create .info) es ops
        ∧ s.logger = objectAfter SharedCall.apply (Logger.create .info) ops := by
  obtain ⟨ops, hlin, hlogger⟩ :=
    linearizable (Logger.create .info) replacedSchedule _ _ rfl
  exact ⟨_, _, rfl, by decide +kernel, ops, hlin, hlogger rfl⟩

end LogMetrics.Logger
