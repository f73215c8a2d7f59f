import Mathlib.Data.List.Induction
import LogMetrics.Logger.Logger
import LogMetrics.Logger.SocketSink

/-!
# What each sink of a `Logger` is given

`Logger::log` returns early unless some sink is valid, and hands a record to
every sink, valid or not. A sink that is not valid leaves a write alone
(`LawfulSink`), so the early return changes nothing (`log_sinks`): each sink
is served as if it were the only one.

`served_independently`: the sinks of a logger, after any calls, are those added since
the last `clear_sinks`, each in the state that its own writes of the records
logged since lead to. Which records these are (`records`) is read off the
calls and the level in force, with no sink in sight.
-/

namespace LogMetrics.Logger

/-- A sink that is not valid ignores a write. -/
class LawfulSink (σ : Type) [ILogSink σ] : Prop where
  write_invalid : ∀ (record : Bytes) (sink : σ), ILogSink.isValid sink = false →
    ILogSink.write record sink = sink

instance : LawfulSink FileSink where
  write_invalid record sink h := by
    show FileSink.write record sink = sink
    rw [FileSink.write, show sink.isValid = false from h]
    rfl

instance : LawfulSink SocketSink where
  write_invalid record sink h := by
    rcases SocketSink.write_spec record sink with ⟨-, hsame⟩ | ⟨hvalid, -⟩
    · exact hsame
    · exact absurd (hvalid.symm.trans h) (by decide)

section Sum

variable {σ τ : Type} [ILogSink σ] [ILogSink τ]

/-- Sinks of two kinds in one logger. -/
instance : ILogSink (σ ⊕ τ) where
  write record
    | .inl sink => .inl (ILogSink.write record sink)
    | .inr sink => .inr (ILogSink.write record sink)
  isValid
    | .inl sink => ILogSink.isValid sink
    | .inr sink => ILogSink.isValid sink

instance [LawfulSink σ] [LawfulSink τ] : LawfulSink (σ ⊕ τ) where
  write_invalid record sink h := by
    cases sink with
    | inl sink => exact congrArg Sum.inl (LawfulSink.write_invalid record sink h)
    | inr sink => exact congrArg Sum.inr (LawfulSink.write_invalid record sink h)

end Sum

/-! ## Calls -/

/-- A call of a `Logger`, with the timestamp `get_current_timestamp` returns
if it is asked. -/
inductive LoggerCall (σ : Type) where
  | addSink (sink : Option σ)
  | clearSinks
  | setDefaultLevel (level : LogLevel)
  | log (timestamp message : Bytes) (level : LogLevel)
  | logDefault (timestamp message : Bytes)
  | debug (timestamp message : Bytes)
  | info (timestamp message : Bytes)
  | warning (timestamp message : Bytes)
  | error (timestamp message : Bytes)
  | fatal (timestamp message : Bytes)

variable {σ : Type}

namespace LoggerCall

/-- The call made. -/
def exec [ILogSink σ] (logger : Logger σ) : LoggerCall σ → Logger σ
  | .addSink sink => logger.addSink sink
  | .clearSinks => logger.clearSinks
  | .setDefaultLevel level => logger.setDefaultLevel level
  | .log timestamp message level => logger.log timestamp message level
  | .logDefault timestamp message => logger.logDefault timestamp message
  | .debug timestamp message => logger.debug timestamp message
  | .info timestamp message => logger.info timestamp message
  | .warning timestamp message => logger.warning timestamp message
  | .error timestamp message => logger.error timestamp message
  | .fatal timestamp message => logger.fatal timestamp message

/-- Does the call change which sinks there are? -/
def changesSinks : LoggerCall σ → Bool
  | .addSink _ => true
  | .clearSinks => true
  | _ => false

/-- The level in force behind the call. -/
def levelAfter (defaultLevel : LogLevel) : LoggerCall σ → LogLevel
  | .setDefaultLevel level => level
  | _ => defaultLevel

/-- The record of a message that is not below the level in force. -/
def recordAt (defaultLevel : LogLevel) (timestamp message : Bytes) (level : LogLevel) :
    List Bytes :=
  if Logger.isBelow level defaultLevel then [] else [formatMessage timestamp message level]

/-- The record of the call, if it logs one. -/
def record (defaultLevel : LogLevel) : LoggerCall σ → List Bytes
  | .log timestamp message level => recordAt defaultLevel timestamp message level
  | .logDefault timestamp message => [formatMessage timestamp message defaultLevel]
  | .debug timestamp message => recordAt defaultLevel timestamp message .debug
  | .info timestamp message => recordAt defaultLevel timestamp message .info
  | .warning timestamp message => recordAt defaultLevel timestamp message .warning
  | .error timestamp message => recordAt defaultLevel timestamp message .error
  | .fatal timestamp message => recordAt defaultLevel timestamp message .fatal
  | _ => []

end LoggerCall

/-- The calls made one after another. -/
def runCalls [ILogSink σ] (logger : Logger σ) (calls : List (LoggerCall σ)) : Logger σ :=
  calls.foldl LoggerCall.exec logger

/-- The level in force behind the calls. -/
def levelAfter (defaultLevel : LogLevel) (calls : List (LoggerCall σ)) : LogLevel :=
  calls.foldl LoggerCall.levelAfter defaultLevel

/-- The records of the calls, the level in force at first being
`defaultLevel`. -/
def records (defaultLevel : LogLevel) : List (LoggerCall σ) → List Bytes
  | [] => []
  | call :: calls => call.record defaultLevel ++ records (call.levelAfter defaultLevel) calls

/-- A sink that is given these records. -/
def serve [ILogSink σ] (rs : List Bytes) (sink : σ) : σ :=
  rs.foldl (fun sink record => ILogSink.write record sink) sink

/-- The sink was added by the calls, `pre` in front of it and `post` behind,
and has been there since. -/
structure Attached (calls pre : List (LoggerCall σ)) (sink : σ) (post : List (LoggerCall σ)) :
    Prop where
  split : calls = pre ++ .addSink (some sink) :: post
  kept : .clearSinks ∉ post

theorem records_snoc (d : LogLevel) (calls : List (LoggerCall σ)) (call : LoggerCall σ) :
    records d (calls ++ [call]) = records d calls ++ call.record (levelAfter d calls) := by
  induction calls generalizing d with
  | nil => simp [records, levelAfter]
  | cons c calls ih => simp [records, ih, levelAfter, List.append_assoc]

theorem levelAfter_snoc (d : LogLevel) (calls : List (LoggerCall σ)) (call : LoggerCall σ) :
    levelAfter d (calls ++ [call]) = call.levelAfter (levelAfter d calls) := by
  simp [levelAfter]

/-- The records do not depend on which sinks there are. -/
theorem records_filter (d : LogLevel) (calls : List (LoggerCall σ)) :
    records d (calls.filter fun call => !call.changesSinks) = records d calls := by
  induction calls generalizing d with
  | nil => rfl
  | cons call calls ih =>
    cases call with
    | addSink sink => exact ih d
    | clearSinks => exact ih d
    | setDefaultLevel level => exact ih level
    | _ => exact congrArg (_ ++ ·) (ih d)

/-- Neither does the level in force. -/
theorem levelAfter_filter (d : LogLevel) (calls : List (LoggerCall σ)) :
    levelAfter d (calls.filter fun call => !call.changesSinks) = levelAfter d calls := by
  induction calls generalizing d with
  | nil => rfl
  | cons call calls ih =>
    cases call with
    | setDefaultLevel level => exact ih level
    | _ => exact ih d

/-- The level in force behind all calls, told from where the sink was added. -/
theorem Attached.levelAfter_post {calls pre post : List (LoggerCall σ)} {sink : σ}
    (h : Attached calls pre sink post) (d : LogLevel) :
    levelAfter (levelAfter d pre) post = levelAfter d calls := by
  simp [levelAfter, h.split, LoggerCall.levelAfter]

theorem attached_snoc {calls pre post : List (LoggerCall σ)} {call : LoggerCall σ} {sink : σ} :
    Attached (calls ++ [call]) pre sink post
      ↔ (post = [] ∧ pre = calls ∧ call = .addSink (some sink))
        ∨ ∃ post', post = post' ++ [call] ∧ call ≠ .clearSinks ∧ Attached calls pre sink post' := by
  constructor
  · rintro ⟨hsplit, hkept⟩
    rcases List.eq_nil_or_concat post with rfl | ⟨post', last, rfl⟩
    · obtain ⟨rfl, hcall⟩ := List.append_inj' hsplit rfl
      exact .inl ⟨rfl, rfl, (List.cons.inj hcall).1⟩
    · rw [List.concat_eq_append] at hsplit hkept ⊢
      rw [← List.cons_append, ← List.append_assoc] at hsplit
      obtain ⟨rfl, hcall⟩ := List.append_inj' hsplit rfl
      obtain rfl := (List.cons.inj hcall).1
      rw [List.mem_append, not_or, List.mem_singleton] at hkept
      exact .inr ⟨post', rfl, fun h => hkept.2 h.symm, rfl, hkept.1⟩
  · rintro (⟨rfl, rfl, rfl⟩ | ⟨post', rfl, hcall, hsplit, hkept⟩)
    · exact ⟨rfl, List.not_mem_nil⟩
    · refine ⟨by rw [hsplit]; simp, ?_⟩
      rw [List.mem_append, not_or, List.mem_singleton]
      exact ⟨hkept, fun h => hcall h.symm⟩

/-! ## One call -/

section Serve

variable [ILogSink σ]

theorem serve_append (rs rs' : List Bytes) (sink : σ) :
    serve (rs ++ rs') sink = serve rs' (serve rs sink) := by
  simp [serve]

/-- Without a valid sink, no sink is valid. -/
theorem isValid_eq_false {logger : Logger σ} (h : logger.isValid = false) {sink : σ}
    (hsink : sink ∈ logger.sinks) : ILogSink.isValid sink = false := by
  unfold Logger.isValid at h
  rw [if_neg (by simp [List.ne_nil_of_mem hsink])] at h
  exact Bool.eq_false_iff.2 (List.any_eq_false.1 h sink hsink)

/-- No call but `set_default_level` changes the level in force. -/
theorem exec_defaultLevel (logger : Logger σ) (call : LoggerCall σ) :
    (call.exec logger).defaultLevel = call.levelAfter logger.defaultLevel := by
  cases call with
  | addSink sink => cases sink <;> rfl
  | clearSinks => rfl
  | setDefaultLevel level => rfl
  | _ => exact Logger.log_defaultLevel _ _ _ logger

variable [LawfulSink σ]

/-- **The gate of `Logger::log` is redundant**: when no sink is valid, no sink
takes the write anyway. -/
theorem log_sinks (timestamp message : Bytes) (level : LogLevel) (logger : Logger σ) :
    (logger.log timestamp message level).sinks
      = logger.sinks.map
          (serve (LoggerCall.recordAt logger.defaultLevel timestamp message level)) := by
  unfold Logger.log LoggerCall.recordAt
  cases hbelow : Logger.isBelow level logger.defaultLevel with
  | true => exact (List.map_id logger.sinks).symm
  | false =>
    cases hvalid : logger.isValid with
    | true => rfl
    | false =>
      have hsame : logger.sinks.map (serve [formatMessage timestamp message level])
          = logger.sinks.map id :=
        List.map_congr_left fun sink hsink =>
          LawfulSink.write_invalid _ sink (isValid_eq_false hvalid hsink)
      exact (hsame.trans (List.map_id _)).symm

/-- `Logger::log` without a level is never below it. -/
theorem recordAt_self (d : LogLevel) (timestamp message : Bytes) :
    LoggerCall.recordAt d timestamp message d = [formatMessage timestamp message d] :=
  if_neg (by simp [Logger.isBelow])

/-- What a call does to the sinks: it adds one, removes all, or serves each
its record. -/
theorem exec_sinks (logger : Logger σ) (call : LoggerCall σ) :
    (∃ sink, call = .addSink (some sink) ∧ (call.exec logger).sinks = logger.sinks ++ [sink])
      ∨ (call = .clearSinks ∧ (call.exec logger).sinks = [])
      ∨ ((∀ sink, call ≠ .addSink (some sink)) ∧ call ≠ .clearSinks
        ∧ (call.exec logger).sinks = logger.sinks.map (serve (call.record logger.defaultLevel))) := by
  cases call with
  | addSink sink =>
    cases sink with
    | some sink => exact .inl ⟨sink, rfl, rfl⟩
    | none => exact .inr (.inr ⟨by simp, by simp, (List.map_id _).symm⟩)
  | clearSinks => exact .inr (.inl ⟨rfl, rfl⟩)
  | setDefaultLevel level => exact .inr (.inr ⟨by simp, by simp, (List.map_id _).symm⟩)
  | logDefault timestamp message =>
    refine .inr (.inr ⟨by simp, by simp, ?_⟩)
    rw [LoggerCall.record, ← recordAt_self]
    exact log_sinks timestamp message _ logger
  | _ => exact .inr (.inr ⟨by simp, by simp, log_sinks _ _ _ logger⟩)

/-! ## Runs -/

omit [LawfulSink σ] in
theorem runCalls_snoc (logger : Logger σ) (calls : List (LoggerCall σ)) (call : LoggerCall σ) :
    runCalls logger (calls ++ [call]) = call.exec (runCalls logger calls) := by
  simp [runCalls]

omit [LawfulSink σ] in
theorem runCalls_defaultLevel (logger : Logger σ) (calls : List (LoggerCall σ)) :
    (runCalls logger calls).defaultLevel = levelAfter logger.defaultLevel calls := by
  induction calls using List.reverseRecOn with
  | nil => rfl
  | append_singleton calls call ih =>
    rw [runCalls_snoc, exec_defaultLevel, ih, levelAfter_snoc]

/-- The sink in place `i` behind the calls is `sink'`: it was added when there
were `i`, and is in the state that its own writes of the records logged since
lead to. -/
def Served (d : LogLevel) (calls : List (LoggerCall σ)) (i : Nat) (sink' : σ) : Prop :=
  ∃ pre sink post, Attached calls pre sink post
    ∧ i = (runCalls (Logger.create d) pre).sinks.length
    ∧ sink' = serve (records (levelAfter d pre) post) sink

omit [LawfulSink σ] in
/-- One call more: the sink was just added, or it was there before and has been
given the record of the call. -/
theorem served_snoc {d : LogLevel} {calls : List (LoggerCall σ)} {call : LoggerCall σ} {i : Nat}
    {sink' : σ} :
    Served d (calls ++ [call]) i sink'
      ↔ (i = (runCalls (Logger.create d) calls).sinks.length ∧ call = .addSink (some sink'))
        ∨ (call ≠ .clearSinks
          ∧ ∃ before, Served d calls i before
            ∧ sink' = serve (call.record (levelAfter d calls)) before) := by
  constructor
  · intro h
    obtain ⟨pre, sink, post, hattached, hplace, hstate⟩ := h
    rcases attached_snoc.1 hattached with ⟨rfl, rfl, rfl⟩ | ⟨post, rfl, hclear, hattached⟩
    · rw [show sink' = sink from hstate]
      exact .inl ⟨hplace, rfl⟩
    · refine .inr ⟨hclear, _, ⟨pre, sink, post, hattached, hplace, rfl⟩, ?_⟩
      rw [hstate, records_snoc, serve_append, hattached.levelAfter_post]
  · intro h
    rcases h with ⟨hplace, rfl⟩ | ⟨hclear, before, ⟨pre, sink, post, hattached, hplace, rfl⟩, rfl⟩
    · exact ⟨calls, sink', [], attached_snoc.2 (.inl ⟨rfl, rfl, rfl⟩), hplace, rfl⟩
    · refine ⟨pre, sink, _, attached_snoc.2 (.inr ⟨post, rfl, hclear, hattached⟩), hplace, ?_⟩
      rw [records_snoc, serve_append, hattached.levelAfter_post]

theorem getElem?_snoc {α : Type} {xs : List α} {x y : α} {i : Nat} :
    (xs ++ [x])[i]? = some y ↔ xs[i]? = some y ∨ (i = xs.length ∧ x = y) := by
  rcases Nat.lt_trichotomy i xs.length with hi | rfl | hi
  · rw [List.getElem?_append_left hi]
    simp [Nat.ne_of_lt hi]
  · simp
  · have hlength : (xs ++ [x]).length ≤ i := by
      rw [List.length_append]
      exact hi
    rw [List.getElem?_eq_none hlength, List.getElem?_eq_none (Nat.le_of_lt hi)]
    simp [Nat.ne_of_gt hi]

/-- The sinks behind any calls. -/
theorem sinks_iff (d : LogLevel) (calls : List (LoggerCall σ)) (i : Nat) (sink' : σ) :
    (runCalls (Logger.create d) calls).sinks[i]? = some sink' ↔ Served d calls i sink' := by
  induction calls using List.reverseRecOn generalizing i sink' with
  | nil =>
    constructor
    · intro h
      exact absurd h (by simp [runCalls, Logger.create])
    · intro h
      obtain ⟨pre, sink, post, hattached, -⟩ := h
      exact absurd hattached.split (by simp)
  | append_singleton calls call ih =>
    have hlevel : (runCalls (Logger.create d) calls).defaultLevel = levelAfter d calls :=
      runCalls_defaultLevel _ calls
    rw [runCalls_snoc, served_snoc]
    rcases exec_sinks (runCalls (Logger.create d) calls) call with
      ⟨added, rfl, hsinks⟩ | ⟨rfl, hsinks⟩ | ⟨hadd, hclear, hsinks⟩
    · -- the sinks there were are as they were, and the new one is behind them
      rw [hsinks, getElem?_snoc, ih]
      constructor
      · intro h
        rcases h with h | ⟨hplace, rfl⟩
        · exact .inr ⟨by simp, sink', h, rfl⟩
        · exact .inl ⟨hplace, rfl⟩
      · intro h
        rcases h with ⟨hplace, hcall⟩ | ⟨-, before, h, rfl⟩
        · exact .inr ⟨hplace, Option.some.inj (LoggerCall.addSink.inj hcall)⟩
        · exact .inl h
    · -- no sink is left
      rw [hsinks]
      constructor
      · intro h
        exact absurd h (by simp)
      · intro h
        rcases h with ⟨-, hcall⟩ | ⟨hcall, -⟩
        · exact absurd hcall (by simp)
        · exact absurd rfl hcall
    · -- every sink is served the record of the call
      rw [hsinks, List.getElem?_map, Option.map_eq_some_iff, hlevel]
      constructor
      · intro h
        obtain ⟨before, hbefore, rfl⟩ := h
        exact .inr ⟨hclear, before, (ih i before).1 hbefore, rfl⟩
      · intro h
        rcases h with ⟨-, hcall⟩ | ⟨-, before, h, rfl⟩
        · exact absurd hcall (hadd sink')
        · exact ⟨before, (ih i before).2 h, rfl⟩

/-- **Sinks are served independently.** The sinks of a logger behind any calls
are those added and not cleared since, each in the state that its own writes
of the records logged since lead to; these records, and the level in force,
are the same whatever sinks are added or removed. -/
theorem served_independently (d : LogLevel) (calls : List (LoggerCall σ)) :
    (∀ i sink', (runCalls (Logger.create d) calls).sinks[i]? = some sink'
      ↔ ∃ pre sink post, Attached calls pre sink post
          ∧ i = (runCalls (Logger.create d) pre).sinks.length
          ∧ sink' = serve (records (levelAfter d pre) post) sink)
      ∧ levelAfter d (calls.filter fun call => !call.changesSinks) = levelAfter d calls
      ∧ records d (calls.filter fun call => !call.changesSinks) = records d calls :=
  ⟨sinks_iff d calls, levelAfter_filter d calls, records_filter d calls⟩

end Serve

/-- A socket that takes a record of 13 bytes in two turns, and the next in one. -/
def steadySocket : SocketSink where
  socketFd := 5
  isConnected := true
  attempts := [.sent 4, .sent 9, .sent 13]

/-- A file whose second write fails, and a socket added between the two. -/
def mixedCalls : List (LoggerCall (FileSink ⊕ SocketSink)) :=
  [.addSink (some (.inl { isOpen := true, good := true, outcomes := [.ok, .fails 3] })),
    .addSink none,
    .info (ascii "T") (ascii "a"),
    .addSink (some (.inr steadySocket)),
    .debug (ascii "T") (ascii "b"),
    .fatal (ascii "T") (ascii "c"),
    .setDefaultLevel .error,
    .logDefault (ascii "T") (ascii "d"),
    .info (ascii "T") (ascii "e")]

/-- The socket takes its two records although the file is lost at the first of
them. -/
theorem served_independently_mixed :
    (runCalls (Logger.create .info) mixedCalls).sinks.map ILogSink.isValid = [false, true]
      ∧ (runCalls (Logger.create .info) mixedCalls).sinks[1]?
        = some (serve [formatMessage (ascii "T") (ascii "c") .fatal,
            formatMessage (ascii "T") (ascii "d") .error] (.inr steadySocket)) :=
  ⟨by decide +kernel, ((served_independently .info mixedCalls).1 1 _).2
    ⟨mixedCalls.take 3, _, mixedCalls.drop 4, ⟨rfl, by simp [mixedCalls]⟩, rfl, rfl⟩⟩

end LogMetrics.Logger
