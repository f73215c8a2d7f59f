import LogMetrics.CountedRecords
import LogMetrics.Logger.SocketSinkLife
import LogMetrics.MetricsApplication.ApplicationData
import LogMetrics.MetricsApplication.CollectorExact

/-!
# From the threads that log to the statistics

Threads share a logger; one of its sinks is a `SocketSink`, connected to the
metrics application, which has its own timer thread. Between the two is the
byte stream: what has been received is a prefix of what is on the wire.

What is on the wire is a prefix of the records of one sequence of the calls
that were made (`run_served`, `serve_wire`), what has been added is what the
parsers accepted of the pieces of what was received (`run_projects`,
`run_conserved`), and cutting a stream of plain records only loses some of
them (`counted_sublist`). So at every instant, whatever calls are under way on
one side and wherever the two threads are on the other, the statistics count
only messages that were logged, each once, in their order and at their level
(`nothing_invented`).
-/

namespace LogMetrics

open LogMetrics.Base
open LogMetrics.Logger
open LogMetrics.MetricsApplication

/-! ## What is logged -/

section Logged

variable {σ : Type}

/-- The record of a message that is not below the level in force. -/
def loggedAt (d : LogLevel) (timestamp message : Bytes) (level : LogLevel) : List Record :=
  if Logger.isBelow level d then [] else [⟨timestamp, message, level⟩]

/-- The record of the call, if it logs one. -/
def loggedRecord (d : LogLevel) : LoggerCall σ → List Record
  | .log timestamp message level => loggedAt d timestamp message level
  | .logDefault timestamp message => [⟨timestamp, message, d⟩]
  | .debug timestamp message => loggedAt d timestamp message .debug
  | .info timestamp message => loggedAt d timestamp message .info
  | .warning timestamp message => loggedAt d timestamp message .warning
  | .error timestamp message => loggedAt d timestamp message .error
  | .fatal timestamp message => loggedAt d timestamp message .fatal
  | _ => []

/-- The records of the calls, the level in force at first being `d`. -/
def logged (d : LogLevel) : List (LoggerCall σ) → List Record
  | [] => []
  | call :: calls => loggedRecord d call ++ logged (call.levelAfter d) calls

theorem loggedAt_text (d : LogLevel) (timestamp message : Bytes) (level : LogLevel) :
    (loggedAt d timestamp message level).map Record.text
      = LoggerCall.recordAt d timestamp message level := by
  unfold loggedAt LoggerCall.recordAt
  split
  · rfl
  · rfl

theorem loggedRecord_text (d : LogLevel) (call : LoggerCall σ) :
    (loggedRecord d call).map Record.text = call.record d := by
  cases call with
  | addSink sink => rfl
  | clearSinks => rfl
  | setDefaultLevel level => rfl
  | logDefault timestamp message => rfl
  | _ => exact loggedAt_text ..

/-- What the sinks are given are the texts of the records. -/
theorem logged_text (d : LogLevel) (calls : List (LoggerCall σ)) :
    (logged d calls).map Record.text = records d calls := by
  induction calls generalizing d with
  | nil => rfl
  | cons call calls ih => rw [logged, List.map_append, loggedRecord_text, ih, records]

theorem logged_append (d : LogLevel) (calls calls' : List (LoggerCall σ)) :
    logged d (calls ++ calls') = logged d calls ++ logged (levelAfter d calls) calls' := by
  induction calls generalizing d with
  | nil => rfl
  | cons call calls ih =>
    rw [List.cons_append, logged, ih, logged, List.append_assoc]
    rfl

end Logged

/-! ## What is on the wire -/

theorem write_wire (record : Bytes) (sink : SocketSink) : sink.wire <+: (sink.write record).wire := by
  rcases sink.write_spec record with ⟨-, hsame⟩ | ⟨-, k, -, hwire, -, -⟩
  · rw [hsame]
  · rw [hwire]
    exact List.prefix_append _ _

/-- The write that some thread is in puts more on the wire, or nothing. -/
theorem finished_wire {sinks : List SocketSink} {current : Option (Bytes × Nat)} {i : Nat}
    {sink : SocketSink} (hsink : sinks[i]? = some sink) :
    ∃ sink', (LoggerThreads.finished sinks current)[i]? = some sink'
      ∧ sink.wire <+: sink'.wire := by
  obtain ⟨hi, -⟩ := List.getElem?_eq_some_iff.mp hsink
  cases current with
  | none => exact ⟨sink, hsink, List.prefix_refl _⟩
  | some write =>
    obtain ⟨record, k⟩ := write
    show ∃ sink', (sinks.take k ++ (sinks.drop k).map (ILogSink.write record))[i]? = some sink' ∧ _
    by_cases hik : i < k
    · refine ⟨sink, ?_, List.prefix_refl _⟩
      rw [List.getElem?_append_left (by rw [List.length_take]; omega), List.getElem?_take_of_lt hik]
      exact hsink
    · have hlength : (sinks.take k).length = k := by
        rw [List.length_take]
        omega
      refine ⟨sink.write record, ?_, write_wire record sink⟩
      rw [List.getElem?_append_right (by omega), hlength, List.getElem?_map, List.getElem?_drop,
        show k + (i - k) = i by omega, hsink]
      rfl

/-! ## The calls made -/

section Calls

variable {σ ι : Type} [DecidableEq ι] {es : List (HistoryEvent ι (SharedCall σ) Reply)}
  {ops : List (Op ι (SharedCall σ) Reply)}

/-- What is carried out was called by some thread. -/
theorem mem_loggerCalls (hfits : Fits es ops) {call : LoggerCall σ} (h : call ∈ loggerCalls ops) :
    ∃ t shared, .called t shared ∈ es ∧ shared.toLoggerCall = some call := by
  obtain ⟨op, hop, hcall⟩ := List.mem_filterMap.mp h
  exact ⟨op.thread, op.call, hfits.called hop, hcall⟩

omit [DecidableEq ι] in
theorem mem_logged {d : LogLevel} {calls : List (LoggerCall σ)} {r : Record}
    (h : r ∈ logged d calls) : ∃ call ∈ calls, ∃ d', r ∈ loggedRecord d' call := by
  induction calls generalizing d with
  | nil => exact absurd h (by simp [logged])
  | cons call calls ih =>
    rcases List.mem_append.mp h with h | h
    · exact ⟨call, List.mem_cons_self .., d, h⟩
    · obtain ⟨call', hcall', hr⟩ := ih h
      exact ⟨call', List.mem_cons_of_mem _ hcall', hr⟩

/-- A record comes from a call of `log` by some thread. -/
theorem logged_called (hfits : Fits es ops) {d : LogLevel} {r : Record}
    (h : r ∈ logged d (loggerCalls ops)) :
    ∃ t, .called t (.log r.timestamp r.message r.level) ∈ es := by
  obtain ⟨call, hcall, d', hr⟩ := mem_logged h
  obtain ⟨t, shared, hcalled, hshared⟩ := mem_loggerCalls hfits hcall
  cases shared with
  | log timestamp message level =>
    cases hshared
    replace hr : r ∈ loggedAt d' timestamp message level := hr
    unfold loggedAt at hr
    split at hr
    · exact absurd hr List.not_mem_nil
    · cases List.mem_singleton.mp hr
      exact ⟨t, hcalled⟩
  | addSink sink => cases hshared; exact absurd hr List.not_mem_nil
  | clearSinks => cases hshared; exact absurd hr List.not_mem_nil
  | _ => exact absurd hshared (by simp [SharedCall.toLoggerCall])

/-- A sink comes from a call of `add_sink` by some thread. -/
theorem added_called (hfits : Fits es ops) {sink : Option σ}
    (h : .addSink sink ∈ loggerCalls ops) : ∃ t, .called t (.addSink sink) ∈ es := by
  obtain ⟨t, shared, hcalled, hshared⟩ := mem_loggerCalls hfits h
  cases shared with
  | addSink sink' => cases hshared; exact ⟨t, hcalled⟩
  | clearSinks => exact absurd (Option.some.inj hshared) (by simp)
  | log timestamp message level => exact absurd (Option.some.inj hshared) (by simp)
  | _ => exact absurd hshared (by simp [SharedCall.toLoggerCall])

end Calls

/-! ## Both ends -/

/-- What is on the wire of a sink that was added unused: a prefix of the
records logged since. -/
theorem run_wire {ι : Type} [DecidableEq ι] {d : LogLevel} {as : List (LoggerAction SocketSink ι)}
    {s : LoggerThreads SocketSink ι} {es : List (HistoryEvent ι (SharedCall SocketSink) Reply)}
    (hrun : (loggerMachine SocketSink ι).run (.start (Logger.create d)) as = some (s, es))
    (hnew : ∀ t sink, .called t (.addSink (some sink)) ∈ es → sink.wire = []) {i : Nat}
    {sink : SocketSink} (hsink : s.sinks[i]? = some sink) :
    ∃ ops, Linearizes SharedCall.apply (Logger.create d) es ops
      ∧ ∃ rs : List Record, rs <:+ logged d (loggerCalls ops) ∧ sink.wire <+: stream rs := by
  obtain ⟨ops, hlin, hserved⟩ := run_served hrun
  obtain ⟨sink', hsink', hwire⟩ := finished_wire hsink
  obtain ⟨pre, sink₀, post, hattached, -, rfl⟩ := (hserved i sink').mp hsink'
  have hsplit := hattached.split
  have hadded : LoggerCall.addSink (some sink₀) ∈ loggerCalls ops := by
    rw [hsplit]
    simp
  obtain ⟨t, hcalled⟩ := added_called hlin.fits hadded
  refine ⟨ops, hlin, logged d post, ?_, ?_⟩
  · rw [hsplit, logged_append, levelAfter_loggerCalls d ⟨_, hsplit.symm⟩]
    exact List.suffix_append _ _
  · have hserve := serve_wire (records d post) sink₀
    rw [hnew t sink₀ hcalled, List.nil_append] at hserve
    rw [stream, logged_text]
    exact hwire.trans hserve

/-- The payloads handed over so far are pieces of what was received. -/
theorem run_payloads {N : Nat} {timeoutSeconds : Int} {now : TimePoint}
    {as : List ApplicationAction} {s : MetricsApplication} {es : List ApplicationEvent}
    (hrun : metricsMachine.run (.created N timeoutSeconds now) as = some (s, es)) :
    (payloads (processorEvents es)).flatten <+: received (recvScript as) := by
  obtain ⟨-, hfed, -, hlogged⟩ := run_conserved hrun
  rw [← drains_conserve, ← hfed.world, ← hlogged, List.flatten_append, List.append_assoc]
  exact List.prefix_append _ _

/-- What a stream of plain records adds, of which a part has been received: no
more than the records, in their order, each at its level. -/
theorem added_figures {rs : List Record} (hplain : ∀ r ∈ rs, r.Plain) {N : Nat}
    {timeoutSeconds : Int} {now : TimePoint} {as : List ApplicationAction} {s : MetricsApplication}
    {es : List ApplicationEvent}
    (hrun : metricsMachine.run (.created N timeoutSeconds now) as = some (s, es))
    (hreceived : received (recvScript as) <+: stream rs) :
    ((addedMessages (processorEvents es)).map Prod.snd).Sublist (rs.map Record.level)
      ∧ s.threads.stats.totalMessages ≤ rs.length
      ∧ ∀ level, s.threads.stats.messagesByLevel level ≤ rs.countP (·.level = level) := by
  obtain ⟨hadded, calls, hcalls, hcollected⟩ := (run_projects hrun).2.processed
  have hsublist : ((addedMessages (processorEvents es)).map Prod.snd).Sublist
      (rs.map Record.level) := by
    have hfirst : addedMessages (processorEvents es) <+: accepted (payloads (processorEvents es)) :=
      ⟨_, hadded⟩
    have hcut := (run_payloads hrun).trans hreceived
    exact (hfirst.sublist.map Prod.snd).trans (counted_sublist hplain hcut)
  have hexact := run_exact calls
  rw [← hcalls] at hexact
  refine ⟨hsublist, ?_, fun level => ?_⟩
  · have hle := hsublist.length_le
    rw [List.length_map, List.length_map] at hle
    rw [hexact.total, hcollected]
    exact Nat.le_trans (Nat.mod_le _ _) hle
  · have hle := hsublist.countP_le (p := (· = level))
    rw [List.countP_map, List.countP_map] at hle
    rw [hexact.level level, addedAt, hcollected]
    exact Nat.le_trans (Nat.mod_le _ _) hle

/-- **Nothing is made up.** Any number of threads log to a logger, whose
messages have no `[` in them, and one of its sinks is connected to the metrics
application. At every instant, whatever the calls under way, the sends cut
short, the pieces in which the stream arrives and the steps of the timer, the
levels counted are a subsequence of those of the records logged, in one order
of the calls that the threads cannot tell from what they saw; and the figures
are at most as many as were logged. -/
theorem nothing_invented {ι : Type} [DecidableEq ι] (d : LogLevel)
    (as : List (LoggerAction SocketSink ι)) (s : LoggerThreads SocketSink ι)
    (es : List (HistoryEvent ι (SharedCall SocketSink) Reply))
    (hsender : (loggerMachine SocketSink ι).run (.start (Logger.create d)) as = some (s, es))
    (hplain : ∀ t timestamp message level, .called t (.log timestamp message level) ∈ es →
      PlainTimestamp timestamp ∧ '['.toUInt8 ∉ message)
    (hnew : ∀ t sink, .called t (.addSink (some sink)) ∈ es → sink.wire = [])
    (i : Nat) (sink : SocketSink) (hsink : s.sinks[i]? = some sink)
    (N : Nat) (timeoutSeconds : Int) (now : TimePoint) (bs : List ApplicationAction)
    (m : MetricsApplication) (fs : List ApplicationEvent)
    (hreceiver : metricsMachine.run (.created N timeoutSeconds now) bs = some (m, fs))
    (hnetwork : received (recvScript bs) <+: sink.wire) :
    ∃ ops, Linearizes SharedCall.apply (Logger.create d) es ops
      ∧ ((addedMessages (processorEvents fs)).map Prod.snd).Sublist
          ((logged d (loggerCalls ops)).map Record.level)
      ∧ m.threads.stats.totalMessages ≤ (logged d (loggerCalls ops)).length
      ∧ ∀ level, m.threads.stats.messagesByLevel level
        ≤ (logged d (loggerCalls ops)).countP (·.level = level) := by
  obtain ⟨ops, hlin, rs, hrs, hwire⟩ := run_wire hsender hnew hsink
  have hrecords : ∀ r ∈ rs, r.Plain := by
    intro r hr
    obtain ⟨t, hcalled⟩ := logged_called hlin.fits (hrs.subset hr)
    obtain ⟨htimestamp, hmessage⟩ := hplain t r.timestamp r.message r.level hcalled
    exact ⟨htimestamp, hmessage⟩
  obtain ⟨hsublist, htotal, hlevels⟩ :=
    added_figures hrecords hreceiver (hnetwork.trans hwire)
  refine ⟨ops, hlin, hsublist.trans (hrs.sublist.map Record.level),
    Nat.le_trans htotal hrs.length_le, fun level => ?_⟩
  exact Nat.le_trans (hlevels level) hrs.sublist.countP_le

/-- A thread has sent its record and not yet left `log`. -/
def sendingRun : List (LoggerAction SocketSink Bool) :=
  [.call true (.addSink (some { socketFd := 5, isConnected := true, attempts := [.sent 100] })),
    .advance true, .advance true, .call true (.log (ascii "t") (ascii "a") .info), .advance true,
    .advance true, .advance true, .advance true]

theorem nothing_invented_served :
    ∃ s es m fs, (loggerMachine SocketSink Bool).run (.start (Logger.create .info)) sendingRun
        = some (s, es)
      ∧ metricsMachine.run (.created 10 5 0) servedRun = some (m, fs)
      ∧ addedMessages (processorEvents fs) = [(ascii "a", .info)]
      ∧ ∃ ops, Linearizes SharedCall.apply (Logger.create .info) es ops
        ∧ m.threads.stats.totalMessages ≤ (logged .info (loggerCalls ops)).length := by
  obtain ⟨s, es, hsender, hevents, hsinks⟩ : ∃ s es,
      (loggerMachine SocketSink Bool).run (.start (Logger.create .info)) sendingRun = some (s, es)
        ∧ es = [.called true (.addSink (some
              { socketFd := 5, isConnected := true, attempts := [.sent 100] })),
            .returned true .done, .called true (.log (ascii "t") (ascii "a") .info)]
        ∧ ∃ sink, s.sinks[0]? = some sink ∧ sink.wire = ascii "[t] [INFO] a" :=
    ⟨_, _, rfl, rfl, _, rfl, by decide +kernel⟩
  obtain ⟨m, fs, hreceiver, hadded⟩ : ∃ m fs,
      metricsMachine.run (.created 10 5 0) servedRun = some (m, fs)
        ∧ addedMessages (processorEvents fs) = [(ascii "a", .info)] :=
    ⟨_, _, rfl, by decide +kernel⟩
  obtain ⟨sink, hsink, hwire⟩ := hsinks
  have hplain : ∀ t timestamp message level,
      HistoryEvent.called t (SharedCall.log timestamp message level) ∈ es →
        PlainTimestamp timestamp ∧ '['.toUInt8 ∉ message := by
    intro t timestamp message level hcalled
    rw [hevents] at hcalled
    simp only [List.mem_cons, List.not_mem_nil, or_false, reduceCtorEq, false_or,
      HistoryEvent.called.injEq, SharedCall.log.injEq, and_false] at hcalled
    obtain ⟨-, rfl, rfl, -⟩ := hcalled
    exact ⟨⟨by decide, by decide, by decide⟩, by decide⟩
  have hnew : ∀ t sink, HistoryEvent.called t (SharedCall.addSink (some sink)) ∈ es →
      sink.wire = [] := by
    intro t sink hcalled
    rw [hevents] at hcalled
    simp only [List.mem_cons, List.not_mem_nil, or_false, reduceCtorEq, HistoryEvent.called.injEq,
      SharedCall.addSink.injEq, Option.some.injEq, and_false] at hcalled
    rw [hcalled.2]
  obtain ⟨ops, hlin, -, htotal, -⟩ := nothing_invented .info sendingRun s es hsender hplain hnew 0
    sink hsink 10 5 0 servedRun m fs hreceiver
    (by rw [hwire, show received (recvScript servedRun) = ascii "[t] [INFO] a" from by decide +kernel])
  exact ⟨s, es, m, fs, hsender, hreceiver, hadded, ops, hlin, htotal⟩

/-! ## What is counted -/

/-- **What each payload counts for.** The messages added are those of the
payloads that both parsers accept; and a payload of a stream of plain records
is accepted for the first record that begins in it, when the record's header
is in it and no `[` in front, and for no other. -/
theorem payload_counted {records : List Record} (hplain : ∀ r ∈ records, r.Plain) (N : Nat)
    (timeoutSeconds : Int) (now : TimePoint) (as : List ApplicationAction) (s : MetricsApplication)
    (es : List ApplicationEvent)
    (hrun : metricsMachine.run (.created N timeoutSeconds now) as = some (s, es))
    (hreceived : received (recvScript as) <+: stream records) :
    (s.server.place.inCallback = false →
        addedMessages (processorEvents es) = accepted (payloads (processorEvents es)))
      ∧ ∀ before payload after, payloads (processorEvents es) = before ++ payload :: after →
        ∀ message level, accepted? payload = some (message, level)
          ↔ ∃ pre r post tail text, records = pre ++ r :: post ∧ before.flatten ++ tail = stream pre
              ∧ '['.toUInt8 ∉ tail ∧ payload = tail ++ (r.header ++ text)
              ∧ level = r.level ∧ message = text.dropWhile isspaceChar := by
  refine ⟨fun hplace => ?_, fun before payload after hsplit message level => ?_⟩
  · obtain ⟨-, hall, hadded⟩ := run_outside hrun hplace
    rw [hadded, hall]
  · obtain ⟨rest, hstream⟩ := (run_payloads hrun).trans hreceived
    rw [hsplit, List.flatten_append, List.flatten_cons, List.append_assoc, List.append_assoc]
      at hstream
    exact piece_counted hplain hstream message level

/-- A drain that ends inside the header of the second record. -/
def cutRun : List ApplicationAction :=
  connectedRun ++ [.result (.poll 1 false true false),
    .result (.recv (.data ⟨ascii "[t] [INFO] a[t] [FA", by decide, by decide⟩)),
    .result (.recv .again), .main, .main, .main, .main, .main, .main,
    .result (.poll 1 false true false),
    .result (.recv (.data ⟨ascii "TAL] b", by decide, by decide⟩)), .result (.recv .again),
    .main, .main]

def twoPlain : List Record := [⟨ascii "t", ascii "a", .info⟩, ⟨ascii "t", ascii "b", .fatal⟩]

/-- The second record is lost, and part of its header is in a message. -/
theorem payload_counted_cut :
    ∃ s es, metricsMachine.run (.created 10 5 0) cutRun = some (s, es)
      ∧ addedMessages (processorEvents es) = [(ascii "a[t] [FA", .info)]
      ∧ ∃ pre r post tail text, twoPlain = pre ++ r :: post ∧ tail = stream pre
        ∧ ascii "[t] [INFO] a[t] [FA" = tail ++ (r.header ++ text) ∧ r.level = .info := by
  have hplain : ∀ r ∈ twoPlain, r.Plain := by
    intro r hr
    simp only [twoPlain, List.mem_cons, List.not_mem_nil, or_false] at hr
    rcases hr with rfl | rfl
    · exact ⟨⟨by decide, by decide, by decide⟩, by decide⟩
    · exact ⟨⟨by decide, by decide, by decide⟩, by decide⟩
  obtain ⟨s, es, hrun, hplace, hpayloads⟩ : ∃ s es,
      metricsMachine.run (.created 10 5 0) cutRun = some (s, es)
        ∧ s.server.place.inCallback = false
        ∧ payloads (processorEvents es) = [ascii "[t] [INFO] a[t] [FA", ascii "TAL] b"] :=
    ⟨_, _, rfl, rfl, by decide +kernel⟩
  obtain ⟨hadded, hcounted⟩ := payload_counted hplain 10 5 0 cutRun s es hrun
    ⟨[], by decide +kernel⟩
  refine ⟨s, es, hrun, ?_, ?_⟩
  · rw [hadded hplace, hpayloads]
    decide +kernel
  · obtain ⟨pre, r, post, tail, text, hrecords, htail, -, hpayload, hlevel, -⟩ :=
      (hcounted [] _ [ascii "TAL] b"] hpayloads (ascii "a[t] [FA") .info).mp (by decide +kernel)
    exact ⟨pre, r, post, tail, text, hrecords, htail, hpayload, hlevel.symm⟩

/-- The payloads of a stream that is cut only between records are groups of
them. -/
theorem run_groups {N : Nat} {timeoutSeconds : Int} {now : TimePoint}
    {as : List ApplicationAction} {s : MetricsApplication} {es : List ApplicationEvent}
    (hrun : metricsMachine.run (.created N timeoutSeconds now) as = some (s, es))
    {records : List Record} (hreceived : received (recvScript as) <+: stream records)
    (hcuts : ∀ k, 0 < k → CutAfter (recvScript as) k → k ∈ ends (records.map Record.text))
    (hplace : s.server.place.inCallback = false) :
    ∃ groups : List (List Record), (∀ g ∈ groups, g ≠ []) ∧ groups.flatten <+: records
      ∧ payloads (processorEvents es) = groups.map stream := by
  obtain ⟨-, hall, -⟩ := run_outside hrun hplace
  have hends : ∀ k ∈ ends (drains (recvScript as)).1, k ∈ ends (records.map Record.text) := by
    intro k hk
    obtain ⟨hpos, hcut⟩ := (mem_ends_drains _ k).mp hk
    exact hcuts k hpos hcut
  have hflat := (run_payloads hrun).trans hreceived
  rw [hall] at hflat ⊢
  exact groups_of_ends (drains_ne_nil _) hflat hends

/-- Each group counts for one message. -/
theorem accepted_groups {groups : List (List Record)} (hne : ∀ g ∈ groups, g ≠ [])
    (hts : ∀ r ∈ groups.flatten, ']'.toUInt8 ∉ r.timestamp) :
    accepted (groups.map stream) = groups.filterMap joined
      ∧ (groups.filterMap joined).length = groups.length := by
  have hjoined : ∀ g ∈ groups, accepted? (stream g) = joined g := by
    intro g hg
    exact accepted_stream fun r hr => hts r (List.mem_flatten.mpr ⟨g, hg, hr⟩)
  constructor
  · show (groups.map stream).filterMap accepted? = _
    rw [List.filterMap_map]
    exact List.filterMap_congr hjoined
  · rw [List.filterMap_length_eq_length]
    intro g hg
    cases g with
    | nil => exact absurd rfl (hne [] hg)
    | cons r rs => rfl

/-- **Records coalesce.** When the stream is cut only between records, however
few of the places are cuts, each drain counts for one message: at the level of
its first record, with the texts of the others at the end of that one's. -/
theorem records_coalesced (N : Nat) (timeoutSeconds : Int) (now : TimePoint)
    (as : List ApplicationAction) (s : MetricsApplication) (es : List ApplicationEvent)
    (hrun : metricsMachine.run (.created N timeoutSeconds now) as = some (s, es))
    (records : List Record) (hts : ∀ r ∈ records, ']'.toUInt8 ∉ r.timestamp)
    (hreceived : received (recvScript as) <+: stream records)
    (hcuts : ∀ k, 0 < k → CutAfter (recvScript as) k → k ∈ ends (records.map Record.text))
    (hplace : s.server.place.inCallback = false) :
    ∃ groups : List (List Record), (∀ g ∈ groups, g ≠ []) ∧ groups.flatten <+: records
      ∧ payloads (processorEvents es) = groups.map stream
      ∧ addedMessages (processorEvents es) = groups.filterMap joined
      ∧ (addedMessages (processorEvents es)).length = groups.length := by
  obtain ⟨groups, hne, hfront, hpayloads⟩ := run_groups hrun hreceived hcuts hplace
  obtain ⟨hcounted, hlength⟩ := accepted_groups hne fun r hr => hts r (hfront.subset hr)
  obtain ⟨-, hall, hadded⟩ := run_outside hrun hplace
  rw [← hall, hpayloads, hcounted] at hadded
  refine ⟨groups, hne, hfront, hpayloads, hadded, ?_⟩
  rw [hadded, hlength]

/-- Two records in one drain. -/
def togetherRun : List ApplicationAction :=
  connectedRun ++ [.result (.poll 1 false true false),
    .result (.recv (.data ⟨ascii "[t] [INFO] a[t] [FATAL] b", by decide, by decide⟩)),
    .result (.recv .again), .main, .main, .main, .main, .main, .main]

theorem records_coalesced_two :
    ∃ s es, metricsMachine.run (.created 10 5 0) togetherRun = some (s, es)
      ∧ addedMessages (processorEvents es) = [(ascii "a[t] [FATAL] b", .info)]
      ∧ ∃ groups : List (List Record), groups.flatten <+: twoPlain ∧ groups.length = 1 := by
  obtain ⟨s, es, hrun, hplace, hadded⟩ : ∃ s es,
      metricsMachine.run (.created 10 5 0) togetherRun = some (s, es)
        ∧ s.server.place.inCallback = false
        ∧ addedMessages (processorEvents es) = [(ascii "a[t] [FATAL] b", .info)] :=
    ⟨_, _, rfl, rfl, by decide +kernel⟩
  have hcuts : ∀ k, 0 < k → CutAfter (recvScript togetherRun) k →
      k ∈ ends (twoPlain.map Record.text) := by
    intro k hpos hcut
    have hend := (mem_ends_drains _ k).mpr ⟨hpos, hcut⟩
    rw [show ends (drains (recvScript togetherRun)).1 = [25] from by decide +kernel] at hend
    rw [List.mem_singleton.mp hend]
    decide +kernel
  obtain ⟨groups, -, hfront, -, -, hlength⟩ := records_coalesced 10 5 0 togetherRun s es hrun
    twoPlain (by decide) ⟨[], by decide +kernel⟩ hcuts hplace
  refine ⟨s, es, hrun, hadded, groups, hfront, ?_⟩
  rw [← hlength, hadded]
  rfl

end LogMetrics
