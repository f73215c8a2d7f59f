import LogMetrics.EndToEnd
import LogMetrics.TestApplication.Main

/-!
# From the lines that are typed to the statistics

The two programs together: the test application, started with `--socket` and
with its two threads anywhere, and the metrics application, which has received
some prefix of what is on the wire. What goes on the wire is the records of the
entries that are typed (`run_sent`), and what is counted is at most the records
of the stream (`added_figures`).
-/

namespace LogMetrics

open LogMetrics.Base
open LogMetrics.Logger
open LogMetrics.MetricsApplication
open LogMetrics.TestApplication (AppAction Arguments LogEntry TestApplication appMachine entries
  entries_free)

/-- The records of entries, the `k`-th with its timestamp. -/
def entryRecords (timestamps : Nat → Bytes) (es : List LogEntry) : List Record :=
  es.mapIdx fun k e => { timestamp := timestamps k, message := e.message, level := e.level }

theorem entryRecords_stream (timestamps : Nat → Bytes) (es : List LogEntry) :
    stream (entryRecords timestamps es) = (TestApplication.records timestamps es).flatten := by
  have htext : (entryRecords timestamps es).map Record.text
      = TestApplication.records timestamps es := by
    apply List.ext_getElem?
    intro i
    simp [entryRecords, TestApplication.records, Function.comp_def, Record.text]
  rw [stream, htext]

theorem entryRecords_level (timestamps : Nat → Bytes) (es : List LogEntry) :
    (entryRecords timestamps es).map Record.level = es.map LogEntry.level := by
  apply List.ext_getElem?
  intro i
  simp [entryRecords, Function.comp_def]

theorem entryRecords_countP (timestamps : Nat → Bytes) (es : List LogEntry) (l : LogLevel) :
    (entryRecords timestamps es).countP (·.level = l) = es.countP (·.level = l) := by
  have hcount := congrArg (List.countP (· = l)) (entryRecords_level timestamps es)
  rw [List.countP_map, List.countP_map] at hcount
  exact hcount

theorem entryRecords_plain {timestamps : Nat → Bytes} (hts : ∀ k, PlainTimestamp (timestamps k))
    {es : List LogEntry} (hes : ∀ e ∈ es, '['.toUInt8 ∉ e.message) :
    ∀ r ∈ entryRecords timestamps es, r.Plain := by
  intro r hr
  obtain ⟨k, hk, rfl⟩ := List.mem_mapIdx.mp hr
  exact ⟨hts k, hes _ (List.getElem_mem hk)⟩

/-- **Nothing is counted that was not typed.** The test application runs on a
socket whose other end is the metrics application, and no line has a `[` in
it. At every instant, wherever the four threads are, whatever the system calls
return and however the stream is cut: the levels counted are a subsequence of
those of the entries typed that are not below the level of the command line,
and the figures are at most as many. -/
theorem typed_counted (files : Bytes → Option (List FileWrite))
    (sockets : Bytes → Int → SocketSink) (timestamps : Nat → Bytes) (program : Bytes)
    (args lines : List Bytes) (application : TestApplication SocketSink)
    (hts : ∀ k, PlainTimestamp (timestamps k)) (hlines : ∀ line ∈ lines, '['.toUInt8 ∉ line)
    (hnew : ∀ host port, (sockets host port).wire = [])
    (hmain : TestApplication.main files sockets program args lines = .runsSocket application)
    (as : List AppAction) (s : TestApplication SocketSink) (es : List Empty)
    (hsender : (appMachine timestamps).run application as = some (s, es))
    (N : Nat) (timeoutSeconds : Int) (now : TimePoint) (bs : List ApplicationAction)
    (m : MetricsApplication) (fs : List ApplicationEvent)
    (hreceiver : metricsMachine.run (.created N timeoutSeconds now) bs = some (m, fs))
    (hnetwork : ∀ sink ∈ s.logger.sinks, received (recvScript bs) <+: sink.wire) :
    ∃ host port level, Arguments stoi args { mode := .socket, host, port, level }
      ∧ ((addedMessages (processorEvents fs)).map Prod.snd).Sublist
        ((TestApplication.logged level (entries level lines)).map LogEntry.level)
      ∧ m.threads.stats.totalMessages
        ≤ (TestApplication.logged level (entries level lines)).length
      ∧ ∀ l, m.threads.stats.messagesByLevel l
        ≤ (TestApplication.logged level (entries level lines)).countP (·.level = l) := by
  have hcase := TestApplication.main_case files sockets program args lines
  rw [hmain] at hcase
  cases hcase with
  | @socket host port level _ hargs hcreated =>
    obtain ⟨-, rfl⟩ := TestApplication.createSocketApplication_eq_some_iff.mp hcreated
    refine ⟨host, port, level, hargs, ?_⟩
    obtain ⟨sink, given, hsinks, hserved, hfront, -⟩ := TestApplication.run_sent hsender
    have hwire : sink.wire <+: stream
        (entryRecords timestamps (TestApplication.logged level (entries level lines))) := by
      have hgiven := serve_wire given (sockets host port)
      rw [← hserved, hnew, List.nil_append] at hgiven
      rw [entryRecords_stream]
      exact hgiven.trans (List.IsPrefix.flatten hfront)
    have hplain : ∀ r ∈ entryRecords timestamps
        (TestApplication.logged level (entries level lines)), r.Plain :=
      entryRecords_plain hts fun e he => entries_free hlines e (List.mem_filter.mp he).1
    have hreceived := (hnetwork sink (by rw [hsinks]; exact List.mem_singleton_self _)).trans hwire
    obtain ⟨hsublist, htotal, hlevels⟩ := added_figures hplain hreceiver hreceived
    rw [entryRecords_level] at hsublist
    refine ⟨hsublist, ?_, fun l => ?_⟩
    · rwa [entryRecords, List.length_mapIdx] at htotal
    · rw [← entryRecords_countP timestamps]
      exact hlevels l

/-- A message, one below the level, and the end. -/
def typedLines : List Bytes := [ascii "a", ascii "low debug", ascii "exit"]

theorem typed_counted_served :
    ∃ application s es m fs,
      TestApplication.main TestApplication.appLog TestApplication.oneSend (ascii "app")
          [ascii "--socket", ascii "127.0.0.1", ascii "9000"] typedLines = .runsSocket application
      ∧ (appMachine fun _ => ascii "t").run application TestApplication.threeLinesSchedule
        = some (s, es)
      ∧ metricsMachine.run (.created 10 5 0) servedRun = some (m, fs)
      ∧ addedMessages (processorEvents fs) = [(ascii "a", .info)]
      ∧ ∃ level, m.threads.stats.totalMessages
        ≤ (TestApplication.logged level (entries level typedLines)).length := by
  obtain ⟨application, hmain, s, es, hsender, hwire⟩ : ∃ application,
      TestApplication.main TestApplication.appLog TestApplication.oneSend (ascii "app")
          [ascii "--socket", ascii "127.0.0.1", ascii "9000"] typedLines = .runsSocket application
        ∧ ∃ s es, (appMachine fun _ => ascii "t").run application
            TestApplication.threeLinesSchedule = some (s, es)
          ∧ ∀ sink ∈ s.logger.sinks, ascii "[t] [INFO] a" <+: sink.wire :=
    ⟨_, rfl, _, _, rfl, by decide +kernel⟩
  obtain ⟨m, fs, hreceiver, hadded, hreceived⟩ : ∃ m fs,
      metricsMachine.run (.created 10 5 0) servedRun = some (m, fs)
        ∧ addedMessages (processorEvents fs) = [(ascii "a", .info)]
        ∧ received (recvScript servedRun) = ascii "[t] [INFO] a" :=
    ⟨_, _, rfl, by decide +kernel, by decide +kernel⟩
  obtain ⟨host, port, level, -, -, htotal, -⟩ := typed_counted TestApplication.appLog
    TestApplication.oneSend (fun _ => ascii "t") (ascii "app")
    [ascii "--socket", ascii "127.0.0.1", ascii "9000"] typedLines application
    (fun _ => ⟨by decide, by decide, by decide⟩) (by decide) (fun _ _ => rfl) hmain
    TestApplication.threeLinesSchedule s es hsender 10 5 0 servedRun m fs hreceiver
    (by rw [hreceived]; exact hwire)
  exact ⟨application, s, es, m, fs, hmain, hsender, hreceiver, hadded, level, htotal⟩

/-! ## All of it -/

theorem stream_eq_nil {records : List Record} (h : stream records = []) : records = [] := by
  cases records with
  | nil => rfl
  | cons r rs =>
    rw [stream_cons] at h
    exact absurd h (by simp)

theorem stream_flatten (groups : List (List Record)) :
    stream groups.flatten = (groups.map stream).flatten := by
  induction groups with
  | nil => rfl
  | cons g groups ih =>
    rw [List.flatten_cons, stream_append, ih, List.map_cons, List.flatten_cons]

/-- Groups of the first records that are all of the stream are all records. -/
theorem groups_all {groups : List (List Record)} {records : List Record}
    (hfront : groups.flatten <+: records)
    (hall : (groups.map stream).flatten = stream records) : groups.flatten = records := by
  obtain ⟨rest, rfl⟩ := hfront
  rw [← stream_flatten, stream_append] at hall
  rw [stream_eq_nil (List.self_eq_append_right.mp hall), List.append_nil]

/-- **All that was typed is counted.** The test application has come to its
end on a connection that still stands, all that is on the wire has been
received and drained, and the drains were cut only between records. Then every
entry that is not below the level is in one message counted: alone, or run
together with its neighbours, at the level of the first of them. -/
theorem typed_all_counted (files : Bytes → Option (List FileWrite))
    (sockets : Bytes → Int → SocketSink) (timestamps : Nat → Bytes) (program : Bytes)
    (args lines : List Bytes) (application : TestApplication SocketSink) (host : Bytes) (port : Int)
    (level : LogLevel) (hts : ∀ k, ']'.toUInt8 ∉ timestamps k)
    (hnew : (sockets host port).wire = [])
    (hargs : Arguments stoi args { mode := .socket, host, port, level })
    (hmain : TestApplication.main files sockets program args lines = .runsSocket application)
    (as : List AppAction) (s : TestApplication SocketSink) (es : List Empty)
    (hsender : (appMachine timestamps).run application as = some (s, es))
    (hstuck : ∀ a, (appMachine timestamps).step s a = none) (sink : SocketSink)
    (hsink : s.logger.sinks = [sink]) (hvalid : sink.isValid = true)
    (N : Nat) (timeoutSeconds : Int) (now : TimePoint) (bs : List ApplicationAction)
    (m : MetricsApplication) (fs : List ApplicationEvent)
    (hreceiver : metricsMachine.run (.created N timeoutSeconds now) bs = some (m, fs))
    (hnetwork : received (recvScript bs) = sink.wire)
    (hplace : m.server.place.inCallback = false) (hbuffer : m.server.server.clientBuffer = [])
    (hcuts : ∀ k, 0 < k → CutAfter (recvScript bs) k → k ∈ ends ((entryRecords timestamps
      (TestApplication.logged level (entries level lines))).map Record.text)) :
    ∃ groups : List (List Record), (∀ g ∈ groups, g ≠ [])
      ∧ groups.flatten = entryRecords timestamps (TestApplication.logged level (entries level lines))
      ∧ addedMessages (processorEvents fs) = groups.filterMap joined
      ∧ m.threads.stats.totalMessages = groups.length % sizeMod := by
  have hcase := TestApplication.main_case files sockets program args lines
  rw [hmain] at hcase
  cases hcase with
  | @socket host' port' level' _ hargs' hcreated =>
    have hconfig := TestApplication.arguments_unique hargs hargs'
    simp only [TestApplication.AppConfig.mk.injEq, true_and] at hconfig
    obtain ⟨rfl, rfl, rfl⟩ := hconfig
    obtain ⟨-, rfl⟩ := TestApplication.createSocketApplication_eq_some_iff.mp hcreated
    -- all records are on the wire
    have hended := TestApplication.ended_of_stuck (TestApplication.run_running hsender) hstuck
    obtain ⟨sink', given, hsinks, hserved, -, hwhole⟩ := TestApplication.run_sent hsender
    obtain rfl : sink' = sink := List.singleton_inj.mp (hsinks.symm.trans hsink)
    have hwire : received (recvScript bs) = stream (entryRecords timestamps
        (TestApplication.logged level (entries level lines))) := by
      have hvalid' := hvalid
      rw [hserved] at hvalid'
      have hgiven := serve_connected given _ hvalid'
      rw [← hserved, hnew, List.nil_append, hwhole hended.2 hvalid] at hgiven
      rw [hnetwork, hgiven, entryRecords_stream]
    -- and nothing of them is left in the buffer
    obtain ⟨-, hfed, -, -⟩ := run_conserved hreceiver
    obtain ⟨-, hall, hadded⟩ := run_outside hreceiver hplace
    have hdrained : (payloads (processorEvents fs)).flatten = received (recvScript bs) := by
      have hleft : (drains (recvScript bs)).2 = [] := by
        rw [← hfed.buffer, ServerLife.gathered, hplace]
        exact hbuffer
      rw [hall, ← drains_conserve, hleft, List.append_nil]
    obtain ⟨groups, hne, hfront, hpayloads⟩ :=
      run_groups hreceiver (by rw [hwire]) hcuts hplace
    have hgroups : groups.flatten = entryRecords timestamps
        (TestApplication.logged level (entries level lines)) := by
      refine groups_all hfront ?_
      rw [← hpayloads, hdrained, hwire]
    have hclose : ∀ r ∈ groups.flatten, ']'.toUInt8 ∉ r.timestamp := by
      intro r hr
      rw [hgroups] at hr
      obtain ⟨k, hk, rfl⟩ := List.mem_mapIdx.mp hr
      exact hts k
    obtain ⟨hcounted, hlength⟩ := accepted_groups hne hclose
    rw [← hall, hpayloads, hcounted] at hadded
    obtain ⟨-, calls, hcalls, hcollected⟩ := (run_projects hreceiver).2.processed
    have htotal := (run_exact calls).total
    rw [← hcalls, hcollected, hadded, hlength] at htotal
    exact ⟨groups, hne, hgroups, hadded, htotal⟩

/-- Two messages, and the end. -/
def twoLines : List Bytes := [ascii "a", ascii "b fatal", ascii "exit"]

/-- Every connection comes about, and takes the first two records whole. -/
def bothTaken (_ : Bytes) (_ : Int) : SocketSink where
  socketFd := 3
  isConnected := true
  attempts := [.sent 100, .sent 100]

theorem typed_all_counted_two :
    ∃ application s es m fs,
      TestApplication.main TestApplication.appLog bothTaken (ascii "app")
          [ascii "--socket", ascii "127.0.0.1", ascii "9000"] twoLines = .runsSocket application
      ∧ (appMachine fun _ => ascii "t").run application
          (TestApplication.threeLinesSchedule ++ List.replicate 4 (.main none)) = some (s, es)
      ∧ metricsMachine.run (.created 10 5 0) togetherRun = some (m, fs)
      ∧ ∃ groups : List (List Record), groups.flatten.length = 2
        ∧ addedMessages (processorEvents fs) = groups.filterMap joined := by
  obtain ⟨application, hmain, s, es, hsender, hstuck, sink, hsink, hvalid, hwire⟩ : ∃ application,
      TestApplication.main TestApplication.appLog bothTaken (ascii "app")
          [ascii "--socket", ascii "127.0.0.1", ascii "9000"] twoLines = .runsSocket application
        ∧ ∃ s es, (appMachine fun _ => ascii "t").run application
            (TestApplication.threeLinesSchedule ++ List.replicate 4 (.main none)) = some (s, es)
          ∧ (∀ a, (appMachine fun _ => ascii "t").step s a = none)
          ∧ ∃ sink, s.logger.sinks = [sink] ∧ sink.isValid = true
            ∧ sink.wire = ascii "[t] [INFO] a[t] [FATAL] b" :=
    ⟨_, rfl, _, _, rfl, fun a => by cases a <;> rfl, _, rfl, by decide +kernel, by decide +kernel⟩
  obtain ⟨m, fs, hreceiver, hplace, hbuffer, hreceived⟩ : ∃ m fs,
      metricsMachine.run (.created 10 5 0) togetherRun = some (m, fs)
        ∧ m.server.place.inCallback = false ∧ m.server.server.clientBuffer = []
        ∧ received (recvScript togetherRun) = ascii "[t] [INFO] a[t] [FATAL] b" :=
    ⟨_, _, rfl, rfl, rfl, by decide +kernel⟩
  have hcuts : ∀ k, 0 < k → CutAfter (recvScript togetherRun) k →
      k ∈ ends ((entryRecords (fun _ => ascii "t")
        (TestApplication.logged .info (entries .info twoLines))).map Record.text) := by
    intro k hpos hcut
    have hend := (mem_ends_drains _ k).mpr ⟨hpos, hcut⟩
    rw [show ends (drains (recvScript togetherRun)).1 = [25] from by decide +kernel] at hend
    rw [List.mem_singleton.mp hend]
    decide +kernel
  have hargs : Arguments stoi [ascii "--socket", ascii "127.0.0.1", ascii "9000"]
      { mode := .socket, host := ascii "127.0.0.1", port := 9000, level := .info } :=
    .socket (by decide +kernel) (by decide) .absent
  obtain ⟨groups, -, hall, hadded, -⟩ := typed_all_counted TestApplication.appLog bothTaken
    (fun _ => ascii "t") (ascii "app") [ascii "--socket", ascii "127.0.0.1", ascii "9000"] twoLines
    application (ascii "127.0.0.1") 9000 .info (fun _ => by decide) rfl hargs hmain
    (TestApplication.threeLinesSchedule ++ List.replicate 4 (.main none)) s es hsender hstuck sink
    hsink hvalid 10 5 0 togetherRun m fs hreceiver (hreceived.trans hwire.symm) hplace hbuffer hcuts
  refine ⟨application, s, es, m, fs, hmain, hsender, hreceiver, groups, ?_, hadded⟩
  rw [hall]
  decide +kernel

end LogMetrics
