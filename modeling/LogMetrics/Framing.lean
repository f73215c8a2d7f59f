import LogMetrics.Base.Segment
import LogMetrics.Logger.SocketSink
import LogMetrics.MetricsApplication.MessageProcessor
import LogMetrics.MetricsApplication.SocketServer

/-!
# Records on the stream between the two programs

The logger's `SocketSink` writes records one after another on a byte stream;
the metrics server hands what one drain gathered to `process_message` as one
message (`MetricsApplication::run` installs that callback). Neither side marks
where a record ends. `FileSink::write` puts a line end behind each record,
`SocketSink::write` nothing.

Main result: `framed_iff`. The callback gets exactly the records sent when the
ends of the drains are the ends of the records, and otherwise it does not: the
payloads are the pieces of the stream between the `EAGAIN`s
(`mem_ends_drains`), and a stream and its cuts determine the pieces
(`Base.eq_of_ends`).
-/

namespace LogMetrics

open LogMetrics.Base
open LogMetrics.Logger (LogLevel SocketSink Attempt formatMessage formatMessage_ne_nil)
open LogMetrics.MetricsApplication

/-! ## The sending side -/

/-- A message handed to the logger, and the text of its timestamp. -/
structure Record where
  timestamp : Bytes
  message : Bytes
  level : LogLevel

def Record.text (r : Record) : Bytes := formatMessage r.timestamp r.message r.level

/-- The records written one after another. -/
def sendAll (records : List Record) (sink : SocketSink) : SocketSink :=
  records.foldl (fun sink r => sink.write r.text) sink

/-- The bytes of the records, in order. -/
def stream (records : List Record) : Bytes := (records.map Record.text).flatten

/-- A sink that is still connected behind the last record has sent every byte
of them. -/
theorem sendAll_wire {records : List Record} {sink : SocketSink}
    (h : (sendAll records sink).isValid = true) :
    sink.isValid = true ∧ (sendAll records sink).wire = sink.wire ++ stream records := by
  induction records generalizing sink with
  | nil => exact ⟨h, (List.append_nil _).symm⟩
  | cons r records ih =>
    obtain ⟨hvalid, hwire⟩ := ih h
    obtain ⟨hvalid', hwire'⟩ := SocketSink.write_connected hvalid
    refine ⟨hvalid', ?_⟩
    show (sendAll records (sink.write r.text)).wire = _
    rw [hwire, hwire', List.append_assoc]
    rfl

/-! ## The receiving side -/

/-- The metrics application as its callback sees it: the payloads so far, and
the processor they went to. -/
structure Application where
  payloads : List Bytes
  processor : MessageProcessor

/-- The callback `MetricsApplication::run` installs; `readings` are the clock
readings of each `process_message`. -/
def onMessage (readings : Nat → Readings) (message : Bytes) (app : Application) : Application where
  payloads := app.payloads ++ [message]
  processor := (app.processor.processMessage message (readings app.payloads.length)).1

/-- The application when `run` starts to receive. -/
def Application.started (messageInterval : Nat) (timeoutSeconds : Int) (statsCallback : Bool)
    (created now : TimePoint) : Application where
  payloads := []
  processor := .started messageInterval timeoutSeconds statsCallback created now

theorem foldl_onMessage_payloads (readings : Nat → Readings) (ps : List Bytes)
    (app : Application) :
    (ps.foldl (fun app p => onMessage readings p app) app).payloads = app.payloads ++ ps := by
  induction ps generalizing app with
  | nil => exact (List.append_nil _).symm
  | cons p ps ih =>
    rw [List.foldl_cons, ih, onMessage, List.append_assoc]
    rfl

/-- Every record counts, in `size_t`. -/
theorem foldl_onMessage_total (readings : Nat → Readings) {records : List Record}
    (hts : ∀ r ∈ records, ']'.toUInt8 ∉ r.timestamp) (app : Application)
    (happ : app.processor.metricsCollector.totalMessages < sizeMod) :
    ((records.map Record.text).foldl (fun app p => onMessage readings p app)
        app).processor.metricsCollector.totalMessages
      = (app.processor.metricsCollector.totalMessages + records.length) % sizeMod := by
  induction records generalizing app with
  | nil => exact (Nat.mod_eq_of_lt happ).symm
  | cons r records ih =>
    have haccept := parsePayload_formatMessage r.message r.level (hts r (List.mem_cons_self ..))
    have htotal : (onMessage readings r.text app).processor.metricsCollector.totalMessages
        = sizeAdd app.processor.metricsCollector.totalMessages 1 :=
      MessageProcessor.processMessage_accepted _ _ haccept
    rw [List.map_cons, List.foldl_cons, ih (fun q hq => hts q (List.mem_cons_of_mem _ hq)) _
      (by rw [htotal]; exact sizeAdd_lt _ _), htotal, sizeAdd, Nat.mod_add_mod, List.length_cons]
    congr 1
    omega

/-! ## Where the stream is cut -/

/-- A drain ends behind the first `k` bytes. -/
def CutAfter (script : List RecvResult) (k : Nat) : Prop :=
  ∃ pre post, script = pre ++ .again :: post ∧ (received pre).length = k

theorem cutAfter_snoc (script : List RecvResult) (r : RecvResult) (k : Nat) :
    CutAfter (script ++ [r]) k
      ↔ CutAfter script k ∨ (r = .again ∧ (received script).length = k) := by
  constructor
  · rintro ⟨pre, post, hsplit, hk⟩
    rcases List.eq_nil_or_concat post with rfl | ⟨post, q, rfl⟩
    · obtain ⟨rfl, hr⟩ := List.append_inj' hsplit rfl
      exact .inr ⟨(List.singleton_inj.mp hr), hk⟩
    · rw [List.concat_eq_append, ← List.cons_append, ← List.append_assoc] at hsplit
      exact .inl ⟨pre, post, (List.append_inj' hsplit rfl).1, hk⟩
  · rintro (⟨pre, post, rfl, hk⟩ | ⟨rfl, hk⟩)
    · exact ⟨pre, post ++ [r], by simp, hk⟩
    · exact ⟨script, [], rfl, hk⟩

/-- The payloads end where the drains that received something end. -/
theorem mem_ends_drains (script : List RecvResult) (k : Nat) :
    k ∈ ends (drains script).1 ↔ 0 < k ∧ CutAfter script k := by
  induction script using List.reverseRecOn with
  | nil =>
    constructor
    · intro h
      exact absurd h List.not_mem_nil
    · rintro ⟨-, pre, post, hsplit, -⟩
      exact absurd hsplit (by simp)
  | append_singleton script r ih =>
    have hconserve := congrArg List.length (drains_conserve script)
    rw [List.length_append] at hconserve
    have hother : r ≠ .again → (drains (script ++ [r])).1 = (drains script).1 := by
      intro hr
      rw [drains_snoc]
      cases r with
      | data chunk => rfl
      | again => exact absurd rfl hr
      | closed => rfl
      | error => rfl
    rw [cutAfter_snoc]
    by_cases hr : r = .again
    · subst hr
      rw [drains_snoc]
      rcases drainStep_again (drains script) with ⟨hempty, hstep⟩ | ⟨hne, hstep⟩
      · -- nothing gathered: the stream so far ends where its last payload does
        rw [hstep, ih]
        rw [hempty, List.length_nil, Nat.add_zero] at hconserve
        constructor
        · rintro ⟨hk, hcut⟩
          exact ⟨hk, .inl hcut⟩
        · rintro ⟨hk, hcut | ⟨-, rfl⟩⟩
          · exact ⟨hk, hcut⟩
          · have hpayloads : (drains script).1 ≠ [] := by
              intro hnil
              rw [hnil, List.flatten_nil, List.length_nil] at hconserve
              omega
            rw [← ih, ← hconserve]
            exact length_flatten_mem_ends hpayloads
      · have hpos : 0 < (drains script).2.length := List.length_pos_iff.mpr hne
        rw [hstep, ends_snoc, List.mem_append, List.mem_singleton, ih, hconserve]
        constructor
        · rintro (⟨hk, hcut⟩ | rfl)
          · exact ⟨hk, .inl hcut⟩
          · exact ⟨by omega, .inr ⟨rfl, rfl⟩⟩
        · rintro ⟨hk, hcut | ⟨-, rfl⟩⟩
          · exact .inl ⟨hk, hcut⟩
          · exact .inr rfl
    · rw [hother hr, ih]
      exact and_congr_right fun _ => (or_iff_left fun h => hr h.1).symm

/-! ## Framing -/

/-- Every drain of the script is read, the callback has had exactly the
records, in order, and the collector has counted each of them. -/
def Framed (server : SocketServer Application) (app : Application) (script : List RecvResult)
    (records : List Record) : Prop :=
  ∃ server' app',
    server.handleRecvs app (script.countP RecvResult.endsDrain) script = some (server', app', [])
      ∧ app'.payloads = records.map Record.text
      ∧ app'.processor.metricsCollector.totalMessages = records.length

/-- Behind the last byte of each record a drain ends, and a drain that has
received something ends nowhere else. -/
def CutAtRecords (script : List RecvResult) (records : List Record) : Prop :=
  ∀ k, 0 < k → (CutAfter script k ↔ k ∈ ends (records.map Record.text))

/-- **Messages are framed exactly when the drains are the records.** -/
theorem framed_iff (messageInterval : Nat) (timeoutSeconds : Int) (statsCallback : Bool)
    (created now : TimePoint) (readings : Nat → Readings) (serverFd clientFd : Int)
    (records : List Record) (sink : SocketSink) (script : List RecvResult)
    (hts : ∀ r ∈ records, ']'.toUInt8 ∉ r.timestamp)
    (hsent : (sendAll records sink).wire = stream records)
    (hreceived : received script = (sendAll records sink).wire)
    (hopen : ∀ r ∈ script, r ≠ .closed ∧ r ≠ .error) (hdrained : Drained script) :
    Framed (.started serverFd clientFd (some (onMessage readings)))
        (.started messageInterval timeoutSeconds statsCallback created now) script records
      ↔ CutAtRecords script records ∧ records.length < sizeMod := by
  have hrun := handleRecvs_of_drained (.started serverFd clientFd (some (onMessage readings)))
    (.started messageInterval timeoutSeconds statsCallback created now) hdrained []
  rw [List.append_nil,
    (foldl_recvStep serverFd clientFd (onMessage readings) _ script).2.2] at hrun
  have hend : ¬DataThenEnd script := by
    rintro ⟨pre, chunk, r, post, rfl, hr⟩
    have := hopen r (by simp)
    rcases hr with rfl | rfl
    · exact this.1 rfl
    · exact this.2 rfl
  have hflat : (drains script).1.flatten = (records.map Record.text).flatten := by
    have hconserve := drains_conserve script
    rw [buffer_eq_nil hend hdrained, List.append_nil, hreceived, hsent] at hconserve
    exact hconserve
  -- the same stream, so the same pieces when it is cut at the same places
  have hpieces : (drains script).1 = records.map Record.text ↔ CutAtRecords script records := by
    unfold CutAtRecords
    constructor
    · intro heq k hk
      rw [← heq, mem_ends_drains]
      exact (and_iff_right hk).symm
    · intro hcuts
      have htexts : ∀ x ∈ records.map Record.text, x ≠ [] := by
        intro x hx
        obtain ⟨r, -, rfl⟩ := List.mem_map.mp hx
        exact formatMessage_ne_nil _ _ _
      refine eq_of_ends (drains_ne_nil script) htexts hflat fun k => ?_
      rw [mem_ends_drains]
      constructor
      · rintro ⟨hk, hcut⟩
        exact (hcuts k hk).mp hcut
      · intro hmem
        have hk := ends_pos htexts k hmem
        exact ⟨hk, (hcuts k hk).mpr hmem⟩
  have hcount := foldl_onMessage_total readings hts
    (.started messageInterval timeoutSeconds statsCallback created now)
    (show 0 < sizeMod by decide)
  rw [show (Application.started messageInterval timeoutSeconds statsCallback created
    now).processor.metricsCollector.totalMessages = 0 from rfl, Nat.zero_add] at hcount
  constructor
  · rintro ⟨server', app', hrun', hpayloads, htotal⟩
    rw [hrun'] at hrun
    simp only [Option.some.injEq, Prod.mk.injEq, and_true] at hrun
    obtain ⟨-, rfl⟩ := hrun
    rw [foldl_onMessage_payloads] at hpayloads
    have heq : (drains script).1 = records.map Record.text := hpayloads
    rw [heq, hcount] at htotal
    refine ⟨hpieces.mp heq, ?_⟩
    rw [← htotal]
    exact Nat.mod_lt _ (by decide)
  · rintro ⟨hcuts, hfew⟩
    have heq := hpieces.mpr hcuts
    refine ⟨_, _, hrun, ?_, ?_⟩
    · rw [foldl_onMessage_payloads, heq]
      rfl
    · rw [heq, hcount, Nat.mod_eq_of_lt hfew]

/-- A record without a message. -/
def emptyRecord : Record := ⟨ascii "2024-01-15 10:30:45.000120", [], .info⟩

/-- A connected sink on which two sends go through. -/
def twoSends : SocketSink :=
  { socketFd := 3, isConnected := true, attempts := [.sent 99, .sent 99] }

/-- `recv` returns the text of one record, or of two. -/
def oneRecord : Chunk := ⟨emptyRecord.text, by decide, by decide⟩
def twoRecords : Chunk := ⟨emptyRecord.text ++ emptyRecord.text, by decide, by decide⟩

theorem framed_two_drains :
    Framed (.started 4 5 (some (onMessage fun _ => ⟨0, 0, 0, 0⟩))) (.started 1 1 false 0 0)
      [.data oneRecord, .again, .data oneRecord, .again] [emptyRecord, emptyRecord] :=
  (framed_iff 1 1 false 0 0 (fun _ => ⟨0, 0, 0, 0⟩) 4 5 [emptyRecord, emptyRecord] twoSends
    [.data oneRecord, .again, .data oneRecord, .again] (by decide) (sendAll_wire (by decide)).2
    (by decide)
    (by decide) (fun chunk => by simp)).mpr
    ⟨fun k hk => by
      rw [show [emptyRecord, emptyRecord].map Record.text
        = (drains [.data oneRecord, .again, .data oneRecord, .again]).1 by decide,
        mem_ends_drains]
      exact (and_iff_right hk).symm, by decide⟩

theorem not_framed_one_drain :
    ¬Framed (.started 4 5 (some (onMessage fun _ => ⟨0, 0, 0, 0⟩))) (.started 1 1 false 0 0)
      [.data twoRecords, .again] [emptyRecord, emptyRecord] := by
  rintro ⟨server', app', hrun, hpayloads, -⟩
  cases hrun
  exact absurd hpayloads (by decide)

end LogMetrics
