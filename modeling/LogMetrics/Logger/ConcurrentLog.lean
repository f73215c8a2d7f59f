import Mathlib.Logic.Function.Basic
import LogMetrics.Base.Machine
import LogMetrics.Logger.Logger
import LogMetrics.Logger.SocketSink

/-!
# Threads that log to one socket

Any number of threads call `Logger::log` on one logger whose only sink is a
`SocketSink`. `sinks_mutex_` is explicit, since `log` holds it across two
sections of `socket_mutex_`: the validity test at the top of
`SocketSink::write` and the sending loop. Those inner sections, and
`Logger::is_valid` (which takes both mutexes), are one step each.

`Integrity` is the invariant. Its two clauses that matter are about threads,
not about bytes: a thread inside `write` holds `sinks_mutex_` (`holder`), so
there is only one; and a thread past the inner test still has a connected
sink (`sending`), because the only step that disconnects is another thread's
send, which `holder` excludes. So the outer test in `Logger::log` may be as
stale as it likes. `stream_integrity` reads off what is on the wire.
-/

namespace LogMetrics.Logger

open LogMetrics.Base

variable {ι : Type} [DecidableEq ι]

/-- Where a thread is in `Logger::log`. -/
inductive LogPc where
  | idle
  | levelCheck (message : Bytes) (level : LogLevel)
  | validCheck (message : Bytes) (level : LogLevel)
  | format (message : Bytes) (level : LogLevel)
  | lockSinks (record : Bytes)
  | sinkValid (record : Bytes)
  | sinkSend (record : Bytes)
  | unlockSinks
  deriving DecidableEq, Repr

/-- The thread is in the section that holds `sinks_mutex_`. -/
def LogPc.inside : LogPc → Bool
  | .sinkValid _ => true
  | .sinkSend _ => true
  | .unlockSinks => true
  | _ => false

/-- The record a thread has formatted and not yet written. -/
def LogPc.record? : LogPc → Option Bytes
  | .lockSinks record => some record
  | .sinkValid record => some record
  | .sinkSend record => some record
  | _ => none

/-- The logger, its sink and the threads. -/
structure SharedLogger (ι : Type) where
  defaultLevel : LogLevel
  sink : SocketSink
  sinksMutex : Option ι
  pc : ι → LogPc

inductive LogAction (ι : Type) where
  | call (t : ι) (message : Bytes) (level : LogLevel)
  | format (t : ι) (timestamp : Bytes)
  | advance (t : ι)

/-- `formatted`: `format_message` returned this record. `wrote`: the call of
`SocketSink::write` with this record returned. -/
inductive LogEvent where
  | formatted (record : Bytes)
  | wrote (record : Bytes)
  deriving DecidableEq, Repr

namespace SharedLogger

def goto (s : SharedLogger ι) (t : ι) (pc : LogPc) : SharedLogger ι :=
  { s with pc := Function.update s.pc t pc }

/-- One step of thread `t` in `Logger::log`. -/
def advance (s : SharedLogger ι) (t : ι) : Option (SharedLogger ι × List LogEvent) :=
  match s.pc t with
  | .idle => none
  | .levelCheck message level =>
    if Logger.isBelow level s.defaultLevel then some (s.goto t .idle, [])
    else some (s.goto t (.validCheck message level), [])
  | .validCheck message level =>
    if s.sinksMutex.isSome then none
    else if not s.sink.isValid then some (s.goto t .idle, [])
    else some (s.goto t (.format message level), [])
  | .format _ _ => none
  | .lockSinks record =>
    if s.sinksMutex.isSome then none
    else some ({ s with sinksMutex := some t }.goto t (.sinkValid record), [])
  | .sinkValid record =>
    if not s.sink.isValid then some (s.goto t .unlockSinks, [.wrote record])
    else some (s.goto t (.sinkSend record), [])
  | .sinkSend record =>
    some ({ s with sink := SocketSink.sendLoop record 0 s.sink s.sink.attempts }.goto t
      .unlockSinks, [.wrote record])
  | .unlockSinks => some ({ s with sinksMutex := none }.goto t .idle, [])

def step (s : SharedLogger ι) : LogAction ι → Option (SharedLogger ι × List LogEvent)
  | .call t message level =>
    match s.pc t with
    | .idle => some (s.goto t (.levelCheck message level), [])
    | _ => none
  | .format t timestamp =>
    match s.pc t with
    | .format message level =>
      let record := formatMessage timestamp message level
      some (s.goto t (.lockSinks record), [.formatted record])
    | _ => none
  | .advance t => s.advance t

end SharedLogger

/-- The threads as a machine. -/
def logMachine (ι : Type) [DecidableEq ι] : Machine (SharedLogger ι) (LogAction ι) LogEvent :=
  ⟨SharedLogger.step⟩

/-- A logger around a connected sink, before any thread has called `log`. -/
structure SharedLogger.Fresh (s : SharedLogger ι) : Prop where
  connected : s.sink.isValid = true
  unsent : s.sink.wire = []
  unlocked : s.sinksMutex = none
  idle : ∀ t, s.pc t = .idle

/-- The logger `create_logger` makes around a connected socket. -/
def SharedLogger.start (defaultLevel : LogLevel) (socketFd : Int) (attempts : List Attempt) :
    SharedLogger ι where
  defaultLevel := defaultLevel
  sink := { socketFd, isConnected := true, attempts }
  sinksMutex := none
  pc := fun _ => .idle

omit [DecidableEq ι] in
theorem SharedLogger.start_fresh {defaultLevel : LogLevel} {socketFd : Int}
    {attempts : List Attempt} (h : socketFd ≠ -1) :
    (SharedLogger.start (ι := ι) defaultLevel socketFd attempts).Fresh :=
  ⟨by simp [SharedLogger.start, SocketSink.isValid, h], rfl, rfl, fun _ => rfl⟩

/-- The records formatted, in order. -/
def formattedRecords (es : List LogEvent) : List Bytes :=
  es.filterMap fun
    | .formatted record => some record
    | .wrote _ => none

/-- The records whose `write` has returned, in order. -/
def wroteRecords (es : List LogEvent) : List Bytes :=
  es.filterMap fun
    | .formatted _ => none
    | .wrote record => some record

/-! ## What a step can do -/

/-- The steps, by what they touch. `quiet` is every step outside the section
that neither formats nor locks. -/
inductive LogStep (s : SharedLogger ι) : SharedLogger ι → List LogEvent → Prop
  | quiet (t : ι) (pc : LogPc) (hpc : pc.inside = false) (hrec : pc.record? = none)
      (hout : (s.pc t).inside = false) : LogStep s (s.goto t pc) []
  | format (t : ι) (timestamp message : Bytes) (level : LogLevel)
      (hout : (s.pc t).inside = false) :
      LogStep s (s.goto t (.lockSinks (formatMessage timestamp message level)))
        [.formatted (formatMessage timestamp message level)]
  | lock (t : ι) (record : Bytes) (hpc : s.pc t = .lockSinks record)
      (hfree : s.sinksMutex = none) :
      LogStep s ({ s with sinksMutex := some t }.goto t (.sinkValid record)) []
  | enter (t : ι) (record : Bytes) (hpc : s.pc t = .sinkValid record)
      (hvalid : s.sink.isValid = true) : LogStep s (s.goto t (.sinkSend record)) []
  | skip (t : ι) (record : Bytes) (hpc : s.pc t = .sinkValid record)
      (hvalid : s.sink.isValid = false) : LogStep s (s.goto t .unlockSinks) [.wrote record]
  | send (t : ι) (record : Bytes) (hpc : s.pc t = .sinkSend record) :
      LogStep s ({ s with
        sink := SocketSink.sendLoop record 0 s.sink s.sink.attempts }.goto t .unlockSinks)
        [.wrote record]
  | unlock (t : ι) (hpc : s.pc t = .unlockSinks) :
      LogStep s ({ s with sinksMutex := none }.goto t .idle) []

theorem advance_inv {s s' : SharedLogger ι} {t : ι} {es : List LogEvent}
    (h : s.advance t = some (s', es)) : LogStep s s' es := by
  unfold SharedLogger.advance at h
  split at h
  next => exact absurd h (by simp)
  next message level hpc =>
    split at h <;> cases h
    · exact .quiet t .idle rfl rfl (by rw [hpc]; rfl)
    · exact .quiet t (.validCheck message level) rfl rfl (by rw [hpc]; rfl)
  next message level hpc =>
    split at h
    · exact absurd h (by simp)
    · split at h <;> cases h
      · exact .quiet t .idle rfl rfl (by rw [hpc]; rfl)
      · exact .quiet t (.format message level) rfl rfl (by rw [hpc]; rfl)
  next => exact absurd h (by simp)
  next record hpc =>
    split at h
    next => exact absurd h (by simp)
    next hfree =>
      cases h
      exact .lock t record hpc (by simpa using hfree)
  next record hpc =>
    split at h
    next hvalid =>
      cases h
      exact .skip t record hpc (by simpa using hvalid)
    next hvalid =>
      cases h
      exact .enter t record hpc (by simpa using hvalid)
  next record hpc =>
    cases h
    exact .send t record hpc
  next hpc =>
    cases h
    exact .unlock t hpc

theorem step_inv {s s' : SharedLogger ι} {a : LogAction ι} {es : List LogEvent}
    (h : (logMachine ι).step s a = some (s', es)) : LogStep s s' es := by
  cases a with
  | call t message level =>
    simp only [logMachine, SharedLogger.step] at h
    split at h
    next hpc =>
      cases h
      exact .quiet t (.levelCheck message level) rfl rfl (by rw [hpc]; rfl)
    next => exact absurd h (by simp)
  | format t timestamp =>
    simp only [logMachine, SharedLogger.step] at h
    split at h
    next message level hpc =>
      cases h
      exact .format t timestamp message level (by rw [hpc]; rfl)
    next => exact absurd h (by simp)
  | advance t => exact advance_inv h

/-! ## The invariant -/

/-- The wire holds whole records, then at most one proper prefix of one; a
prefix only on a sink that is no longer connected. -/
def OnWire (formatted : List Bytes) (sink : SocketSink) : Prop :=
  ∃ (records : List Bytes) (tail : Bytes), sink.wire = records.flatten ++ tail
    ∧ (∀ r ∈ records, r ∈ formatted)
    ∧ (tail = [] ∨ (sink.isConnected = false ∧ ∃ r ∈ formatted, tail <+: r ∧ tail ≠ r))

theorem OnWire.mono {formatted formatted' : List Bytes} {sink : SocketSink}
    (hsub : formatted ⊆ formatted') (h : OnWire formatted sink) : OnWire formatted' sink := by
  obtain ⟨records, tail, hwire, hrecords, htail⟩ := h
  refine ⟨records, tail, hwire, fun r hr => hsub (hrecords r hr), ?_⟩
  rcases htail with hnil | ⟨hconn, r, hr, hpre⟩
  · exact Or.inl hnil
  · exact Or.inr ⟨hconn, r, hsub hr, hpre⟩

/-- One send from a connected sink keeps the wire in shape. -/
theorem OnWire.send {formatted : List Bytes} {sink : SocketSink} {record : Bytes}
    (h : OnWire formatted sink) (hconn : sink.isConnected = true) (hrec : record ∈ formatted) :
    OnWire formatted (SocketSink.sendLoop record 0 sink sink.attempts) := by
  obtain ⟨records, tail, hwire, hrecords, htail⟩ := h
  have hnil : tail = [] := by
    rcases htail with hnil | ⟨hdis, -⟩
    · exact hnil
    · rw [hconn] at hdis
      exact absurd hdis (by decide)
  obtain ⟨k, -, hk, hwire', hconn', -⟩ :=
    SocketSink.sendLoop_spec record sink.attempts 0 sink (Nat.zero_le _)
  rw [hwire, hnil, List.append_nil, List.drop_zero, Nat.sub_zero] at hwire'
  by_cases hfull : k = record.length
  · refine ⟨records ++ [record], [], ?_, ?_, Or.inl rfl⟩
    · rw [hwire', hfull, List.take_length]
      simp
    · intro r hr
      rcases List.mem_append.mp hr with hr | hr
      · exact hrecords r hr
      · rw [List.mem_singleton.mp hr]
        exact hrec
  · refine ⟨records, record.take k, hwire', hrecords, Or.inr ⟨?_, record, hrec, ?_, ?_⟩⟩
    · rw [hconn']
      simp [hfull]
    · exact List.take_prefix k record
    · intro heq
      have := congrArg List.length heq
      rw [List.length_take] at this
      omega

/-- The invariant of the threads, the sink and the trace. -/
structure Integrity (s : SharedLogger ι) (es : List LogEvent) : Prop where
  fd : s.sink.socketFd ≠ -1
  holder : ∀ t, (s.pc t).inside = true → s.sinksMutex = some t
  sending : ∀ t r, s.pc t = .sinkSend r → s.sink.isConnected = true
  pending : ∀ t r, (s.pc t).record? = some r → r ∈ formattedRecords es
  whole : s.sink.isConnected = true → s.sink.wire = (wroteRecords es).flatten
  stream : OnWire (formattedRecords es) s.sink

omit [DecidableEq ι] in
theorem Integrity.init {s : SharedLogger ι} (h : s.Fresh) : Integrity s [] := by
  have hvalid := h.connected
  simp only [SocketSink.isValid, Bool.and_eq_true, bne_iff_ne] at hvalid
  refine ⟨hvalid.1, ?_, ?_, ?_, fun _ => h.unsent, [], [], by rw [h.unsent]; rfl,
    fun r hr => absurd hr List.not_mem_nil, Or.inl rfl⟩
  · intro t ht
    rw [h.idle t] at ht
    exact absurd ht (by decide)
  · intro t r ht
    rw [h.idle t] at ht
    exact absurd ht (by simp)
  · intro t r ht
    rw [h.idle t] at ht
    exact absurd ht (by simp [LogPc.record?])

omit [DecidableEq ι] in
/-- Two threads are never both in the section. -/
theorem Integrity.exclusive {s : SharedLogger ι} {es : List LogEvent} (h : Integrity s es)
    {t u : ι} (ht : (s.pc t).inside = true) (hu : (s.pc u).inside = true) : u = t := by
  have := (h.holder t ht).symm.trans (h.holder u hu)
  exact (Option.some.inj this).symm

section Goto

variable {s : SharedLogger ι} {t u : ι} {pc : LogPc}

@[simp] theorem goto_self : (s.goto t pc).pc t = pc := Function.update_self ..

theorem goto_ne (h : u ≠ t) : (s.goto t pc).pc u = s.pc u := Function.update_of_ne h ..

/-- What holds at the place one thread moves to, and at the places of the
others, holds of every thread behind the move. -/
theorem forall_goto {P : ι → LogPc → Prop} (ht : P t pc) (hothers : ∀ u, u ≠ t → P u (s.pc u))
    (u : ι) : P u ((s.goto t pc).pc u) := by
  by_cases hut : u = t
  · subst hut
    rw [goto_self]
    exact ht
  · rw [goto_ne hut]
    exact hothers u hut

@[simp] theorem goto_sink : (s.goto t pc).sink = s.sink := rfl

@[simp] theorem goto_sinksMutex : (s.goto t pc).sinksMutex = s.sinksMutex := rfl

end Goto

/-- A step that only moves a thread keeps the invariant, if the place it moves
to asks for nothing that does not hold. -/
theorem Integrity.move {s : SharedLogger ι} {es : List LogEvent} (h : Integrity s es)
    (fs : List LogEvent) (t : ι) (pc : LogPc) (hinside : pc.inside = true → s.sinksMutex = some t)
    (hsend : ∀ r, pc = .sinkSend r → s.sink.isConnected = true)
    (hrec : ∀ r, pc.record? = some r → r ∈ formattedRecords (es ++ fs))
    (hwrote : s.sink.isConnected = true → wroteRecords (es ++ fs) = wroteRecords es) :
    Integrity (s.goto t pc) (es ++ fs) := by
  have hsub : formattedRecords es ⊆ formattedRecords (es ++ fs) := by
    simp [formattedRecords]
  refine ⟨h.fd, ?_, ?_, ?_, ?_, h.stream.mono hsub⟩
  · exact forall_goto (P := fun u pc => pc.inside = true → s.sinksMutex = some u) hinside
      fun u _ => h.holder u
  · exact forall_goto (P := fun _ pc => ∀ r, pc = .sinkSend r → s.sink.isConnected = true) hsend
      fun u _ => h.sending u
  · exact forall_goto (P := fun _ pc => ∀ r, pc.record? = some r → r ∈ formattedRecords (es ++ fs))
      hrec fun u _ r hr => hsub (h.pending u r hr)
  · intro hconn
    rw [hwrote hconn]
    exact h.whole hconn

omit [DecidableEq ι] in
/-- Taking or releasing the free mutex outside the section changes nothing
else. -/
theorem Integrity.setMutex {s : SharedLogger ι} {es : List LogEvent} (h : Integrity s es)
    (m : Option ι) (hm : ∀ t, (s.pc t).inside = true → m = some t) :
    Integrity { s with sinksMutex := m } es :=
  ⟨h.fd, hm, h.sending, h.pending, h.whole, h.stream⟩

/-- One step preserves the invariant. -/
theorem LogStep.integrity {s s' : SharedLogger ι} {es fs : List LogEvent}
    (h : Integrity s es) (hstep : LogStep s s' fs) : Integrity s' (es ++ fs) := by
  cases hstep with
  | quiet t pc hpc hrec hout =>
    refine h.move _ t pc ?_ ?_ ?_ (by simp)
    · intro hin
      rw [hpc] at hin
      exact absurd hin (by decide)
    · rintro r rfl
      exact absurd hpc (by simp [LogPc.inside])
    · intro r hr
      rw [hrec] at hr
      exact absurd hr (by simp)
  | format t timestamp message level hout =>
    refine h.move _ t _ (by simp [LogPc.inside]) (by simp) ?_ (by simp [wroteRecords])
    intro r hr
    obtain rfl := Option.some.inj hr
    simp [formattedRecords]
  | lock t record hpc hfree =>
    -- the section is empty: a thread inside would hold the mutex
    have hempty : ∀ u, (s.pc u).inside = false := by
      intro u
      cases hin : (s.pc u).inside with
      | false => rfl
      | true =>
        have := h.holder u hin
        rw [hfree] at this
        exact absurd this (by simp)
    refine (h.setMutex (some t) ?_).move _ t _ (fun _ => rfl) (by simp) ?_ (by simp)
    · intro u hu
      rw [hempty u] at hu
      exact absurd hu (by decide)
    · intro r hr
      obtain rfl := Option.some.inj hr
      rw [List.append_nil]
      exact h.pending t record (by rw [hpc]; rfl)
  | enter t record hpc hvalid =>
    have hconn : s.sink.isConnected = true := by
      simp only [SocketSink.isValid, Bool.and_eq_true] at hvalid
      exact hvalid.2
    refine h.move _ t _ (fun _ => h.holder t (by rw [hpc]; rfl)) (fun _ _ => hconn) ?_ (by simp)
    intro r hr
    obtain rfl := Option.some.inj hr
    rw [List.append_nil]
    exact h.pending t record (by rw [hpc]; rfl)
  | skip t record hpc hvalid =>
    have hconn : s.sink.isConnected = false := by
      have hfd : (s.sink.socketFd != -1) = true := bne_iff_ne.mpr h.fd
      rw [SocketSink.isValid, hfd, Bool.true_and] at hvalid
      exact hvalid
    refine h.move _ t _ (fun _ => h.holder t (by rw [hpc]; rfl)) (by simp)
      (by simp [LogPc.record?]) ?_
    intro hconn'
    rw [hconn] at hconn'
    exact absurd hconn' (by decide)
  | send t record hpc =>
    have hin : (s.pc t).inside = true := by rw [hpc]; rfl
    have hconn := h.sending t record hpc
    have hrec : record ∈ formattedRecords es := h.pending t record (by rw [hpc]; rfl)
    obtain ⟨k, -, hk, hwire, hconn', hfd⟩ :=
      SocketSink.sendLoop_spec record s.sink.attempts 0 s.sink (Nat.zero_le _)
    have hsub : formattedRecords es ⊆ formattedRecords (es ++ [LogEvent.wrote record]) := by
      simp [formattedRecords]
    refine ⟨hfd ▸ h.fd, ?_, ?_, ?_, ?_, (h.stream.send hconn hrec).mono hsub⟩
    · exact forall_goto (P := fun u pc => pc.inside = true → s.sinksMutex = some u)
        (fun _ => h.holder t hin) fun u _ => h.holder u
    · intro u r hu
      by_cases hut : u = t
      · subst hut
        rw [goto_self] at hu
        exact absurd hu (by simp)
      · -- another thread in the section would be this one
        rw [goto_ne hut] at hu
        exact absurd (h.exclusive hin (by rw [show s.pc u = _ from hu]; rfl)) hut
    · refine forall_goto
        (P := fun _ pc => ∀ r, pc.record? = some r → r ∈ formattedRecords (es ++ [.wrote record]))
        (fun r hr => ?_) fun u _ r hr => hsub (h.pending u r hr)
      exact absurd hr (by simp [LogPc.record?])
    · intro hstill
      have hfull : k = record.length := by
        have : (s.sink.isConnected && decide (k = record.length)) = true := hconn' ▸ hstill
        simpa [hconn] using this
      show (SocketSink.sendLoop record 0 s.sink s.sink.attempts).wire = _
      rw [hwire, h.whole hconn, hfull]
      simp [wroteRecords]
  | unlock t hpc =>
    have hin : (s.pc t).inside = true := by rw [hpc]; rfl
    have hmoved := h.move [] t .idle (by simp [LogPc.inside]) (by simp)
      (by simp [LogPc.record?]) (by simp)
    refine hmoved.setMutex none fun u hu => ?_
    by_cases hut : u = t
    · subst hut
      rw [goto_self] at hu
      exact absurd hu (by decide)
    · rw [goto_ne hut] at hu
      exact absurd (h.exclusive hin hu) hut

/-- A disconnected sink is never touched again. -/
theorem LogStep.disconnected {s s' : SharedLogger ι} {es fs : List LogEvent}
    (h : Integrity s es) (hstep : LogStep s s' fs) (hdis : s.sink.isConnected = false) :
    s'.sink = s.sink := by
  cases hstep with
  | send t record hpc =>
    have := h.sending t record hpc
    rw [hdis] at this
    exact absurd this (by decide)
  | quiet => rfl
  | format => rfl
  | lock => rfl
  | enter => rfl
  | skip => rfl
  | unlock => rfl

/-! ## Every interleaving -/

theorem run_integrity {s₀ s : SharedLogger ι} (h₀ : s₀.Fresh) {as : List (LogAction ι)}
    {es : List LogEvent} (h : (logMachine ι).run s₀ as = some (s, es)) : Integrity s es :=
  (logMachine ι).run_induction (P := fun _ s es => Integrity s es) (Integrity.init h₀)
    (fun _ _ _ _ _ _ _ hs hstep => (step_inv hstep).integrity hs) h

/-- From a disconnected sink on, no call sends another byte. -/
theorem run_disconnected {s₀ s s' : SharedLogger ι} (h₀ : s₀.Fresh) {as bs : List (LogAction ι)}
    {es fs : List LogEvent} (h : (logMachine ι).run s₀ as = some (s, es))
    (hdis : s.sink.isConnected = false) (h' : (logMachine ι).run s bs = some (s', fs)) :
    s'.sink = s.sink := by
  refine (logMachine ι).run_induction
    (P := fun bs s' fs => s'.sink = s.sink) rfl ?_ h'
  intro cs c u gs u' gs' hrun ih hstep
  have hint := run_integrity h₀ ((logMachine ι).run_append h hrun)
  rw [← ih]
  exact (step_inv hstep).disconnected hint (ih ▸ hdis)

/-- **Outgoing stream integrity.** In every interleaving of `log` calls and
for every script of `poll` and `send` results, the bytes the kernel has are
whole formatted records and then at most one proper prefix of one. When there
is such a prefix the sink is disconnected; a disconnected sink stays so and
nothing more is sent; and while it is connected the wire is exactly the
records of the completed writes. -/
theorem stream_integrity {s₀ s : SharedLogger ι} (h₀ : s₀.Fresh) {as : List (LogAction ι)}
    {es : List LogEvent} (h : (logMachine ι).run s₀ as = some (s, es)) :
    (∃ (records : List Bytes) (tail : Bytes), s.sink.wire = records.flatten ++ tail
        ∧ (∀ r ∈ records, r ∈ formattedRecords es)
        ∧ (tail ≠ [] → s.sink.isConnected = false
            ∧ ∃ r ∈ formattedRecords es, tail <+: r ∧ tail ≠ r))
      ∧ (s.sink.isConnected = false → ∀ bs s' fs, (logMachine ι).run s bs = some (s', fs) →
          s'.sink.isConnected = false ∧ s'.sink.wire = s.sink.wire)
      ∧ (s.sink.isConnected = true → s.sink.wire = (wroteRecords es).flatten) := by
  have hint := run_integrity h₀ h
  refine ⟨?_, ?_, hint.whole⟩
  · obtain ⟨records, tail, hwire, hrecords, htail⟩ := hint.stream
    exact ⟨records, tail, hwire, hrecords, fun hne => htail.resolve_left hne⟩
  · intro hdis bs s' fs h'
    have hsame := run_disconnected h₀ h hdis h'
    rw [hsame]
    exact ⟨hdis, rfl⟩

/-- Two threads: both pass the outer validity test, then the send of the first
is cut after three bytes. -/
def cutSchedule : List (LogAction Bool) :=
  [.call true (ascii "a") .info, .call false (ascii "b") .error, .advance true, .advance false,
    .advance true, .advance false, .format true [], .format false [], .advance true,
    .advance true, .advance true, .advance true, .advance false, .advance false]

theorem stream_integrity_cut :
    ∃ s es, (logMachine Bool).run (SharedLogger.start .info 5 [.sent 3, .failed]) cutSchedule
        = some (s, es)
      ∧ s.sink.wire = ascii "[] "
      ∧ ∀ bs s' fs, (logMachine Bool).run s bs = some (s', fs) → s'.sink.wire = s.sink.wire :=
  have h₀ : (SharedLogger.start (ι := Bool) .info 5 [.sent 3, .failed]).Fresh :=
    SharedLogger.start_fresh (by decide)
  ⟨_, _, rfl, by decide, fun bs s' fs h' =>
    ((stream_integrity h₀ (show (logMachine Bool).run _ cutSchedule = some (_, _) from rfl)).2.1
      rfl bs s' fs h').2⟩

/-! ## One thread alone -/

section Alone

variable {s : SharedLogger ι} {t : ι}

theorem goto_goto (pc pc' : LogPc) : (s.goto t pc).goto t pc' = s.goto t pc' := by
  simp [SharedLogger.goto]

theorem goto_eq_self (h : s.pc t = .idle) : s.goto t .idle = s := by
  simp [SharedLogger.goto, ← h]

/-- One step of thread `t`, from the place it is at. -/
theorem reaches_advance {pc : LogPc} {s' : SharedLogger ι} (es : List LogEvent)
    (h : (s.goto t pc).advance t = some (s', es)) : (logMachine ι).Reaches (s.goto t pc) s' :=
  Machine.Reaches.step _ (.advance t) es h

/-- From its lock on, `log` writes the record to the sink and is done. -/
theorem write_alone (t : ι) (record : Bytes) (hfree : s.sinksMutex = none) :
    (logMachine ι).Reaches (s.goto t (.lockSinks record))
      ({ s with sink := s.sink.write record }.goto t .idle) := by
  have hlock : (logMachine ι).Reaches (s.goto t (.lockSinks record))
      ({ s with sinksMutex := some t }.goto t (.sinkValid record)) :=
    reaches_advance [] (by simp [SharedLogger.advance, hfree, SharedLogger.goto])
  refine hlock.trans _ ?_
  cases hvalid : s.sink.isValid with
  | false =>
    have hskip : (logMachine ι).Reaches
        ({ s with sinksMutex := some t }.goto t (.sinkValid record))
        ({ s with sinksMutex := some t }.goto t .unlockSinks) :=
      reaches_advance [.wrote record]
        (by simp [SharedLogger.advance, hvalid, goto_goto])
    refine hskip.trans _ (reaches_advance [] ?_)
    simp [SharedLogger.advance, SocketSink.write, hvalid, SharedLogger.goto, hfree]
  | true =>
    have henter : (logMachine ι).Reaches
        ({ s with sinksMutex := some t }.goto t (.sinkValid record))
        ({ s with sinksMutex := some t }.goto t (.sinkSend record)) :=
      reaches_advance [] (by simp [SharedLogger.advance, hvalid, goto_goto])
    have hsend : (logMachine ι).Reaches
        ({ s with sinksMutex := some t }.goto t (.sinkSend record))
        ({ s with sink := s.sink.write record, sinksMutex := some t }.goto t .unlockSinks) :=
      reaches_advance [.wrote record]
        (by simp [SharedLogger.advance, SocketSink.write, hvalid, SharedLogger.goto])
    refine henter.trans _ (hsend.trans _ (reaches_advance [] ?_))
    simp [SharedLogger.advance, SharedLogger.goto, hfree]

/-- A thread that calls `log` and is not interrupted does what `Logger.log`
does to the logger's only sink, and leaves the rest as it was. -/
theorem log_alone (hidle : s.pc t = .idle) (hfree : s.sinksMutex = none)
    (timestamp message : Bytes) (level : LogLevel) :
    ∃ as sink es, (logMachine ι).run s (.call t message level :: as) = some ({ s with sink }, es)
      ∧ Logger.log timestamp message level { sinks := [s.sink], defaultLevel := s.defaultLevel }
        = { sinks := [sink], defaultLevel := s.defaultLevel } := by
  have hcall : (logMachine ι).step s (.call t message level)
      = some (s.goto t (.levelCheck message level), []) := by
    simp [logMachine, SharedLogger.step, hidle]
  have hback : s.goto t .idle = s := goto_eq_self hidle
  -- it is enough to bring the thread back from the top of `log`
  suffices h : ∃ sink,
      (logMachine ι).Reaches (s.goto t (.levelCheck message level)) { s with sink }
        ∧ Logger.log timestamp message level
          { sinks := [s.sink], defaultLevel := s.defaultLevel }
          = { sinks := [sink], defaultLevel := s.defaultLevel } by
    obtain ⟨sink, ⟨as, es, hrun⟩, hlog⟩ := h
    exact ⟨as, sink, _, (logMachine ι).run_cons hcall hrun, hlog⟩
  cases hbelow : Logger.isBelow level s.defaultLevel with
  | true =>
    have hdrop : (logMachine ι).Reaches (s.goto t (.levelCheck message level))
        (s.goto t .idle) :=
      reaches_advance [] (by simp [SharedLogger.advance, hbelow, SharedLogger.goto])
    rw [hback] at hdrop
    exact ⟨s.sink, hdrop, by simp [Logger.log, hbelow]⟩
  | false =>
    have hlevel : (logMachine ι).Reaches (s.goto t (.levelCheck message level))
        (s.goto t (.validCheck message level)) :=
      reaches_advance [] (by simp [SharedLogger.advance, hbelow, SharedLogger.goto])
    cases hvalid : s.sink.isValid with
    | false =>
      have hdrop : (logMachine ι).Reaches (s.goto t (.validCheck message level))
          (s.goto t .idle) :=
        reaches_advance [] (by simp [SharedLogger.advance, hvalid, hfree, goto_goto])
      rw [hback] at hdrop
      exact ⟨s.sink, hlevel.trans _ hdrop,
        by simp [Logger.log, hbelow, Logger.isValid, ILogSink.isValid, hvalid]⟩
    | true =>
      have hcheck : (logMachine ι).Reaches (s.goto t (.validCheck message level))
          (s.goto t (.format message level)) :=
        reaches_advance [] (by simp [SharedLogger.advance, hvalid, hfree, goto_goto])
      have hformat : (logMachine ι).Reaches (s.goto t (.format message level))
          (s.goto t (.lockSinks (formatMessage timestamp message level))) :=
        Machine.Reaches.step _ (.format t timestamp)
          [.formatted (formatMessage timestamp message level)]
          (by simp [logMachine, SharedLogger.step, goto_goto])
      have hwrite := write_alone t (formatMessage timestamp message level) hfree
      have hdone : ({ s with sink := s.sink.write (formatMessage timestamp message level) } :
          SharedLogger ι).goto t .idle
          = { s with sink := s.sink.write (formatMessage timestamp message level) } :=
        goto_eq_self hidle
      rw [hdone] at hwrite
      refine ⟨_, hlevel.trans _ (hcheck.trans _ (hformat.trans _ hwrite)), ?_⟩
      simp [Logger.log, hbelow, Logger.isValid, Logger.writeAll, ILogSink.isValid,
        ILogSink.write, hvalid]

end Alone

end LogMetrics.Logger
