import LogMetrics.MetricsApplication.ProcessorThreads
import LogMetrics.MetricsApplication.ServerLife

/-!
# `MetricsApplication`

`src/metrics_application/metrics_application.cpp`, and what `main` does behind
the check of its arguments: `create_application`, `run`, the destructors. The
main thread is in one of the two objects at a time. Inside the `SocketServer`
it goes from system call to system call (`ServerLife`), with what the call
returned as the action; inside `process_message` it is the receiver of
`ProcessorThreads`, against the timer that `run` has started.

`running_` of the processor is not atomic; here its accesses are.
-/

set_option linter.dupNamespace false

namespace LogMetrics.MetricsApplication

open LogMetrics.Base

/-- Where the main thread is. `destructor` tells `stop` in
`~MessageProcessor` from `stop` in `~MetricsApplication`. -/
inductive MainPc where
  | create
  | starting
  | abandon
  | run
  | serve
  | serving
  | processing
  | stop
  | stopProcessor (destructor : Bool)
  | joinTimer (destructor : Bool)
  | stopServer
  | destroyServer
  | returned (status : Int)
  deriving DecidableEq, Repr

/-- `MetricsApplication` and its threads. The callback of the server keeps the
payloads; the latest is handed to `process_message`. -/
structure MetricsApplication where
  server : ServerLife (List Bytes)
  threads : ProcessorThreads
  timerStarted : Bool
  isRunning : Bool
  main : MainPc

/-- A system call returns, the main thread goes on, the timer goes on, or time
passes. -/
inductive ApplicationAction where
  | result (call : LifeAction)
  | main
  | timer
  | tick (d : Nat)

inductive ApplicationEvent where
  | fd (event : FdEvent)
  | processor (event : ProcessorEvent)

/-- The result of a system call, not a call of the owner. -/
def LifeAction.isResult : LifeAction → Bool
  | .start => false
  | .run => false
  | .stop => false
  | .destroy => false
  | .callbackReturns => false
  | _ => true

/-- `set_message_callback`. -/
def ServerLife.setMessageCallback {ω : Type} (callback : Bytes → ω → ω) (l : ServerLife ω) :
    ServerLife ω :=
  { l with server := { l.server with messageCallback := some callback } }

/-- `MessageProcessor::start`; the timer starts in its loop. -/
def ProcessorThreads.start (s : ProcessorThreads) : ProcessorThreads :=
  { s with processor := s.processor.start s.clock }

namespace MetricsApplication

/-- The main thread acts on the server, and goes to `pc`. -/
def stepServer (s : MetricsApplication) (call : LifeAction) (pc : MainPc) :
    Option (MetricsApplication × List ApplicationEvent) :=
  match s.server.step call with
  | none => none
  | some (server, es) => some ({ s with server, main := pc }, es.map .fd)

/-- A thread acts on the processor, or time passes, and the main thread goes
to `pc`. -/
def stepThreads (s : MetricsApplication) (a : ProcessorAction) (pc : MainPc) :
    Option (MetricsApplication × List ApplicationEvent) :=
  match s.threads.step a with
  | none => none
  | some (threads, es) => some ({ s with threads, main := pc }, es.map .processor)

/-- Behind `MessageProcessor::stop`. -/
def afterStop (destructor : Bool) : MainPc := if destructor then .destroyServer else .stopServer

/-- One step of the main thread outside the system calls: `create_application`,
`run`, `~MetricsApplication`, and the destructors of the two members. -/
def stepMain (s : MetricsApplication) : Option (MetricsApplication × List ApplicationEvent) :=
  match s.main with
  | .create => s.stepServer .start .starting
  | .starting =>
    -- `start` has returned
    match s.server.place with
    | .idle => some ({ s with main := if s.server.server.running then .run else .abandon }, [])
    | _ => none
  | .abandon => s.stepServer .destroy (.returned 1)
  | .run =>
    some ({ s with
      isRunning := true
      server := s.server.setMessageCallback recordPayload
      threads := s.threads.start
      timerStarted := true
      main := .serve }, [])
  | .serve => s.stepServer .run .serving
  | .serving =>
    match s.server.place with
    | .idle => some ({ s with main := .stop }, [])
    | .callback _ _ =>
      match s.server.world.getLast? with
      | some payload => s.stepThreads (.receive payload) .processing
      | none => none
    | _ => none
  | .processing =>
    match s.threads.receiver with
    | .idle => s.stepServer .callbackReturns .serving
    | _ => s.stepThreads .receiver .processing
  | .stop =>
    if s.isRunning then some ({ s with isRunning := false, main := .stopProcessor false }, [])
    else some ({ s with main := .stopProcessor true }, [])
  | .stopProcessor destructor =>
    if s.threads.processor.running then s.stepThreads .stop (.joinTimer destructor)
    else some ({ s with main := afterStop destructor }, [])
  | .joinTimer destructor =>
    match s.threads.timer with
    | .done => some ({ s with main := afterStop destructor }, [])
    | _ => none
  | .stopServer => s.stepServer .stop (.stopProcessor true)
  | .destroyServer => s.stepServer .destroy (.returned 0)
  | .returned _ => none

/-- The main thread is in a system call of the server. -/
def inServer (s : MetricsApplication) : Bool :=
  match s.main with
  | .starting => true
  | .serving => true
  | _ => false

def step (s : MetricsApplication) :
    ApplicationAction → Option (MetricsApplication × List ApplicationEvent)
  | .result call => if s.inServer && call.isResult then s.stepServer call s.main else none
  | .main => s.stepMain
  | .timer => if s.timerStarted then s.stepThreads .timer s.main else none
  | .tick d => s.stepThreads (.tick d) s.main

/-- The two objects are constructed. -/
def created (messageInterval : Nat) (timeoutSeconds : Int) (now : TimePoint) :
    MetricsApplication where
  server := .construct none []
  threads := { processor := .create messageInterval timeoutSeconds now
               clock := now
               receiver := .idle
               timer := .loop }
  timerStarted := false
  isRunning := false
  main := .create

end MetricsApplication

/-- The application as a machine. -/
def metricsMachine : Machine MetricsApplication ApplicationAction ApplicationEvent :=
  ⟨MetricsApplication.step⟩

/-! ## What a step can do -/

open MetricsApplication (afterStop)

/-- What the main thread asks of the server, and where it goes. -/
inductive ServerCall (s : MetricsApplication) : LifeAction → MainPc → Prop
  | start (hpc : s.main = .create) : ServerCall s .start .starting
  | abandon (hpc : s.main = .abandon) : ServerCall s .destroy (.returned 1)
  | serve (hpc : s.main = .serve) : ServerCall s .run .serving
  | processed (hpc : s.main = .processing) (hidle : s.threads.receiver = .idle) :
      ServerCall s .callbackReturns .serving
  | stop (hpc : s.main = .stopServer) : ServerCall s .stop (.stopProcessor true)
  | destroy (hpc : s.main = .destroyServer) : ServerCall s .destroy (.returned 0)

/-- What the threads do on the processor, and where the main thread goes. -/
inductive ThreadsMove (s : MetricsApplication) : ApplicationAction → ProcessorAction → MainPc → Prop
  | tick (d : Nat) : ThreadsMove s (.tick d) (.tick d) s.main
  | timer (hstarted : s.timerStarted = true) : ThreadsMove s .timer .timer s.main
  | receive (pollFd : Int) (hangup : Bool) (payload : Bytes) (hpc : s.main = .serving)
      (hplace : s.server.place = .callback pollFd hangup)
      (hlast : s.server.world.getLast? = some payload) :
      ThreadsMove s .main (.receive payload) .processing
  | receiver (hpc : s.main = .processing) : ThreadsMove s .main .receiver .processing
  | stop (destructor : Bool) (hpc : s.main = .stopProcessor destructor)
      (hrunning : s.threads.processor.running = true) :
      ThreadsMove s .main .stop (.joinTimer destructor)

/-- The steps of the main thread that touch neither object. -/
inductive OwnMove (s : MetricsApplication) : Bool → MainPc → Prop
  | started (hpc : s.main = .starting) (hplace : s.server.place = .idle)
      (hrunning : s.server.server.running = true) : OwnMove s s.isRunning .run
  | failed (hpc : s.main = .starting) (hplace : s.server.place = .idle) :
      OwnMove s s.isRunning .abandon
  | left (hpc : s.main = .serving) (hplace : s.server.place = .idle) : OwnMove s s.isRunning .stop
  | stop (hpc : s.main = .stop) (hrunning : s.isRunning = true) :
      OwnMove s false (.stopProcessor false)
  | skip (hpc : s.main = .stop) (hstopped : s.isRunning = false) :
      OwnMove s s.isRunning (.stopProcessor true)
  | stopped (destructor : Bool) (hpc : s.main = .stopProcessor destructor)
      (hstopped : s.threads.processor.running = false) :
      OwnMove s s.isRunning (afterStop destructor)
  | joined (destructor : Bool) (hpc : s.main = .joinTimer destructor)
      (hdone : s.threads.timer = .done) : OwnMove s s.isRunning (afterStop destructor)

/-- The steps, by the object they act on. -/
inductive ApplicationStep (s : MetricsApplication) :
    ApplicationAction → MetricsApplication → List ApplicationEvent → Prop
  | result (call : LifeAction) (server : ServerLife (List Bytes)) (es : List FdEvent)
      (hresult : call.isResult = true) (hin : s.main = .starting ∨ s.main = .serving)
      (hstep : s.server.step call = some (server, es)) :
      ApplicationStep s (.result call) { s with server, main := s.main } (es.map .fd)
  | server (call : LifeAction) (pc : MainPc) (server : ServerLife (List Bytes))
      (es : List FdEvent) (hcall : ServerCall s call pc)
      (hstep : s.server.step call = some (server, es)) :
      ApplicationStep s .main { s with server, main := pc } (es.map .fd)
  | threads (a : ApplicationAction) (action : ProcessorAction) (pc : MainPc)
      (threads : ProcessorThreads) (es : List ProcessorEvent) (hmove : ThreadsMove s a action pc)
      (hstep : s.threads.step action = some (threads, es)) :
      ApplicationStep s a { s with threads, main := pc } (es.map .processor)
  | own (isRunning : Bool) (pc : MainPc) (hmove : OwnMove s isRunning pc) :
      ApplicationStep s .main { s with isRunning, main := pc } []
  | run (hpc : s.main = .run) :
      ApplicationStep s .main { s with
        isRunning := true
        server := s.server.setMessageCallback recordPayload
        threads := s.threads.start
        timerStarted := true
        main := .serve } []

section Inversion

variable {s s' : MetricsApplication} {es : List ApplicationEvent} {pc : MainPc}

theorem stepServer_inv {call : LifeAction} (hcall : ServerCall s call pc)
    (h : s.stepServer call pc = some (s', es)) : ApplicationStep s .main s' es := by
  unfold MetricsApplication.stepServer at h
  split at h
  next => exact absurd h (by simp)
  next server fs hstep => cases h; exact .server call pc server fs hcall hstep

theorem stepThreads_inv {a : ApplicationAction} {action : ProcessorAction}
    (hmove : ThreadsMove s a action pc) (h : s.stepThreads action pc = some (s', es)) :
    ApplicationStep s a s' es := by
  unfold MetricsApplication.stepThreads at h
  split at h
  next => exact absurd h (by simp)
  next threads fs hstep =>
    cases h
    exact .threads a action pc threads fs hmove hstep

theorem stepMain_inv (h : s.stepMain = some (s', es)) : ApplicationStep s .main s' es := by
  unfold MetricsApplication.stepMain at h
  split at h
  next hpc => exact stepServer_inv (.start hpc) h
  next hpc =>
    split at h
    next hplace =>
      by_cases hrunning : s.server.server.running = true
      · rw [if_pos hrunning] at h
        cases h
        exact .own _ _ (.started hpc hplace hrunning)
      · rw [if_neg hrunning] at h
        cases h
        exact .own _ _ (.failed hpc hplace)
    next => exact absurd h (by simp)
  next hpc => exact stepServer_inv (.abandon hpc) h
  next hpc => cases h; exact .run hpc
  next hpc => exact stepServer_inv (.serve hpc) h
  next hpc =>
    split at h
    next hplace => cases h; exact .own _ _ (.left hpc hplace)
    next pollFd hangup hplace =>
      split at h
      next payload hlast =>
        exact stepThreads_inv (.receive pollFd hangup payload hpc hplace hlast) h
      next => exact absurd h (by simp)
    next => exact absurd h (by simp)
  next hpc =>
    split at h
    next hidle => exact stepServer_inv (.processed hpc hidle) h
    next => exact stepThreads_inv (.receiver hpc) h
  next hpc =>
    split at h
    next hrunning => cases h; exact .own _ _ (.stop hpc hrunning)
    next hstopped => cases h; exact .own _ _ (.skip hpc (by simpa using hstopped))
  next destructor hpc =>
    split at h
    next hrunning => exact stepThreads_inv (.stop destructor hpc hrunning) h
    next hstopped => cases h; exact .own _ _ (.stopped destructor hpc (by simpa using hstopped))
  next destructor hpc =>
    split at h
    next hdone => cases h; exact .own _ _ (.joined destructor hpc hdone)
    next => exact absurd h (by simp)
  next hpc => exact stepServer_inv (.stop hpc) h
  next hpc => exact stepServer_inv (.destroy hpc) h
  next => exact absurd h (by simp)

theorem applicationStep_inv {a : ApplicationAction}
    (h : metricsMachine.step s a = some (s', es)) : ApplicationStep s a s' es := by
  replace h : s.step a = some (s', es) := h
  unfold MetricsApplication.step at h
  split at h
  next call =>
    split at h
    next hin =>
      rw [Bool.and_eq_true] at hin
      have hpc : s.main = .starting ∨ s.main = .serving := by
        have hserver := hin.1
        unfold MetricsApplication.inServer at hserver
        split at hserver
        next hpc => exact .inl hpc
        next hpc => exact .inr hpc
        next => exact absurd hserver (by simp)
      unfold MetricsApplication.stepServer at h
      split at h
      next => exact absurd h (by simp)
      next server fs hstep => cases h; exact .result call server fs hin.2 hpc hstep
    next => exact absurd h (by simp)
  next => exact stepMain_inv h
  next =>
    split at h
    next hstarted => exact stepThreads_inv (.timer hstarted) h
    next => exact absurd h (by simp)
  next d => exact stepThreads_inv (.tick d) h

end Inversion

end LogMetrics.MetricsApplication
