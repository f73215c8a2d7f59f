import LogMetrics.Base.Progress
import LogMetrics.MetricsApplication.MetricsApplication

/-!
# The metrics application from its first call to its exit

Every run of the application goes through the same phases, whatever the
system calls return: `start` fails and the server is destroyed with exit
status 1, or the timer is started, `SocketServer::run` comes to its end, the
timer is told to stop and joined, and the server is destroyed, with status 0
(`PhaseOk`). So each descriptor is closed once and none is used behind its
close, no message is processed unless the processor runs, and no thread is
left behind (`application_owns`).

The timer spins without a pause, so nothing bounds what it does while
`running_` is set. From the store that clears it on it has at most six steps,
and the main thread five: the join cannot wait forever
(`application_ends`).
-/

set_option linter.dupNamespace false

namespace LogMetrics.MetricsApplication

open LogMetrics.Base
open MetricsApplication (afterStop)

/-! ## Places of the server -/

/-- The thread is in `start`, or behind it. -/
def Place.inStart : Place → Bool
  | .poll _ => false
  | .recv _ _ => false
  | .callback _ _ => false
  | .destroyed => false
  | _ => true

/-- The thread is in `run`, or behind it. -/
def Place.inRun : Place → Bool
  | .idle => true
  | .poll _ => true
  | .recv _ _ => true
  | .callback _ _ => true
  | _ => false

section Places

variable {ω : Type} {l : ServerLife ω} {call : LifeAction} {r : ServerLife ω × List FdEvent}

theorem loop_inRun (l : ServerLife ω) (pollFd : Int) : (l.loop pollFd).1.place.inRun = true := by
  unfold ServerLife.loop
  split
  · rfl
  · rfl

theorem endTurn_inRun (l : ServerLife ω) (pollFd : Int) (hangup : Bool) :
    (l.endTurn pollFd hangup).1.place.inRun = true := by
  unfold ServerLife.endTurn
  split
  · rfl
  · exact loop_inRun l pollFd

theorem stopTurn_inRun (l : ServerLife ω) (pollFd : Int) (hangup : Bool) :
    (l.stopTurn pollFd hangup).1.place.inRun = true := by
  rw [stopTurn_eq]
  rfl

theorem afterPoll_inRun (l : ServerLife ω) (pollFd pollResult : Int)
    (interrupted pollin hangup : Bool) :
    (l.afterPoll pollFd pollResult interrupted pollin hangup).1.place.inRun = true := by
  unfold ServerLife.afterPoll
  split
  · split
    · exact loop_inRun l pollFd
    · rfl
  · split
    · exact loop_inRun l pollFd
    · split
      · rfl
      · exact endTurn_inRun l pollFd hangup

theorem afterRecv_inRun {pollFd : Int} {hangup : Bool} (hplace : l.place = .recv pollFd hangup)
    (result : RecvResult) : (l.afterRecv pollFd hangup result).1.place.inRun = true := by
  cases result with
  | data chunk =>
    show l.place.inRun = true
    rw [hplace]
    rfl
  | again =>
    unfold ServerLife.afterRecv
    dsimp only
    split
    · exact endTurn_inRun l pollFd hangup
    · split
      · rfl
      · exact endTurn_inRun _ pollFd hangup
  | closed => exact stopTurn_inRun l pollFd hangup
  | error => exact stopTurn_inRun l pollFd hangup

/-- The system calls of `start` stay in `start`, and those of `run` in `run`. -/
theorem result_place (hresult : call.isResult = true) (h : l.step call = some r) :
    (l.place.inStart = true → r.1.place.inStart = true)
      ∧ (l.place.inRun = true → r.1.place.inRun = true) := by
  have hinit {q : ServerLife ω × List FdEvent} (hq : q.1.place.inStart = true)
      (hplace : l.place.inRun = false) :
      (l.place.inStart = true → q.1.place.inStart = true)
        ∧ (l.place.inRun = true → q.1.place.inRun = true) :=
    ⟨fun _ => hq, fun hin => absurd (hplace.symm.trans hin) (by decide)⟩
  have hrun {q : ServerLife ω × List FdEvent} (hq : q.1.place.inRun = true)
      (hplace : l.place.inStart = false) :
      (l.place.inStart = true → q.1.place.inStart = true)
        ∧ (l.place.inRun = true → q.1.place.inRun = true) :=
    ⟨fun hin => absurd (hplace.symm.trans hin) (by decide), fun _ => hq⟩
  unfold ServerLife.step at h
  split at h
  next => exact absurd hresult (by decide)
  next => exact absurd hresult (by decide)
  next => exact absurd hresult (by decide)
  next => exact absurd hresult (by decide)
  next fd hplace =>
    cases h
    refine hinit ?_ (by rw [hplace]; rfl)
    unfold ServerLife.afterSocket
    split <;> rfl
  next result hplace =>
    cases h
    refine hinit ?_ (by rw [hplace]; rfl)
    unfold ServerLife.afterSetsockopt
    split <;> rfl
  next result hplace =>
    cases h
    refine hinit ?_ (by rw [hplace]; rfl)
    unfold ServerLife.afterInetPton
    split <;> rfl
  next result hplace =>
    cases h
    refine hinit ?_ (by rw [hplace]; rfl)
    unfold ServerLife.afterBind
    split <;> rfl
  next result hplace =>
    cases h
    refine hinit ?_ (by rw [hplace]; rfl)
    unfold ServerLife.afterListen
    split <;> rfl
  next fd hplace =>
    cases h
    refine hinit ?_ (by rw [hplace]; rfl)
    unfold ServerLife.afterAccept
    split <;> rfl
  next flags hplace =>
    cases h
    refine hinit ?_ (by rw [hplace]; rfl)
    unfold ServerLife.afterGetFlags
    split <;> rfl
  next result hplace =>
    cases h
    refine hinit ?_ (by rw [hplace]; rfl)
    unfold ServerLife.afterSetFlags
    split <;> rfl
  next pollFd pollResult interrupted pollin hangup hplace =>
    cases h
    exact hrun (afterPoll_inRun l pollFd pollResult interrupted pollin hangup)
      (by rw [hplace]; rfl)
  next pollFd hangup result hplace =>
    cases h
    exact hrun (afterRecv_inRun hplace result) (by rw [hplace]; rfl)
  next => exact absurd hresult (by decide)
  next => exact absurd hresult (by decide)
  next => exact absurd h (by simp)

end Places

/-! ## Steps of the two threads -/

section Threads

variable {t t' : ProcessorThreads} {es : List ProcessorEvent}

theorem threadsStep_inv {a : ProcessorAction} (h : t.step a = some (t', es)) :
    ProcessorStep t a t' es := processorStep_inv h

/-- The timer ends only when it finds that it has been stopped. -/
theorem timer_step (h : t.step .timer = some (t', es)) :
    t'.processor.running = t.processor.running ∧ t'.receiver = t.receiver ∧ t.timer ≠ .done
      ∧ (t'.timer = .done → t.processor.running = false) := by
  have hput := t.processor.putStats_spec t.clock
  replace h : t.stepTimer = some (t', es) := h
  unfold ProcessorThreads.stepTimer at h
  split at h
  next hpc =>
    split at h
    next => cases h; exact ⟨rfl, rfl, by simp [hpc], by simp⟩
    next hstopped => cases h; exact ⟨rfl, rfl, by simp [hpc], fun _ => by simpa using hstopped⟩
  next hpc => cases h; exact ⟨rfl, rfl, by simp [hpc], by simp⟩
  next now hpc =>
    split at h
    next => cases h; exact ⟨rfl, rfl, by simp [hpc], by simp⟩
    next => cases h; exact ⟨rfl, rfl, by simp [hpc], by simp⟩
  next now hpc =>
    split at h
    next => cases h; exact ⟨rfl, rfl, by simp [hpc], by simp⟩
    next => cases h; exact ⟨rfl, rfl, by simp [hpc], by simp⟩
  next now hpc => cases h; exact ⟨hput.2.2.2.2.1, rfl, by simp [hpc], by simp⟩
  next now hpc => cases h; exact ⟨rfl, rfl, by simp [hpc], by simp⟩
  next => exact absurd h (by simp)

theorem receiver_step (h : t.step .receiver = some (t', es)) :
    t'.processor.running = t.processor.running ∧ t'.timer = t.timer := by
  have hput := t.processor.putStats_spec t.clock
  cases threadsStep_inv h with
  | receiverMove pc hmove => exact ⟨rfl, rfl⟩
  | add message level hpc => exact ⟨rfl, rfl⟩
  | writeReset now hpc => exact ⟨rfl, rfl⟩
  | receiverPut hpc => exact ⟨hput.2.2.2.2.1, rfl⟩
  | writeFinished now hpc => exact ⟨rfl, rfl⟩

theorem receive_step {payload : Bytes} (h : t.step (.receive payload) = some (t', es)) :
    t'.processor.running = t.processor.running ∧ t'.timer = t.timer := by
  cases threadsStep_inv h with
  | reject _ text hpc hparse => exact ⟨rfl, rfl⟩
  | accept _ message level hpc hparse => exact ⟨rfl, rfl⟩

theorem stop_step (h : t.step .stop = some (t', es)) :
    t'.processor.running = false ∧ t'.timer = t.timer ∧ t'.receiver = t.receiver := by
  cases threadsStep_inv h with
  | stop hpc =>
    refine ⟨?_, rfl, rfl⟩
    unfold MessageProcessor.stop
    split
    next hstopped => simpa using hstopped
    next => rfl

end Threads

/-! ## The phases -/

namespace MetricsApplication

/-- The timer was not started. -/
def Unstarted (s : MetricsApplication) : Prop :=
  s.timerStarted = false ∧ s.isRunning = false ∧ s.threads.processor.running = false

/-- The timer was started and not yet told to stop. -/
def Started (s : MetricsApplication) : Prop :=
  s.timerStarted = true ∧ s.isRunning = true ∧ s.threads.processor.running = true

/-- The timer was started and has ended. -/
def Joined (s : MetricsApplication) : Prop :=
  s.timerStarted = true ∧ s.threads.processor.running = false ∧ s.threads.timer = .done

/-- What the place of the main thread says about the two objects. -/
def PhaseOk (s : MetricsApplication) : Prop :=
  match s.main with
  | .create => s.server.place = .idle ∧ s.server.startCalled = false ∧ s.Unstarted
  | .starting => s.server.place.inStart = true ∧ s.Unstarted
  | .abandon => s.server.place = .idle ∧ s.Unstarted
  | .run => s.server.place = .idle ∧ s.Unstarted
  | .serve => s.server.place = .idle ∧ s.Started
  | .serving => s.server.place.inRun = true ∧ s.Started
  | .processing => (∃ pollFd hangup, s.server.place = .callback pollFd hangup) ∧ s.Started
  | .stop => s.server.place = .idle ∧ s.Started
  | .stopProcessor false =>
    s.server.place = .idle ∧ s.timerStarted = true ∧ s.threads.processor.running = true
  | .joinTimer false =>
    s.server.place = .idle ∧ s.timerStarted = true ∧ s.threads.processor.running = false
  | .stopServer => s.server.place = .idle ∧ s.Joined
  | .stopProcessor true => s.server.place = .idle ∧ s.Joined
  | .joinTimer true => False
  | .destroyServer => s.server.place = .idle ∧ s.Joined
  | .returned status =>
    s.server.place = .destroyed ∧ (status = 1 ∧ s.Unstarted ∨ status = 0 ∧ s.Joined)

end MetricsApplication

structure ApplicationInv (s : MetricsApplication) : Prop where
  life : LifeInv s.server
  phase : s.PhaseOk
  receiver : s.main ≠ .processing → s.threads.receiver = .idle
  fresh : s.timerStarted = false → s.threads.timer = .loop
  left : s.threads.timer = .done → s.threads.processor.running = false

variable {s s' : MetricsApplication}

/-- A step that leaves the main thread where it is, and a timer that has ended
as it is. -/
theorem phaseOk_of_same {threads : ProcessorThreads} (h : s.PhaseOk)
    (hrunning : threads.processor.running = s.threads.processor.running)
    (htimer : s.threads.timer = .done → threads.timer = .done) :
    MetricsApplication.PhaseOk { s with threads, main := s.main } := by
  have hjoined : s.Joined → MetricsApplication.Joined { s with threads, main := s.main } :=
    fun hs => ⟨hs.1, hrunning.trans hs.2.1, htimer hs.2.2⟩
  have hunstarted : s.Unstarted →
      MetricsApplication.Unstarted { s with threads, main := s.main } :=
    fun hs => ⟨hs.1, hs.2.1, hrunning.trans hs.2.2⟩
  have hstarted : s.Started → MetricsApplication.Started { s with threads, main := s.main } :=
    fun hs => ⟨hs.1, hs.2.1, hrunning.trans hs.2.2⟩
  unfold MetricsApplication.PhaseOk at h ⊢
  dsimp only at h ⊢
  split at h
  next => exact ⟨h.1, h.2.1, hunstarted h.2.2⟩
  next => exact ⟨h.1, hunstarted h.2⟩
  next => exact ⟨h.1, hunstarted h.2⟩
  next => exact ⟨h.1, hunstarted h.2⟩
  next => exact ⟨h.1, hstarted h.2⟩
  next => exact ⟨h.1, hstarted h.2⟩
  next => exact ⟨h.1, hstarted h.2⟩
  next => exact ⟨h.1, hstarted h.2⟩
  next => exact ⟨h.1, h.2.1, hrunning.trans h.2.2⟩
  next => exact ⟨h.1, h.2.1, hrunning.trans h.2.2⟩
  next => exact ⟨h.1, hjoined h.2⟩
  next => exact ⟨h.1, hjoined h.2⟩
  next => exact h
  next => exact ⟨h.1, hjoined h.2⟩
  next => exact ⟨h.1, h.2.imp (And.imp_right hunstarted) (And.imp_right hjoined)⟩

/-- Of a running processor no thread can be joined, so there is no second stop
of it. -/
theorem resultStep_inv {call : LifeAction} {server : ServerLife (List Bytes)}
    {es : List FdEvent} (h : ApplicationInv s) (hresult : call.isResult = true)
    (hin : s.main = .starting ∨ s.main = .serving)
    (hstep : s.server.step call = some (server, es)) :
    ApplicationInv { s with server, main := s.main } := by
  have hphase := h.phase
  have hplace := result_place hresult hstep
  refine ⟨(step_keeps h.life hstep).inv, ?_, h.receiver, h.fresh, h.left⟩
  unfold MetricsApplication.PhaseOk at hphase ⊢
  dsimp only
  rcases hin with hpc | hpc
  · rw [hpc] at hphase ⊢
    exact ⟨hplace.1 hphase.1, hphase.2⟩
  · rw [hpc] at hphase ⊢
    exact ⟨hplace.2 hphase.1, hphase.2⟩

theorem serverCall_inv {call : LifeAction} {pc : MainPc} {server : ServerLife (List Bytes)}
    {es : List FdEvent} (h : ApplicationInv s) (hcall : ServerCall s call pc)
    (hstep : s.server.step call = some (server, es)) :
    ApplicationInv { s with server, main := pc } := by
  have hphase := h.phase
  have hlife := (step_keeps h.life hstep).inv
  have hreceiver := h.receiver
  unfold MetricsApplication.PhaseOk at hphase
  cases hcall with
  | start hpc =>
    rw [hpc] at hphase hreceiver
    refine ⟨hlife, ⟨?_, hphase.2.2⟩, fun _ => hreceiver (by simp), h.fresh, h.left⟩
    simp only [ServerLife.step, hphase.1, hphase.2.1] at hstep
    cases hstep
    rfl
  | abandon hpc =>
    rw [hpc] at hphase hreceiver
    refine ⟨hlife, ⟨?_, .inl ⟨rfl, hphase.2⟩⟩, fun _ => hreceiver (by simp), h.fresh, h.left⟩
    simp only [ServerLife.step, hphase.1] at hstep
    cases hstep
    rfl
  | serve hpc =>
    rw [hpc] at hphase hreceiver
    refine ⟨hlife, ⟨?_, hphase.2⟩, fun _ => hreceiver (by simp), h.fresh, h.left⟩
    simp only [ServerLife.step, hphase.1] at hstep
    have hin := loop_inRun s.server s.server.server.clientFd
    rwa [Option.some.inj hstep] at hin
  | processed hpc hidle =>
    rw [hpc] at hphase
    obtain ⟨⟨pollFd, hangup, hplace⟩, hstarted⟩ := hphase
    refine ⟨hlife, ⟨?_, hstarted⟩, fun _ => hidle, h.fresh, h.left⟩
    simp only [ServerLife.step, hplace] at hstep
    have hin : (s.server.afterCallback pollFd hangup).1.place.inRun = true :=
      endTurn_inRun _ pollFd hangup
    rwa [Option.some.inj hstep] at hin
  | stop hpc =>
    rw [hpc] at hphase hreceiver
    refine ⟨hlife, ⟨?_, hphase.2⟩, fun _ => hreceiver (by simp), h.fresh, h.left⟩
    simp only [ServerLife.step, hphase.1] at hstep
    cases hstep
    exact hphase.1
  | destroy hpc =>
    rw [hpc] at hphase hreceiver
    refine ⟨hlife, ⟨?_, .inr ⟨rfl, hphase.2⟩⟩, fun _ => hreceiver (by simp), h.fresh, h.left⟩
    simp only [ServerLife.step, hphase.1] at hstep
    cases hstep
    rfl

theorem threadsMove_inv {a : ApplicationAction} {action : ProcessorAction} {pc : MainPc}
    {threads : ProcessorThreads} {es : List ProcessorEvent} (h : ApplicationInv s)
    (hmove : ThreadsMove s a action pc) (hstep : s.threads.step action = some (threads, es)) :
    ApplicationInv { s with threads, main := pc } := by
  have hphase := h.phase
  cases hmove with
  | tick d =>
    cases threadsStep_inv hstep with
    | tick d => exact ⟨h.life, phaseOk_of_same hphase rfl id, h.receiver, h.fresh, h.left⟩
  | timer hstarted =>
    obtain ⟨hrunning, hreceiver, hbusy, hleft⟩ := timer_step hstep
    refine ⟨h.life, phaseOk_of_same hphase hrunning fun hdone => absurd hdone hbusy,
      fun hpc => hreceiver.trans (h.receiver hpc), fun hnew => ?_, fun hdone => ?_⟩
    · exact absurd (hstarted.symm.trans hnew) (by decide)
    · exact hrunning.trans (hleft hdone)
  | receive pollFd hangup payload hpc hplace hlast =>
    obtain ⟨hrunning, htimer⟩ := receive_step hstep
    unfold MetricsApplication.PhaseOk at hphase
    rw [hpc] at hphase
    obtain ⟨-, hstarted, hisRunning, hproc⟩ := hphase
    refine ⟨h.life, ⟨⟨pollFd, hangup, hplace⟩, hstarted, hisRunning, hrunning.trans hproc⟩,
      fun hne => absurd rfl hne, fun hnew => htimer.trans (h.fresh hnew), fun hdone => ?_⟩
    exact hrunning.trans (h.left (htimer.symm.trans hdone))
  | receiver hpc =>
    obtain ⟨hrunning, htimer⟩ := receiver_step hstep
    unfold MetricsApplication.PhaseOk at hphase
    rw [hpc] at hphase
    obtain ⟨hplace, hstarted, hisRunning, hproc⟩ := hphase
    refine ⟨h.life, ⟨hplace, hstarted, hisRunning, hrunning.trans hproc⟩,
      fun hne => absurd rfl hne, fun hnew => htimer.trans (h.fresh hnew), fun hdone => ?_⟩
    exact hrunning.trans (h.left (htimer.symm.trans hdone))
  | stop destructor hpc hproc =>
    obtain ⟨hstopped, htimer, hreceiver⟩ := stop_step hstep
    unfold MetricsApplication.PhaseOk at hphase
    rw [hpc] at hphase
    cases destructor with
    | true => exact absurd (hproc.symm.trans hphase.2.2.1) (by decide)
    | false =>
      refine ⟨h.life, ⟨hphase.1, hphase.2.1, hstopped⟩, fun _ => ?_,
        fun hnew => htimer.trans (h.fresh hnew), fun _ => hstopped⟩
      exact hreceiver.trans (h.receiver (by simp [hpc]))

theorem ownMove_inv {isRunning : Bool} {pc : MainPc} (h : ApplicationInv s)
    (hmove : OwnMove s isRunning pc) : ApplicationInv { s with isRunning, main := pc } := by
  have hphase := h.phase
  have hreceiver := h.receiver
  unfold MetricsApplication.PhaseOk at hphase
  cases hmove with
  | started hpc hplace hrunning =>
    rw [hpc] at hphase hreceiver
    exact ⟨h.life, ⟨hplace, hphase.2⟩, fun _ => hreceiver (by simp), h.fresh, h.left⟩
  | failed hpc hplace =>
    rw [hpc] at hphase hreceiver
    exact ⟨h.life, ⟨hplace, hphase.2⟩, fun _ => hreceiver (by simp), h.fresh, h.left⟩
  | left hpc hplace =>
    rw [hpc] at hphase hreceiver
    exact ⟨h.life, ⟨hplace, hphase.2⟩, fun _ => hreceiver (by simp), h.fresh, h.left⟩
  | stop hpc hrunning =>
    rw [hpc] at hphase hreceiver
    obtain ⟨hplace, hstarted, -, hproc⟩ := hphase
    exact ⟨h.life, ⟨hplace, hstarted, hproc⟩, fun _ => hreceiver (by simp), h.fresh, h.left⟩
  | skip hpc hstopped =>
    rw [hpc] at hphase
    exact absurd (hstopped.symm.trans hphase.2.2.1) (by decide)
  | stopped destructor hpc hstopped =>
    rw [hpc] at hphase hreceiver
    cases destructor with
    | true => exact ⟨h.life, hphase, fun _ => hreceiver (by simp), h.fresh, h.left⟩
    | false => exact absurd (hstopped.symm.trans hphase.2.2) (by decide)
  | joined destructor hpc hdone =>
    rw [hpc] at hphase hreceiver
    cases destructor with
    | true => exact hphase.elim
    | false =>
      exact ⟨h.life, ⟨hphase.1, hphase.2.1, hphase.2.2, hdone⟩, fun _ => hreceiver (by simp),
        h.fresh, h.left⟩

theorem step_applicationInv {a : ApplicationAction} {es : List ApplicationEvent}
    (h : ApplicationInv s) (hstep : ApplicationStep s a s' es) : ApplicationInv s' := by
  cases hstep with
  | result call server es hresult hin hstep => exact resultStep_inv h hresult hin hstep
  | server call pc server es hcall hstep => exact serverCall_inv h hcall hstep
  | threads _ action pc threads es hmove hstep => exact threadsMove_inv h hmove hstep
  | own isRunning pc hmove => exact ownMove_inv h hmove
  | run hpc =>
    have hphase := h.phase
    have hreceiver := h.receiver
    unfold MetricsApplication.PhaseOk at hphase
    rw [hpc] at hphase hreceiver
    obtain ⟨hplace, hnew, -, hproc⟩ := hphase
    have hstart : (s.threads.processor.start s.threads.clock).running = true := by
      rw [MessageProcessor.start, if_neg (by simp [hproc])]
    refine ⟨⟨h.life.fits, h.life.unstarted, h.life.connected⟩, ⟨hplace, rfl, rfl, hstart⟩,
      fun _ => hreceiver (by simp), by simp, fun hdone => ?_⟩
    exact absurd ((h.fresh hnew).symm.trans hdone) (by simp)

/-! ## Descriptors and threads along every run -/

/-- What was done with descriptors. -/
def fdEvents (es : List ApplicationEvent) : List FdEvent :=
  es.filterMap fun
    | .fd event => some event
    | .processor _ => none

@[simp] theorem fdEvents_fd (es : List FdEvent) : fdEvents (es.map .fd) = es := by
  simp [fdEvents, List.filterMap_map]

@[simp] theorem fdEvents_processor (es : List ProcessorEvent) :
    fdEvents (es.map .processor) = [] := by
  simp [fdEvents, List.filterMap_map]

theorem fdEvents_append (es fs : List ApplicationEvent) :
    fdEvents (es ++ fs) = fdEvents es ++ fdEvents fs := List.filterMap_append

/-- A step does with descriptors what the server holds. -/
theorem step_legal {a : ApplicationAction} {es : List ApplicationEvent} (h : ApplicationInv s)
    (hstep : ApplicationStep s a s' es) :
    Legal (held s.server.server) (fdEvents es) (held s'.server.server) := by
  cases hstep with
  | result call server es hresult hin hstep =>
    rw [fdEvents_fd]
    exact (step_keeps h.life hstep).legal
  | server call pc server es hcall hstep =>
    rw [fdEvents_fd]
    exact (step_keeps h.life hstep).legal
  | threads _ action pc threads es hmove hstep =>
    rw [fdEvents_processor]
    exact .nil
  | own isRunning pc hmove => exact .nil
  | run hpc => exact .nil

theorem created_inv (messageInterval : Nat) (timeoutSeconds : Int) (now : TimePoint) :
    ApplicationInv (.created messageInterval timeoutSeconds now) :=
  ⟨lifeInv_construct none [], ⟨rfl, rfl, rfl, rfl, rfl⟩, fun _ => rfl, fun _ => rfl,
    fun hdone => absurd hdone (by simp [MetricsApplication.created])⟩

theorem run_applicationInv {messageInterval : Nat} {timeoutSeconds : Int} {now : TimePoint}
    {as : List ApplicationAction} {es : List ApplicationEvent}
    (hrun : metricsMachine.run (.created messageInterval timeoutSeconds now) as = some (s, es)) :
    ApplicationInv s ∧ Legal 0 (fdEvents es) (held s.server.server) := by
  refine metricsMachine.run_induction
    (P := fun _ s es => ApplicationInv s ∧ Legal 0 (fdEvents es) (held s.server.server))
    ⟨created_inv messageInterval timeoutSeconds now, .nil⟩ ?_ hrun
  intro as a s es s' es' _ hs hstep
  obtain ⟨hinv, hlegal⟩ := hs
  have hstep' := applicationStep_inv hstep
  rw [fdEvents_append]
  exact ⟨step_applicationInv hinv hstep', hlegal.append (step_legal hinv hstep')⟩

/-- A message is being processed only by a processor that runs. -/
theorem running_of_receiver (h : ApplicationInv s) (hbusy : s.threads.receiver ≠ .idle) :
    s.threads.processor.running = true := by
  have hphase := h.phase
  by_cases hpc : s.main = .processing
  · unfold MetricsApplication.PhaseOk at hphase
    rw [hpc] at hphase
    exact hphase.2.2.2
  · exact absurd (h.receiver hpc) hbusy

/-- **The application owns what it acquires.** Whatever the system calls
return and however the two threads are interleaved: descriptors are used and
closed only while they are open; a message is processed only while the
processor runs; and `main` returns 1, with no timer started, or 0, with the
timer joined, in both cases with every descriptor closed as often as it was
opened. -/
theorem application_owns (messageInterval : Nat) (timeoutSeconds : Int) (now : TimePoint)
    (as : List ApplicationAction) (s : MetricsApplication) (es : List ApplicationEvent)
    (hrun : metricsMachine.run (.created messageInterval timeoutSeconds now) as = some (s, es)) :
    (∀ pre op fd post, fdEvents es = pre ++ .use op fd :: post → releases fd pre < acquires fd pre)
      ∧ (∀ pre fd post, fdEvents es = pre ++ .release fd :: post →
        releases fd pre < acquires fd pre)
      ∧ (s.threads.receiver ≠ .idle → s.threads.processor.running = true)
      ∧ ∀ status, s.main = .returned status →
        (∀ fd, acquires fd (fdEvents es) = releases fd (fdEvents es))
          ∧ (status = 1 ∧ s.timerStarted = false
            ∨ status = 0 ∧ s.timerStarted = true ∧ s.threads.timer = .done) := by
  obtain ⟨hinv, hlegal⟩ := run_applicationInv hrun
  refine ⟨fun pre op fd post hsplit => hlegal.use_owned hsplit,
    fun pre fd post hsplit => hlegal.release_owned hsplit, running_of_receiver hinv,
    fun status hpc => ?_⟩
  have hphase := hinv.phase
  unfold MetricsApplication.PhaseOk at hphase
  rw [hpc] at hphase
  obtain ⟨hplace, hstatus⟩ := hphase
  have hfits := hinv.life.fits
  rw [ServerLife.Fits, hplace] at hfits
  rw [held_none hfits.2 hfits.1] at hlegal
  refine ⟨hlegal.all_released, hstatus.imp (fun h => ⟨h.1, h.2.1⟩) fun h => ?_⟩
  exact ⟨h.1, h.2.1, h.2.2.2⟩

/-! ## The end -/

/-- The server has stopped receiving: its `start` failed or its `run` has
returned. -/
def MainPc.closing : MainPc → Bool
  | .abandon => true
  | .stop => true
  | .stopProcessor _ => true
  | .joinTimer _ => true
  | .stopServer => true
  | .destroyServer => true
  | .returned _ => true
  | _ => false

/-- The steps the main thread has left. -/
def MainPc.left : MainPc → Nat
  | .stop => 7
  | .stopProcessor false => 6
  | .joinTimer false => 5
  | .stopServer => 4
  | .stopProcessor true => 3
  | .joinTimer true => 2
  | .destroyServer => 1
  | .abandon => 1
  | _ => 0

/-- The steps a timer that was told to stop has left. -/
def TimerPc.left : TimerPc → Nat
  | .readNow => 6
  | .readLast _ => 5
  | .checkChanged _ => 4
  | .put _ => 3
  | .writeLast _ => 2
  | .loop => 1
  | .done => 0

def ApplicationAction.isMain : ApplicationAction → Bool
  | .main => true
  | _ => false

/-- The main thread or the timer, and not the system or the clock. -/
def ApplicationAction.isOwn : ApplicationAction → Bool
  | .main => true
  | .timer => true
  | _ => false

/-- A step of the main thread towards the end. -/
theorem closing_main {es : List ApplicationEvent} (hclosing : s.main.closing = true)
    (h : ApplicationInv s) (hstep : ApplicationStep s .main s' es) :
    s'.main.closing = true ∧ s'.main.left < s.main.left ∧ s'.threads.timer = s.threads.timer
      ∧ (s.threads.processor.running = false → s'.threads.processor.running = false) := by
  have hphase := h.phase
  unfold MetricsApplication.PhaseOk at hphase
  cases hstep with
  | server call pc server es hcall hstep =>
    cases hcall with
    | start hpc => rw [hpc] at hclosing; exact absurd hclosing (by decide)
    | abandon hpc => rw [hpc]; exact ⟨rfl, by simp [MainPc.left], rfl, id⟩
    | serve hpc => rw [hpc] at hclosing; exact absurd hclosing (by decide)
    | processed hpc hidle => rw [hpc] at hclosing; exact absurd hclosing (by decide)
    | stop hpc => rw [hpc]; exact ⟨rfl, by simp [MainPc.left], rfl, id⟩
    | destroy hpc => rw [hpc]; exact ⟨rfl, by simp [MainPc.left], rfl, id⟩
  | threads _ action pc threads es hmove hstep =>
    cases hmove with
    | receive pollFd hangup payload hpc hplace hlast =>
      rw [hpc] at hclosing
      exact absurd hclosing (by decide)
    | receiver hpc =>
      rw [hpc] at hclosing
      exact absurd hclosing (by decide)
    | stop destructor hpc hrunning =>
      obtain ⟨hstopped, htimer, -⟩ := stop_step hstep
      rw [hpc]
      refine ⟨rfl, ?_, htimer, fun _ => hstopped⟩
      cases destructor with
      | true => simp [MainPc.left]
      | false => simp [MainPc.left]
  | own isRunning pc hmove =>
    cases hmove with
    | started hpc hplace hrunning => rw [hpc] at hclosing; exact absurd hclosing (by decide)
    | failed hpc hplace => rw [hpc] at hclosing; exact absurd hclosing (by decide)
    | left hpc hplace => rw [hpc] at hclosing; exact absurd hclosing (by decide)
    | stop hpc hrunning => rw [hpc]; exact ⟨rfl, by simp [MainPc.left], rfl, id⟩
    | skip hpc hstopped => rw [hpc]; exact ⟨rfl, by simp [MainPc.left], rfl, id⟩
    | stopped destructor hpc hstopped =>
      rw [hpc]
      cases destructor with
      | true => exact ⟨rfl, by simp [MainPc.left, afterStop], rfl, id⟩
      | false => exact ⟨rfl, by simp [MainPc.left, afterStop], rfl, id⟩
    | joined destructor hpc hdone =>
      rw [hpc]
      cases destructor with
      | true => exact ⟨rfl, by simp [MainPc.left, afterStop], rfl, id⟩
      | false => exact ⟨rfl, by simp [MainPc.left, afterStop], rfl, id⟩
  | run hpc => rw [hpc] at hclosing; exact absurd hclosing (by decide)

/-- A timer that was told to stop goes straight to its end. -/
theorem timer_left {t t' : ProcessorThreads} {es : List ProcessorEvent}
    (hstopped : t.processor.running = false) (h : t.step .timer = some (t', es)) :
    t'.timer.left < t.timer.left := by
  replace h : t.stepTimer = some (t', es) := h
  unfold ProcessorThreads.stepTimer at h
  split at h
  next hpc =>
    rw [if_neg (by simp [hstopped])] at h
    cases h
    rw [hpc]
    simp [TimerPc.left]
  next hpc => cases h; rw [hpc]; simp [TimerPc.left]
  next now hpc => split at h <;> cases h <;> rw [hpc] <;> simp [TimerPc.left]
  next now hpc => split at h <;> cases h <;> rw [hpc] <;> simp [TimerPc.left]
  next now hpc => cases h; rw [hpc]; simp [TimerPc.left]
  next now hpc => cases h; rw [hpc]; simp [TimerPc.left]
  next => exact absurd h (by simp)

/-- Another step leaves the main thread where it is. -/
theorem closing_other {a : ApplicationAction} {es : List ApplicationEvent}
    (hclosing : s.main.closing = true) (hstep : ApplicationStep s a s' es) (ha : a ≠ .main) :
    s'.main = s.main ∧ s'.threads.processor.running = s.threads.processor.running
      ∧ ((a ≠ .timer ∧ s'.threads.timer = s.threads.timer)
        ∨ ∃ fs, s.threads.step .timer = some (s'.threads, fs)) := by
  cases hstep with
  | result call server es hresult hin hstep =>
    rcases hin with hpc | hpc
    · rw [hpc] at hclosing
      exact absurd hclosing (by decide)
    · rw [hpc] at hclosing
      exact absurd hclosing (by decide)
  | server => exact absurd rfl ha
  | threads _ action pc threads es hmove hstep =>
    cases hmove with
    | tick d =>
      cases threadsStep_inv hstep with
      | tick d => exact ⟨rfl, rfl, .inl ⟨by simp, rfl⟩⟩
    | timer hstarted => exact ⟨rfl, (timer_step hstep).1, .inr ⟨es, hstep⟩⟩
    | receive => exact absurd rfl ha
    | receiver => exact absurd rfl ha
    | stop => exact absurd rfl ha
  | own => exact absurd rfl ha
  | run => exact absurd rfl ha

/-- A closing application. -/
def Closing (s : MetricsApplication) : Prop := ApplicationInv s ∧ s.main.closing = true

theorem closing_ranked :
    metricsMachine.Ranked Closing (fun s => s.main.left) (fun a => !a.isMain) 0 := by
  have hkeeps {s s' : MetricsApplication} {a : ApplicationAction} {es : List ApplicationEvent}
      (h : Closing s) (hstep : metricsMachine.step s a = some (s', es)) : Closing s' := by
    have hstep' := applicationStep_inv hstep
    refine ⟨step_applicationInv h.1 hstep', ?_⟩
    by_cases ha : a = .main
    · subst ha
      exact (closing_main h.2 h.1 hstep').1
    · rw [(closing_other h.2 hstep' ha).1]
      exact h.2
  refine ⟨hkeeps, fun {s a s' es} h hstep hown => ?_, fun {s a s' es} h hstep hfree => ?_⟩
  · cases a with
    | main => exact (closing_main h.2 h.1 (applicationStep_inv hstep)).2.1
    | _ => exact absurd hown (by simp [ApplicationAction.isMain])
  · have ha : a ≠ .main := by
      rintro rfl
      exact absurd hfree (by simp [ApplicationAction.isMain])
    rw [(closing_other h.2 (applicationStep_inv hstep) ha).1]
    exact Nat.le_refl _

/-- A closing application whose timer was told to stop, or never started. -/
def Stopping (s : MetricsApplication) : Prop :=
  Closing s ∧ s.threads.processor.running = false

theorem stopping_ranked :
    metricsMachine.Ranked Stopping (fun s => s.main.left + s.threads.timer.left)
      (fun a => !a.isOwn) 0 := by
  refine ⟨fun {s a s' es} h hstep => ?_, fun {s a s' es} h hstep hown => ?_,
    fun {s a s' es} h hstep hfree => ?_⟩
  · refine ⟨closing_ranked.keeps h.1 hstep, ?_⟩
    have hstep' := applicationStep_inv hstep
    by_cases ha : a = .main
    · subst ha
      exact (closing_main h.1.2 h.1.1 hstep').2.2.2 h.2
    · exact (closing_other h.1.2 hstep' ha).2.1.trans h.2
  · have hstep' := applicationStep_inv hstep
    by_cases ha : a = .main
    · subst ha
      obtain ⟨-, hless, htimer, -⟩ := closing_main h.1.2 h.1.1 hstep'
      rw [htimer]
      omega
    · obtain ⟨hmain, -, ⟨htimer, -⟩ | ⟨fs, htimer⟩⟩ := closing_other h.1.2 hstep' ha
      · cases a with
        | main => exact absurd rfl ha
        | timer => exact absurd rfl htimer
        | result call => exact absurd hown (by simp [ApplicationAction.isOwn])
        | tick d => exact absurd hown (by simp [ApplicationAction.isOwn])
      · have hless := timer_left h.2 htimer
        rw [hmain]
        omega
  · have ha : a ≠ .main := by
      rintro rfl
      exact absurd hfree (by simp [ApplicationAction.isOwn])
    obtain ⟨hmain, -, ⟨-, htimer⟩ | ⟨fs, htimer⟩⟩ :=
      closing_other h.1.2 (applicationStep_inv hstep) ha
    · rw [hmain, htimer]
      exact Nat.le_refl _
    · have hless := timer_left h.2 htimer
      rw [hmain]
      omega

/-- `main` has returned. -/
def Returned (s : MetricsApplication) : Prop := ∃ status, s.main = .returned status

/-- A timer that has been started and not ended can go on. -/
theorem timer_enabled {t : ProcessorThreads} (hbusy : t.timer ≠ .done) :
    ∃ t' es, t.step .timer = some (t', es) := by
  show ∃ t' es, t.stepTimer = some (t', es)
  unfold ProcessorThreads.stepTimer
  cases hpc : t.timer with
  | loop => by_cases hrunning : t.processor.running = true <;> simp [hrunning]
  | readNow => exact ⟨_, _, rfl⟩
  | readLast now =>
    dsimp only
    split
    · exact ⟨_, _, rfl⟩
    · exact ⟨_, _, rfl⟩
  | checkChanged now =>
    dsimp only
    split
    · exact ⟨_, _, rfl⟩
    · exact ⟨_, _, rfl⟩
  | put now => exact ⟨_, _, rfl⟩
  | writeLast now => exact ⟨_, _, rfl⟩
  | done => exact absurd hpc hbusy

theorem main_of_stepMain {r : MetricsApplication × List ApplicationEvent}
    (h : s.stepMain = some r) :
    ∃ a s' es, (!ApplicationAction.isOwn a) = false ∧ metricsMachine.step s a = some (s', es) :=
  ⟨.main, r.1, r.2, rfl, h⟩

/-- A call of the server that the main thread is about to make can be made. -/
theorem main_of_serverStep {call : LifeAction} (pc : MainPc)
    {r : ServerLife (List Bytes) × List FdEvent} (hmain : s.stepMain = s.stepServer call pc)
    (hstep : s.server.step call = some r) :
    ∃ a s' es, (!ApplicationAction.isOwn a) = false
      ∧ metricsMachine.step s a = some (s', es) := by
  refine main_of_stepMain (r := ({ s with server := r.1, main := pc }, r.2.map .fd)) ?_
  rw [hmain, MetricsApplication.stepServer, hstep]

theorem destroy_step {ω : Type} {l : ServerLife ω} (hplace : l.place = .idle) :
    l.step .destroy = some ({ l.stop.1 with place := .destroyed }, l.stop.2) := by
  simp [ServerLife.step, hplace]

/-- **The join is no deadlock.** -/
theorem stopping_progress (h : Stopping s) (hreturned : ¬Returned s) :
    ∃ a s' es, (!ApplicationAction.isOwn a) = false ∧ metricsMachine.step s a = some (s', es) := by
  obtain ⟨⟨hinv, hclosing⟩, hstopped⟩ := h
  have hphase := hinv.phase
  unfold MetricsApplication.PhaseOk at hphase
  cases hpc : s.main with
  | abandon =>
    rw [hpc] at hphase
    exact main_of_serverStep (.returned 1) (by simp [MetricsApplication.stepMain, hpc])
      (destroy_step hphase.1)
  | stop =>
    rw [hpc] at hphase
    exact absurd (hstopped.symm.trans hphase.2.2.2) (by decide)
  | stopProcessor destructor =>
    refine main_of_stepMain (r := ({ s with main := afterStop destructor }, [])) ?_
    simp [MetricsApplication.stepMain, hpc, hstopped]
  | joinTimer destructor =>
    by_cases hdone : s.threads.timer = .done
    · refine main_of_stepMain (r := ({ s with main := afterStop destructor }, [])) ?_
      simp [MetricsApplication.stepMain, hpc, hdone]
    · -- the timer was started, so it is the timer's turn
      rw [hpc] at hphase
      cases destructor with
      | true => exact hphase.elim
      | false =>
        obtain ⟨t, es, hstep⟩ := timer_enabled hdone
        refine ⟨.timer, { s with threads := t, main := s.main }, es.map .processor, rfl, ?_⟩
        simp [metricsMachine, MetricsApplication.step, MetricsApplication.stepThreads, hphase.2.1,
          hstep]
  | stopServer =>
    rw [hpc] at hphase
    have hstop : s.server.step .stop = some s.server.stop := by simp [ServerLife.step, hphase.1]
    exact main_of_serverStep (.stopProcessor true) (by simp [MetricsApplication.stepMain, hpc])
      hstop
  | destroyServer =>
    rw [hpc] at hphase
    exact main_of_serverStep (.returned 0) (by simp [MetricsApplication.stepMain, hpc])
      (destroy_step hphase.1)
  | returned status => exact absurd ⟨status, hpc⟩ hreturned
  | _ =>
    rw [hpc] at hclosing
    exact absurd hclosing (by decide)

theorem stopProcessor_stops {destructor : Bool} (h : Closing s)
    (hpc : s.main = .stopProcessor destructor) (hrunning : s.threads.processor.running = true) :
    ∃ s' es, metricsMachine.step s .main = some (s', es) ∧ Stopping s' := by
  have hidle := h.1.receiver (by simp [hpc])
  have hstop : s.threads.step .stop
      = some ({ s.threads with processor := s.threads.processor.stop }, []) := by
    simp [ProcessorThreads.step, hidle]
  have hstep : metricsMachine.step s .main
      = some ({ s with
          threads := { s.threads with processor := s.threads.processor.stop }
          main := .joinTimer destructor }, []) := by
    simp [metricsMachine, MetricsApplication.step, MetricsApplication.stepMain, hpc, hrunning,
      MetricsApplication.stepThreads, hstop]
  exact ⟨_, _, hstep, closing_ranked.keeps h hstep, (stop_step hstop).1⟩

/-- In front of the stop of the processor nothing is waited for. -/
theorem closing_stops (h : Closing s) :
    ∃ s' es as, metricsMachine.run s as = some (s', es) ∧ Stopping s'
      ∧ ∀ a ∈ as, a = .main := by
  by_cases hstopped : s.threads.processor.running = false
  · exact ⟨s, [], [], rfl, ⟨h, hstopped⟩, by simp⟩
  · replace hstopped : s.threads.processor.running = true := by simpa using hstopped
    have hclosing := h.2
    have hphase := h.1.phase
    unfold MetricsApplication.PhaseOk at hphase
    cases hpc : s.main with
    | stop =>
      rw [hpc] at hphase
      have hstep : metricsMachine.step s .main
          = some ({ s with isRunning := false, main := .stopProcessor false }, []) := by
        simp [metricsMachine, MetricsApplication.step, MetricsApplication.stepMain, hpc,
          hphase.2.2.1]
      obtain ⟨s', es, hstep', hstop⟩ :=
        stopProcessor_stops (closing_ranked.keeps h hstep) rfl hstopped
      have hrun := metricsMachine.run_cons hstep'
        (metricsMachine.run_nil s')
      exact ⟨s', _, [.main, .main], metricsMachine.run_cons hstep hrun, hstop, by simp⟩
    | stopProcessor destructor =>
      obtain ⟨s', es, hstep, hstop⟩ := stopProcessor_stops h hpc hstopped
      exact ⟨s', _, [.main], metricsMachine.run_cons hstep (metricsMachine.run_nil s'), hstop,
        by simp⟩
    | abandon =>
      rw [hpc] at hphase
      exact absurd (hphase.2.2.2.symm.trans hstopped) (by decide)
    | joinTimer destructor =>
      rw [hpc] at hphase
      cases destructor with
      | true => exact hphase.elim
      | false => exact absurd (hphase.2.2.symm.trans hstopped) (by decide)
    | stopServer =>
      rw [hpc] at hphase
      exact absurd (hphase.2.2.1.symm.trans hstopped) (by decide)
    | destroyServer =>
      rw [hpc] at hphase
      exact absurd (hphase.2.2.1.symm.trans hstopped) (by decide)
    | returned status =>
      rw [hpc] at hphase
      rcases hphase.2 with ⟨-, -, -, hnot⟩ | ⟨-, -, hnot, -⟩
      · exact absurd (hnot.symm.trans hstopped) (by decide)
      · exact absurd (hnot.symm.trans hstopped) (by decide)
    | _ =>
      rw [hpc] at hclosing
      exact absurd hclosing (by decide)

/-- Behind the stop of the processor, the join and four steps are left. -/
theorem stopping_left (h : Stopping s) : s.main.left ≤ 5 := by
  obtain ⟨⟨hinv, -⟩, hstopped⟩ := h
  have hphase := hinv.phase
  unfold MetricsApplication.PhaseOk at hphase
  cases hpc : s.main with
  | stop =>
    rw [hpc] at hphase
    exact absurd (hstopped.symm.trans hphase.2.2.2) (by decide)
  | stopProcessor destructor =>
    rw [hpc] at hphase
    cases destructor with
    | true => simp [MainPc.left]
    | false => exact absurd (hstopped.symm.trans hphase.2.2) (by decide)
  | joinTimer destructor => cases destructor <;> simp [MainPc.left]
  | _ => simp [MainPc.left]

/-- **The application ends.** Once `start` has failed or `run` of the server
has returned, the main thread takes at most seven steps, and from the store
that stops the timer on the two threads take at most eleven together,
whatever else happens; and they do get to the end, without waiting for the
system or the clock. -/
theorem application_ends (messageInterval : Nat) (timeoutSeconds : Int) (now : TimePoint)
    (as : List ApplicationAction) (s : MetricsApplication) (es : List ApplicationEvent)
    (hrun : metricsMachine.run (.created messageInterval timeoutSeconds now) as = some (s, es))
    (hclosing : s.main.closing = true) :
    (∀ bs s' es', metricsMachine.run s bs = some (s', es') →
      bs.countP ApplicationAction.isMain ≤ 7
        ∧ (s.threads.processor.running = false → bs.countP ApplicationAction.isOwn ≤ 11))
      ∧ ∃ bs s' es', metricsMachine.run s bs = some (s', es')
        ∧ (∀ a ∈ bs, ApplicationAction.isOwn a = true) ∧ Returned s' := by
  have h : Closing s := ⟨(run_applicationInv hrun).1, hclosing⟩
  refine ⟨fun bs s' es' hrun' => ⟨?_, fun hstopped => ?_⟩, ?_⟩
  · have hle := closing_ranked.bounded h hrun'
    have hleft : s.main.left ≤ 7 := by
      unfold MainPc.left
      split <;> omega
    have hcount : bs.countP (fun a => !!ApplicationAction.isMain a)
        = bs.countP ApplicationAction.isMain := by simp
    rw [hcount] at hle
    omega
  · have hle := stopping_ranked.bounded ⟨h, hstopped⟩ hrun'
    have hmain := stopping_left ⟨h, hstopped⟩
    have htimer : s.threads.timer.left ≤ 6 := by
      unfold TimerPc.left
      split <;> omega
    have hcount : bs.countP (fun a => !!ApplicationAction.isOwn a)
        = bs.countP ApplicationAction.isOwn := by simp
    rw [hcount] at hle
    omega
  · obtain ⟨t, fs, cs, hrun', hstopping, hcs⟩ := closing_stops h
    obtain ⟨s', bs, gs, hrun'', hreturned, -, hfree⟩ :=
      stopping_ranked.reaches_final (fun _ hs hend => stopping_progress hs hend) hstopping
    refine ⟨cs ++ bs, s', _, metricsMachine.run_append hrun' hrun'', fun a ha => ?_, hreturned⟩
    rcases List.mem_append.mp ha with ha | ha
    · rw [hcs a ha]
      rfl
    · simpa using List.countP_eq_zero.mp hfree a ha

/-- A client is accepted, and `run` is about to receive. -/
def connectedRun : List ApplicationAction :=
  [.main, .result (.socket 3), .result (.setsockopt 0), .result (.inetPton 1), .result (.bind 0),
    .result (.listen 0), .result (.accept 4), .result (.getFlags 2), .result (.setFlags 0), .main,
    .main, .main]

/-- A record, received whole. -/
def recordReceived : RecvResult := .data ⟨ascii "[t] [INFO] a", by decide, by decide⟩

/-- The client sends one record, and is gone; the timer has just begun a turn
when it is told to stop. -/
def servedRun : List ApplicationAction :=
  connectedRun ++ [.timer, .result (.poll 1 false true false), .result (.recv recordReceived),
    .result (.recv .again), .main, .main, .main, .main, .main, .main,
    .result (.poll 1 false true true), .result (.recv .closed), .main, .main, .main]

/-- The join and what follows it. -/
def servedEnd : List ApplicationAction :=
  [.timer, .tick 7, .timer, .timer, .main, .main, .main, .main]

theorem application_owns_served :
    ∃ s es, metricsMachine.run (.created 10 5 0) (servedRun ++ servedEnd) = some (s, es)
      ∧ s.main = .returned 0 ∧ acquires 4 (fdEvents es) = 1 ∧ releases 4 (fdEvents es) = 1
      ∧ s.threads.timer = .done := by
  obtain ⟨s, es, hrun, hpc, hacquired⟩ : ∃ s es,
      metricsMachine.run (.created 10 5 0) (servedRun ++ servedEnd) = some (s, es)
        ∧ s.main = .returned 0 ∧ acquires 4 (fdEvents es) = 1 :=
    ⟨_, _, rfl, rfl, rfl⟩
  obtain ⟨hreleased, hstatus⟩ :=
    (application_owns 10 5 0 (servedRun ++ servedEnd) s es hrun).2.2.2 0 hpc
  refine ⟨s, es, hrun, hpc, hacquired, (hreleased 4).symm.trans hacquired, ?_⟩
  rcases hstatus with ⟨hne, -⟩ | ⟨-, -, hdone⟩
  · exact absurd hne (by decide)
  · exact hdone

theorem application_ends_served :
    ∃ s es, metricsMachine.run (.created 10 5 0) servedRun = some (s, es)
      ∧ s.main = .joinTimer false
      ∧ ∃ bs s' es', metricsMachine.run s bs = some (s', es')
        ∧ (∀ a ∈ bs, ApplicationAction.isOwn a = true) ∧ Returned s' := by
  obtain ⟨s, es, hrun, hpc⟩ : ∃ s es,
      metricsMachine.run (.created 10 5 0) servedRun = some (s, es) ∧ s.main = .joinTimer false :=
    ⟨_, _, rfl, rfl⟩
  exact ⟨s, es, hrun, hpc, (application_ends 10 5 0 servedRun s es hrun (by rw [hpc]; rfl)).2⟩

end LogMetrics.MetricsApplication
