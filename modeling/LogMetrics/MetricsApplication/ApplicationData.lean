import LogMetrics.MetricsApplication.ApplicationThreads

/-!
# What the metrics application counts

The bytes `recv` returned go through the server's buffer, the message
callback, `process_message` and the collector, while the timer prints and time
passes. Nothing is lost, repeated or reordered on the way but what
`handle_recv` leaves in its buffer at a disconnect: the payloads processed are
those of `drains`, and the statistics are those of a collector that one thread
has given their messages (`application_counts`). So what is known of
`handle_recv` and of the collector alone holds of the application.
-/

set_option linter.dupNamespace false

namespace LogMetrics.MetricsApplication

open LogMetrics.Base
open LogMetrics.Logger (LogLevel)
open MetricsApplication (afterStop)

/-! ## The server -/

def Place.inCallback : Place → Bool
  | .callback _ _ => true
  | _ => false

/-- The bytes gathered and not yet handed to the callback. -/
def ServerLife.gathered {ω : Type} (l : ServerLife ω) : Bytes :=
  if l.place.inCallback then [] else l.server.clientBuffer

/-- The result of `recv` the action is, if it is one. -/
def LifeAction.recvResult : LifeAction → List RecvResult
  | .recv result => [result]
  | _ => []

/-- The callback has had the payloads of these results, and the buffer holds
what is left of them. -/
structure Fed (script : List RecvResult) (l : ServerLife (List Bytes)) : Prop where
  world : l.world = (drains script).1
  buffer : l.gathered = (drains script).2

/-- A step that has nothing to do with the bytes. -/
structure Unread (l : ServerLife (List Bytes)) (r : ServerLife (List Bytes) × List FdEvent) :
    Prop where
  world : r.1.world = l.world
  buffer : r.1.server.clientBuffer = l.server.clientBuffer
  callback : r.1.server.messageCallback = l.server.messageCallback
  place : r.1.place.inCallback = false

section Server

variable {l : ServerLife (List Bytes)} {script : List RecvResult}

theorem Unread.fed {r : ServerLife (List Bytes) × List FdEvent} (h : Unread l r)
    (hplace : l.place.inCallback = false) (hfed : Fed script l) : Fed script r.1 := by
  refine ⟨h.world.trans hfed.world, ?_⟩
  have hbuffer := hfed.buffer
  rw [ServerLife.gathered, hplace] at hbuffer
  rw [ServerLife.gathered, h.place]
  exact h.buffer.trans hbuffer

theorem loop_unread (pollFd : Int) : Unread l (l.loop pollFd) := by
  unfold ServerLife.loop
  split
  · exact ⟨rfl, rfl, rfl, rfl⟩
  · exact ⟨rfl, rfl, rfl, rfl⟩

theorem endTurn_unread (pollFd : Int) (hangup : Bool) : Unread l (l.endTurn pollFd hangup) := by
  unfold ServerLife.endTurn
  split
  · exact ⟨rfl, rfl, rfl, rfl⟩
  · exact loop_unread pollFd

theorem afterPoll_unread (pollFd pollResult : Int) (interrupted pollin hangup : Bool) :
    Unread l (l.afterPoll pollFd pollResult interrupted pollin hangup) := by
  unfold ServerLife.afterPoll
  split
  · split
    · exact loop_unread pollFd
    · exact ⟨rfl, rfl, rfl, rfl⟩
  · split
    · exact loop_unread pollFd
    · split
      · exact ⟨rfl, rfl, rfl, rfl⟩
      · exact endTurn_unread pollFd hangup

theorem stopTurn_unread (pollFd : Int) (hangup : Bool) :
    Unread l (l.stopTurn pollFd hangup) := by
  rw [stopTurn_eq]
  exact ⟨rfl, rfl, rfl, rfl⟩

/-- A step of the server with no result of `recv`, outside the callback. -/
theorem step_unread {call : LifeAction} {r : ServerLife (List Bytes) × List FdEvent}
    (hplace : l.place.inCallback = false) (hcall : call.recvResult = [])
    (h : l.step call = some r) : Unread l r := by
  unfold ServerLife.step at h
  split at h
  next hpc =>
    split at h
    next => exact absurd h (by simp)
    next => cases h; exact ⟨rfl, rfl, rfl, rfl⟩
  next hpc => cases h; exact loop_unread _
  next hpc => cases h; exact ⟨rfl, rfl, rfl, hplace⟩
  next hpc => cases h; exact ⟨rfl, rfl, rfl, rfl⟩
  next fd hpc =>
    cases h
    unfold ServerLife.afterSocket
    split <;> exact ⟨rfl, rfl, rfl, rfl⟩
  next result hpc =>
    cases h
    unfold ServerLife.afterSetsockopt
    split <;> exact ⟨rfl, rfl, rfl, rfl⟩
  next result hpc =>
    cases h
    unfold ServerLife.afterInetPton
    split <;> exact ⟨rfl, rfl, rfl, rfl⟩
  next result hpc =>
    cases h
    unfold ServerLife.afterBind
    split <;> exact ⟨rfl, rfl, rfl, rfl⟩
  next result hpc =>
    cases h
    unfold ServerLife.afterListen
    split <;> exact ⟨rfl, rfl, rfl, rfl⟩
  next fd hpc =>
    cases h
    unfold ServerLife.afterAccept
    split <;> exact ⟨rfl, rfl, rfl, rfl⟩
  next flags hpc =>
    cases h
    unfold ServerLife.afterGetFlags
    split <;> exact ⟨rfl, rfl, rfl, rfl⟩
  next result hpc =>
    cases h
    unfold ServerLife.afterSetFlags
    split <;> exact ⟨rfl, rfl, rfl, rfl⟩
  next pollFd pollResult interrupted pollin hangup hpc =>
    cases h
    exact afterPoll_unread pollFd pollResult interrupted pollin hangup
  next => exact absurd hcall (by simp [LifeAction.recvResult])
  next pollFd hangup hpc => rw [hpc] at hplace; exact absurd hplace (by simp [Place.inCallback])
  next pollFd hangup hpc => rw [hpc] at hplace; exact absurd hplace (by simp [Place.inCallback])
  next => exact absurd h (by simp)

/-- A result of `recv`: it is gathered, or what was gathered goes to the
callback. -/
theorem afterRecv_fed {pollFd : Int} {hangup : Bool} (hplace : l.place = .recv pollFd hangup)
    (hcallback : l.server.messageCallback = some recordPayload) (hfed : Fed script l)
    (result : RecvResult) :
    Fed (script ++ [result]) (l.afterRecv pollFd hangup result).1
      ∧ (l.afterRecv pollFd hangup result).1.server.messageCallback = some recordPayload
      ∧ (((l.afterRecv pollFd hangup result).1.place.inCallback = false
            ∧ (l.afterRecv pollFd hangup result).1.world = l.world)
        ∨ ((l.afterRecv pollFd hangup result).1.place = .callback pollFd hangup
            ∧ (l.afterRecv pollFd hangup result).1.world = l.world ++ [l.server.clientBuffer])) := by
  have hout : l.place.inCallback = false := by
    rw [hplace]
    rfl
  have hbuffer : l.server.clientBuffer = (drains script).2 := by
    have hgathered := hfed.buffer
    rwa [ServerLife.gathered, hout] at hgathered
  have hquiet {r : ServerLife (List Bytes) × List FdEvent} (h : Unread l r)
      (hsame : drains (script ++ [result]) = drains script) :
      Fed (script ++ [result]) r.1 ∧ r.1.server.messageCallback = some recordPayload
        ∧ ((r.1.place.inCallback = false ∧ r.1.world = l.world)
          ∨ (r.1.place = .callback pollFd hangup
            ∧ r.1.world = l.world ++ [l.server.clientBuffer])) := by
    have hfed' := h.fed hout hfed
    refine ⟨⟨?_, ?_⟩, h.callback.trans hcallback, .inl ⟨h.place, h.world⟩⟩
    · rw [hsame]
      exact hfed'.world
    · rw [hsame]
      exact hfed'.buffer
  cases result with
  | data chunk =>
    refine ⟨⟨?_, ?_⟩, hcallback, .inl ⟨hout, rfl⟩⟩
    · rw [drains_snoc]
      exact hfed.world
    · rw [drains_snoc]
      show (if l.place.inCallback then [] else l.server.clientBuffer ++ chunk.bytes) = _
      rw [hout, hbuffer]
      rfl
  | again =>
    rcases drainStep_again (drains script) with ⟨hempty, hstep⟩ | ⟨hne, hstep⟩
    · have hturn : l.afterRecv pollFd hangup .again = l.endTurn pollFd hangup :=
        again_empty (by rw [hbuffer, hempty]; rfl)
      rw [hturn]
      exact hquiet (endTurn_unread pollFd hangup) ((drains_snoc _ _).trans hstep)
    · have hcalled : l.afterRecv pollFd hangup .again = _ :=
        again_called (by rw [hbuffer]; simpa using hne) hcallback
      rw [hcalled]
      refine ⟨⟨?_, ?_⟩, hcallback, .inr ⟨rfl, rfl⟩⟩
      · show l.world ++ [l.server.clientBuffer] = _
        rw [drains_snoc, hstep, hbuffer, hfed.world]
      · rw [drains_snoc, hstep]
        rfl
  | closed => exact hquiet (stopTurn_unread pollFd hangup) (drains_snoc _ _)
  | error => exact hquiet (stopTurn_unread pollFd hangup) (drains_snoc _ _)

/-- The callback returns, and the buffer is cleared. -/
theorem afterCallback_fed {pollFd : Int} {hangup : Bool}
    (hplace : l.place = .callback pollFd hangup) (hfed : Fed script l) :
    Fed script (l.afterCallback pollFd hangup).1
      ∧ (l.afterCallback pollFd hangup).1.server.messageCallback = l.server.messageCallback
      ∧ (l.afterCallback pollFd hangup).1.place.inCallback = false
      ∧ (l.afterCallback pollFd hangup).1.world = l.world := by
  have hquiet := endTurn_unread (l := { l with server := { l.server with clientBuffer := [] } })
    pollFd hangup
  have hgathered := hfed.buffer
  rw [ServerLife.gathered, hplace] at hgathered
  refine ⟨⟨hquiet.world.trans hfed.world, ?_⟩, hquiet.callback, hquiet.place, hquiet.world⟩
  rw [ServerLife.gathered, if_neg (by simp [ServerLife.afterCallback, hquiet.place])]
  exact hquiet.buffer.trans hgathered

end Server

/-! ## The whole application -/

/-- The results of `recv` in a schedule. -/
def recvScript (as : List ApplicationAction) : List RecvResult :=
  as.flatMap fun
    | .result call => call.recvResult
    | _ => []

/-- The payload that waits at the start of the callback. -/
def MetricsApplication.handed (s : MetricsApplication) : List Bytes :=
  if s.main = .serving ∧ s.server.place.inCallback then s.server.world.getLast?.toList else []

theorem recvScript_snoc (as : List ApplicationAction) (a : ApplicationAction) :
    recvScript (as ++ [a]) = recvScript as ++ recvScript [a] := List.flatMap_append

/-- The payloads handed over. -/
structure Conserved (as : List ApplicationAction) (s : MetricsApplication)
    (es : List ApplicationEvent) : Prop where
  fed : Fed (recvScript as) s.server
  callback : s.main = .serve ∨ s.main = .serving ∨ s.main = .processing →
    s.server.server.messageCallback = some recordPayload
  logged : payloads (processorEvents es) ++ s.handed = s.server.world

section Application

variable {s s' : MetricsApplication} {as : List ApplicationAction} {es : List ApplicationEvent}

/-- Only a `receive` calls `process_message`. -/
theorem step_logged {t t' : ProcessorThreads} {a : ProcessorAction} {fs : List ProcessorEvent}
    (hstep : ProcessorStep t a t' fs) :
    (∃ payload, a = .receive payload ∧ payloads fs = [payload])
      ∨ ((∀ payload, a ≠ .receive payload) ∧ payloads fs = []) := by
  cases hstep with
  | reject logMessage text hpc hparse => exact .inl ⟨logMessage, rfl, rfl⟩
  | accept logMessage message level hpc hparse => exact .inl ⟨logMessage, rfl, rfl⟩
  | _ => exact .inr ⟨by simp, rfl⟩

/-- No system call returns inside the callback. -/
theorem result_outside {l : ServerLife (List Bytes)} {call : LifeAction}
    {r : ServerLife (List Bytes) × List FdEvent} (hresult : call.isResult = true)
    (h : l.step call = some r) : l.place.inCallback = false := by
  cases hplace : l.place with
  | callback pollFd hangup =>
    cases call with
    | stop => exact absurd hresult (by decide)
    | callbackReturns => exact absurd hresult (by decide)
    | _ => simp [ServerLife.step, hplace] at h
  | _ => rfl

theorem recv_place {l : ServerLife (List Bytes)} {result : RecvResult}
    {r : ServerLife (List Bytes) × List FdEvent} (h : l.step (.recv result) = some r) :
    ∃ pollFd hangup, l.place = .recv pollFd hangup := by
  cases hplace : l.place with
  | recv pollFd hangup => exact ⟨pollFd, hangup, rfl⟩
  | _ => simp [ServerLife.step, hplace] at h

theorem handed_of_main (hpc : s.main ≠ .serving) : s.handed = [] := if_neg fun h => hpc h.1

theorem handed_of_place (hplace : s.server.place.inCallback = false) : s.handed = [] :=
  if_neg fun h => absurd (hplace.symm.trans h.2) (by decide)

/-- The result of a system call. -/
theorem result_conserved (hinv : ApplicationInv s) (h : Conserved as s es) {call : LifeAction}
    {server : ServerLife (List Bytes)} {fs : List FdEvent} (hresult : call.isResult = true)
    (hin : s.main = .starting ∨ s.main = .serving)
    (hstep : s.server.step call = some (server, fs)) :
    Conserved (as ++ [.result call]) { s with server, main := s.main } (es ++ fs.map .fd) := by
  have hout := result_outside hresult hstep
  have hlogged := h.logged
  rw [handed_of_place hout, List.append_nil] at hlogged
  have hevents : processorEvents (es ++ fs.map .fd) = processorEvents es := by
    rw [processorEvents_append, processorEvents_fd, List.append_nil]
  have hscript : recvScript (as ++ [.result call]) = recvScript as ++ call.recvResult := by
    rw [recvScript_snoc]
    simp [recvScript]
  by_cases hrecv : call.recvResult = []
  · have hquiet := step_unread hout hrecv hstep
    rw [hrecv, List.append_nil] at hscript
    refine ⟨?_, fun hpc => hquiet.callback.trans (h.callback hpc), ?_⟩
    · rw [hscript]
      exact hquiet.fed hout h.fed
    · rw [hevents, handed_of_place hquiet.place, List.append_nil, hlogged]
      exact hquiet.world.symm
  · -- a result of `recv`, so `run` is what is running
    obtain ⟨result, rfl⟩ : ∃ result, call = .recv result := by
      cases call with
      | recv result => exact ⟨result, rfl⟩
      | _ => exact absurd rfl hrecv
    obtain ⟨pollFd, hangup, hplace⟩ := recv_place hstep
    have hpc : s.main = .serving := by
      rcases hin with hpc | hpc
      · have hphase := hinv.phase
        unfold MetricsApplication.PhaseOk at hphase
        rw [hpc] at hphase
        rw [hplace] at hphase
        exact absurd hphase.1 (by simp [Place.inStart])
      · exact hpc
    have hrecvStep : s.server.afterRecv pollFd hangup result = (server, fs) := by
      simpa [ServerLife.step, hplace] using hstep
    obtain ⟨hfed, hcallback, hworld⟩ :=
      afterRecv_fed hplace (h.callback (.inr (.inl hpc))) h.fed result
    rw [hrecvStep] at hfed hcallback hworld
    dsimp only at hfed hcallback hworld
    refine ⟨?_, fun _ => hcallback, ?_⟩
    · rw [hscript]
      exact hfed
    · rw [hevents, hlogged]
      rcases hworld with ⟨hplace', hworld⟩ | ⟨hplace', hworld⟩
      · rw [handed_of_place hplace', List.append_nil]
        exact hworld.symm
      · have hhanded : MetricsApplication.handed { s with server, main := s.main }
            = [s.server.server.clientBuffer] := by
          rw [MetricsApplication.handed, if_pos ⟨hpc, by simp [hplace', Place.inCallback]⟩]
          simp [hworld]
        rw [hhanded]
        exact hworld.symm

/-- A call of the server. -/
theorem server_conserved (hinv : ApplicationInv s) (h : Conserved as s es) {call : LifeAction}
    {pc : MainPc} {server : ServerLife (List Bytes)} {fs : List FdEvent}
    (hcall : ServerCall s call pc) (hstep : s.server.step call = some (server, fs)) :
    Conserved (as ++ [.main]) { s with server, main := pc } (es ++ fs.map .fd) := by
  have hphase := hinv.phase
  have hlogged := h.logged
  unfold MetricsApplication.PhaseOk at hphase
  have hevents : processorEvents (es ++ fs.map .fd) = processorEvents es := by
    rw [processorEvents_append, processorEvents_fd, List.append_nil]
  have hscript : recvScript (as ++ [.main]) = recvScript as := by
    rw [recvScript_snoc]
    simp [recvScript]
  -- a call that the owner makes while the server waits for one
  have hquiet (hplace : s.server.place = .idle) (hrecv : call.recvResult = [])
      (hcallback : pc = .serve ∨ pc = .serving ∨ pc = .processing →
        s.server.server.messageCallback = some recordPayload) :
      Conserved (as ++ [.main]) { s with server, main := pc } (es ++ fs.map .fd) := by
    have hout : s.server.place.inCallback = false := by
      rw [hplace]
      rfl
    have hquiet := step_unread hout hrecv hstep
    rw [handed_of_place hout, List.append_nil] at hlogged
    refine ⟨?_, fun hpc => hquiet.callback.trans (hcallback hpc), ?_⟩
    · rw [hscript]
      exact hquiet.fed hout h.fed
    · rw [hevents, handed_of_place hquiet.place, List.append_nil, hlogged]
      exact hquiet.world.symm
  cases hcall with
  | start hpc => rw [hpc] at hphase; exact hquiet hphase.1 rfl (by simp)
  | abandon hpc => rw [hpc] at hphase; exact hquiet hphase.1 rfl (by simp)
  | serve hpc =>
    rw [hpc] at hphase
    exact hquiet hphase.1 rfl fun _ => h.callback (.inl hpc)
  | stop hpc => rw [hpc] at hphase; exact hquiet hphase.1 rfl (by simp)
  | destroy hpc => rw [hpc] at hphase; exact hquiet hphase.1 rfl (by simp)
  | processed hpc hidle =>
    rw [hpc] at hphase
    obtain ⟨⟨pollFd, hangup, hplace⟩, -⟩ := hphase
    have hreturn : s.server.afterCallback pollFd hangup = (server, fs) := by
      simpa [ServerLife.step, hplace] using hstep
    obtain ⟨hfed, hcallback, hout, hworld⟩ := afterCallback_fed hplace h.fed
    rw [hreturn] at hfed hcallback hout hworld
    rw [handed_of_main (by simp [hpc]), List.append_nil] at hlogged
    refine ⟨?_, fun _ => hcallback.trans (h.callback (.inr (.inr hpc))), ?_⟩
    · rw [hscript]
      exact hfed
    · rw [hevents, handed_of_place hout, List.append_nil, hlogged]
      exact hworld.symm

/-- A step of the threads of the processor. -/
theorem threads_conserved (h : Conserved as s es)
    {a : ApplicationAction} {action : ProcessorAction} {pc : MainPc} {threads : ProcessorThreads}
    {fs : List ProcessorEvent} (hmove : ThreadsMove s a action pc)
    (hstep : s.threads.step action = some (threads, fs)) :
    Conserved (as ++ [a]) { s with threads, main := pc } (es ++ fs.map .processor) := by
  have hstep' := threadsStep_inv hstep
  have hlogged := h.logged
  have hevents : processorEvents (es ++ fs.map .processor) = processorEvents es ++ fs := by
    rw [processorEvents_append, processorEvents_processor]
  have hscript : recvScript (as ++ [a]) = recvScript as := by
    rw [recvScript_snoc]
    cases hmove <;> simp [recvScript]
  have hfed : Fed (recvScript (as ++ [a])) s.server := by
    rw [hscript]
    exact h.fed
  -- a step that calls nothing, and leaves the payload that waits where it is
  have hquiet (hpc : s.main = pc ∨ (s.main ≠ .serving ∧ pc ≠ .serving))
      (hcallback : pc = .serve ∨ pc = .serving ∨ pc = .processing →
        s.server.server.messageCallback = some recordPayload)
      (hnot : ∀ payload, action ≠ .receive payload) :
      Conserved (as ++ [a]) { s with threads, main := pc } (es ++ fs.map .processor) := by
    refine ⟨hfed, hcallback, ?_⟩
    have hnone : payloads fs = [] := by
      rcases step_logged hstep' with ⟨payload, haction, -⟩ | ⟨-, hnone⟩
      · exact absurd haction (hnot payload)
      · exact hnone
    have hhanded : MetricsApplication.handed { s with threads, main := pc } = s.handed := by
      rcases hpc with hpc | ⟨hbefore, hafter⟩
      · subst hpc
        rfl
      · rw [handed_of_main hafter, handed_of_main hbefore]
    rw [hevents, payloads_append, hnone, List.append_nil, hhanded]
    exact hlogged
  cases hmove with
  | tick d => exact hquiet (.inl rfl) h.callback (by simp)
  | timer hstarted => exact hquiet (.inl rfl) h.callback (by simp)
  | receive pollFd hangup payload hpc hplace hlast =>
    refine ⟨hfed, fun _ => h.callback (.inr (.inl hpc)), ?_⟩
    have hcalled : payloads fs = [payload] := by
      rcases step_logged hstep' with ⟨payload', haction, hcalled⟩ | ⟨hnot, -⟩
      · cases haction
        exact hcalled
      · exact absurd rfl (hnot payload)
    have hhanded : s.handed = [payload] := by
      rw [MetricsApplication.handed, if_pos ⟨hpc, by simp [hplace, Place.inCallback]⟩, hlast]
      rfl
    rw [hhanded] at hlogged
    rw [handed_of_main (by simp), List.append_nil, hevents, payloads_append, hcalled]
    exact hlogged
  | receiver hpc => exact hquiet (.inl hpc) (fun _ => h.callback (.inr (.inr hpc))) (by simp)
  | stop destructor hpc hrunning =>
    exact hquiet (.inr ⟨by simp [hpc], by simp⟩) (by simp) (by simp)

/-- Such a step neither leaves a payload behind nor goes to the server. -/
theorem ownMove_away {isRunning : Bool} {pc : MainPc} (hmove : OwnMove s isRunning pc) :
    s.handed = [] ∧ pc ≠ .serve ∧ pc ≠ .serving ∧ pc ≠ .processing := by
  cases hmove with
  | started hpc hplace hrunning => exact ⟨handed_of_main (by simp [hpc]), by simp⟩
  | failed hpc hplace => exact ⟨handed_of_main (by simp [hpc]), by simp⟩
  | left hpc hplace => exact ⟨handed_of_place (by rw [hplace]; rfl), by simp⟩
  | stop hpc hrunning => exact ⟨handed_of_main (by simp [hpc]), by simp⟩
  | skip hpc hstopped => exact ⟨handed_of_main (by simp [hpc]), by simp⟩
  | stopped destructor hpc hstopped =>
    exact ⟨handed_of_main (by simp [hpc]), by cases destructor <;> simp [afterStop]⟩
  | joined destructor hpc hdone =>
    exact ⟨handed_of_main (by simp [hpc]), by cases destructor <;> simp [afterStop]⟩

theorem step_conserved (hinv : ApplicationInv s) (h : Conserved as s es) {a : ApplicationAction}
    {fs : List ApplicationEvent} (hstep : ApplicationStep s a s' fs) :
    Conserved (as ++ [a]) s' (es ++ fs) := by
  have hmain : recvScript (as ++ [.main]) = recvScript as := by
    rw [recvScript_snoc]
    simp [recvScript]
  cases hstep with
  | result call server fs hresult hin hstep => exact result_conserved hinv h hresult hin hstep
  | server call pc server fs hcall hstep => exact server_conserved hinv h hcall hstep
  | threads _ action pc threads fs hmove hstep => exact threads_conserved h hmove hstep
  | own isRunning pc hmove =>
    obtain ⟨hnone, hserve, hserving, hprocessing⟩ := ownMove_away hmove
    have hlogged := h.logged
    rw [List.append_nil]
    refine ⟨by rw [hmain]; exact h.fed, fun hpc => ?_, ?_⟩
    · rcases hpc with hpc | hpc | hpc
      · exact absurd hpc hserve
      · exact absurd hpc hserving
      · exact absurd hpc hprocessing
    · rw [handed_of_main (show _ ≠ _ from hserving)]
      rwa [hnone] at hlogged
  | run hpc =>
    have hlogged := h.logged
    rw [handed_of_main (by simp [hpc])] at hlogged
    rw [List.append_nil]
    refine ⟨by rw [hmain]; exact ⟨h.fed.world, h.fed.buffer⟩, fun _ => rfl, ?_⟩
    rw [handed_of_main (by simp)]
    exact hlogged

end Application

theorem run_conserved {messageInterval : Nat} {timeoutSeconds : Int} {now : TimePoint}
    {as : List ApplicationAction} {s : MetricsApplication} {es : List ApplicationEvent}
    (hrun : metricsMachine.run (.created messageInterval timeoutSeconds now) as = some (s, es)) :
    ApplicationInv s ∧ Conserved as s es := by
  refine metricsMachine.run_induction (P := fun as s es => ApplicationInv s ∧ Conserved as s es)
    ⟨created_inv messageInterval timeoutSeconds now, ?_⟩ ?_ hrun
  · exact ⟨⟨rfl, rfl⟩, by simp [MetricsApplication.created], rfl⟩
  · intro as a s es s' es' _ hs hstep
    obtain ⟨hinv, hconserved⟩ := hs
    have hstep' := applicationStep_inv hstep
    exact ⟨step_applicationInv hinv hstep', step_conserved hinv hconserved hstep'⟩

/-- Outside the message callback all payloads have been processed. -/
theorem run_outside {messageInterval : Nat} {timeoutSeconds : Int} {now : TimePoint}
    {as : List ApplicationAction} {s : MetricsApplication} {es : List ApplicationEvent}
    (hrun : metricsMachine.run (.created messageInterval timeoutSeconds now) as = some (s, es))
    (hplace : s.server.place.inCallback = false) :
    s.threads.receiver = .idle
      ∧ payloads (processorEvents es) = (drains (recvScript as)).1
      ∧ addedMessages (processorEvents es) = accepted (drains (recvScript as)).1 := by
  obtain ⟨hinv, hfed, -, hlogged⟩ := run_conserved hrun
  have hall : payloads (processorEvents es) = (drains (recvScript as)).1 := by
    rw [handed_of_place hplace, List.append_nil] at hlogged
    exact hlogged.trans hfed.world
  have hidle : s.threads.receiver = .idle := by
    refine hinv.receiver fun hpc => ?_
    have hphase := hinv.phase
    unfold MetricsApplication.PhaseOk at hphase
    rw [hpc] at hphase
    obtain ⟨⟨pollFd, hangup, hcallback⟩, -⟩ := hphase
    rw [hcallback] at hplace
    exact absurd hplace (by simp [Place.inCallback])
  have hadded := (run_projects hrun).2.processed.1
  rw [hidle, hall, show pendingAdd .idle = [] from rfl, List.append_nil] at hadded
  exact ⟨hidle, hall, hadded⟩

/-- **The statistics are those of the bytes received.** However the timer and
the clock run beside it: what `process_message` is called with are the
payloads of the results of `recv`, in order. Outside the message callback, in
`poll` and in `recv` and at the exit as well, all of them have been processed,
every byte received is in one of them or still in the buffer, and the
collector has been given exactly the messages of those that parse. -/
theorem application_counts (messageInterval : Nat) (timeoutSeconds : Int) (now : TimePoint)
    (as : List ApplicationAction) (s : MetricsApplication) (es : List ApplicationEvent)
    (hrun : metricsMachine.run (.created messageInterval timeoutSeconds now) as = some (s, es)) :
    payloads (processorEvents es) <+: (drains (recvScript as)).1
      ∧ (s.server.place.inCallback = false →
        payloads (processorEvents es) = (drains (recvScript as)).1
          ∧ (payloads (processorEvents es)).flatten ++ s.server.server.clientBuffer
            = received (recvScript as)
          ∧ HasAdded (accepted (drains (recvScript as)).1) s.threads.stats) := by
  obtain ⟨-, hfed, -, hlogged⟩ := run_conserved hrun
  refine ⟨⟨s.handed, hlogged.trans hfed.world⟩, fun hplace => ?_⟩
  obtain ⟨-, hall, hadded⟩ := run_outside hrun hplace
  refine ⟨hall, ?_, ?_⟩
  · have hbuffer := hfed.buffer
    rw [ServerLife.gathered, hplace] at hbuffer
    rw [hall, ← drains_conserve, ← hbuffer]
    rfl
  · rw [← hadded]
    exact (run_projects hrun).2.processed.2

/-- One record received and counted, and the client gone. -/
theorem application_counts_served :
    ∃ s es, metricsMachine.run (.created 10 5 0) (servedRun ++ servedEnd) = some (s, es)
      ∧ s.main = .returned 0
      ∧ payloads (processorEvents es) = [ascii "[t] [INFO] a"]
      ∧ HasAdded [(ascii "a", .info)] s.threads.stats := by
  obtain ⟨s, es, hrun, hpc, hplace⟩ : ∃ s es,
      metricsMachine.run (.created 10 5 0) (servedRun ++ servedEnd) = some (s, es)
        ∧ s.main = .returned 0 ∧ s.server.place.inCallback = false :=
    ⟨_, _, rfl, rfl, rfl⟩
  obtain ⟨hall, -, hadded⟩ :=
    (application_counts 10 5 0 (servedRun ++ servedEnd) s es hrun).2 hplace
  have haccepted : accepted (drains (recvScript (servedRun ++ servedEnd))).1
      = [(ascii "a", .info)] := by decide +kernel
  rw [haccepted] at hadded
  exact ⟨s, es, hrun, hpc, hall.trans (by decide +kernel), hadded⟩

/-! ## What comes out -/

/-- **The statistics the application prints.** The totals never go down and
none comes out more than twice, once for the count and once for the timeout;
outside the message callback the prints for the count are those at `N`,
`2 * N` and so on up to the number of payloads that both parsers accepted, and
every report shows the figures of the messages added before it. -/
theorem application_prints (N : Nat) (hN : 0 < N) (timeoutSeconds : Int) (now : TimePoint)
    (as : List ApplicationAction) (s : MetricsApplication) (es : List ApplicationEvent)
    (hrun : metricsMachine.run (.created N timeoutSeconds now) as = some (s, es))
    (hfew : (addedMessages (processorEvents es)).length < sizeMod) :
    PrintedWell N (processorEvents es) s.threads
      ∧ (s.server.place.inCallback = false →
        printedBy .receiver (processorEvents es)
          = multiples N ((accepted (drains (recvScript as)).1).length / N)) := by
  have hprinted := (run_projects hrun).2.printed hN hfew
  refine ⟨hprinted, fun hplace => ?_⟩
  obtain ⟨hidle, -, hadded⟩ := run_outside hrun hplace
  rw [← hadded]
  exact hprinted.receiver hidle

/-- A record that makes the statistics come out, while the timer has been
told that there is something to print. -/
def printedRun : List ApplicationAction :=
  connectedRun ++ [.tick 5000000000, .timer, .timer, .timer, .result (.poll 1 false true false),
    .result (.recv recordReceived), .result (.recv .again), .main, .main, .timer, .main, .main,
    .main, .main, .main, .main, .timer, .main]

theorem application_prints_twice :
    ∃ s es, metricsMachine.run (.created 1 5 0) printedRun = some (s, es)
      ∧ printedTotals (processorEvents es) = [1, 1]
      ∧ printedBy .receiver (processorEvents es) = [1]
      ∧ ∀ n, (printedTotals (processorEvents es)).count n ≤ 2 := by
  obtain ⟨s, es, hrun, hfew, hplace, htotals⟩ : ∃ s es,
      metricsMachine.run (.created 1 5 0) printedRun = some (s, es)
        ∧ (addedMessages (processorEvents es)).length = 1 ∧ s.server.place.inCallback = false
        ∧ printedTotals (processorEvents es) = [1, 1] :=
    ⟨_, _, rfl, rfl, rfl, by decide⟩
  obtain ⟨hprinted, hreceiver⟩ := application_prints 1 (by decide) 5 0 printedRun s es hrun
    (by rw [hfew]; decide)
  exact ⟨s, es, hrun, htotals, (hreceiver hplace).trans (by decide +kernel), hprinted.twice⟩

end LogMetrics.MetricsApplication
