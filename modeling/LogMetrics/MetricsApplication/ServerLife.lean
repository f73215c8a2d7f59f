import LogMetrics.Base.Machine
import LogMetrics.Base.Resource
import LogMetrics.MetricsApplication.SocketServer

/-!
# The life of a `SocketServer` and its descriptors

`src/metrics_application/socket_server.cpp`: the object is constructed,
started once, run, stopped and destroyed, by one thread. A step goes from one
system call to the next, with what the call returned as its action, so a
schedule is a script of results; `Place` says which call the thread is in. In
between the owner decides what to call (`idle`), and so does the message
callback, which may call `stop`.

`run` keeps its own copy of the client descriptor in its `pollfd`, while
`handle_recv` or the callback may close it: `LifeInv` has that the copy is the
server's own descriptor as long as `running_`. The fields of the server are
what it holds (`held`), and every step acquires, uses and releases according
to them (`step_keeps`).
-/

namespace LogMetrics.MetricsApplication

open LogMetrics.Base

/-- The system calls on a descriptor, less `close`. -/
inductive FdCall where
  | setsockopt
  | bind
  | listen
  | accept
  | getFlags
  | setFlags
  | poll
  | recv
  deriving DecidableEq, Repr

/-- A descriptor returned by `socket` or `accept`, one closed, and a call on
one. -/
abbrev FdEvent := ResourceEvent Int FdCall

/-- Where the thread is: with the owner, in a system call of `init_socket`,
`start`, `set_non_blocking`, `run` or `handle_recv`, or in the message
callback. `pollFd` is `poll_fd.fd`, and `hangup` tells whether `revents` has
one of `POLLHUP`, `POLLERR` and `POLLNVAL`. -/
inductive Place where
  | idle
  | socket
  | setsockopt
  | inetPton
  | bind
  | listen
  | accept
  | getFlags
  | setFlags
  | poll (pollFd : Int)
  | recv (pollFd : Int) (hangup : Bool)
  | callback (pollFd : Int) (hangup : Bool)
  | destroyed
  deriving DecidableEq, Repr

/-- A call of the owner or the callback, the result of a system call, or the
callback's return. `interrupted` is `errno == EINTR`. -/
inductive LifeAction where
  | start
  | run
  | stop
  | destroy
  | socket (fd : Int)
  | setsockopt (result : Int)
  | inetPton (result : Int)
  | bind (result : Int)
  | listen (result : Int)
  | accept (fd : Int)
  | getFlags (flags : Int)
  | setFlags (result : Int)
  | poll (pollResult : Int) (interrupted pollin hangup : Bool)
  | recv (result : RecvResult)
  | callbackReturns

/-- The server, what its callback acts on, where the thread is, and whether
`start` has been called. -/
structure ServerLife (ω : Type) where
  server : SocketServer ω
  world : ω
  place : Place
  startCalled : Bool

variable {ω : Type}

/-- `SocketServer::SocketServer`. -/
def SocketServer.create (messageCallback : Option (Bytes → ω → ω)) : SocketServer ω where
  serverFd := -1
  clientFd := -1
  clientBuffer := []
  running := false
  messageCallback := messageCallback

/-- `if (fd != -1) { close(fd); … }` -/
def closeOpen (fd : Int) : List FdEvent := if fd ≠ -1 then [.release fd] else []

namespace ServerLife

def construct (messageCallback : Option (Bytes → ω → ω)) (world : ω) : ServerLife ω where
  server := .create messageCallback
  world := world
  place := .idle
  startCalled := false

/-- `SocketServer::stop`. -/
def stop (l : ServerLife ω) : ServerLife ω × List FdEvent :=
  ({ l with server := l.server.stop },
    closeOpen l.server.clientFd ++ closeOpen l.server.serverFd)

/-- The failure exits of `init_socket` once there is a socket. -/
def failInit (l : ServerLife ω) : ServerLife ω × List FdEvent :=
  ({ l with server := { l.server with serverFd := -1 }, place := .idle },
    [.release l.server.serverFd])

/-- `init_socket` behind `socket`. -/
def afterSocket (fd : Int) (l : ServerLife ω) : ServerLife ω × List FdEvent :=
  if fd = -1 then ({ l with server := { l.server with serverFd := fd }, place := .idle }, [])
  else
    ({ l with server := { l.server with serverFd := fd }, place := .setsockopt },
      [.acquire fd, .use .setsockopt fd])

/-- `init_socket` behind `setsockopt`. -/
def afterSetsockopt (result : Int) (l : ServerLife ω) : ServerLife ω × List FdEvent :=
  if result = -1 then l.failInit else ({ l with place := .inetPton }, [])

/-- `init_socket` behind `inet_pton`. -/
def afterInetPton (result : Int) (l : ServerLife ω) : ServerLife ω × List FdEvent :=
  if result ≤ 0 then l.failInit else ({ l with place := .bind }, [.use .bind l.server.serverFd])

/-- `init_socket` behind `bind`. -/
def afterBind (result : Int) (l : ServerLife ω) : ServerLife ω × List FdEvent :=
  if result = -1 then l.failInit
  else ({ l with place := .listen }, [.use .listen l.server.serverFd])

/-- `init_socket` behind `listen`, and `start` up to `accept`. -/
def afterListen (result : Int) (l : ServerLife ω) : ServerLife ω × List FdEvent :=
  if result = -1 then l.failInit
  else ({ l with place := .accept }, [.use .accept l.server.serverFd])

/-- `start` behind `accept`. -/
def afterAccept (fd : Int) (l : ServerLife ω) : ServerLife ω × List FdEvent :=
  if fd = -1 then ({ l with server := { l.server with clientFd := fd }, place := .idle }, [])
  else
    ({ l with server := { l.server with clientFd := fd }, place := .getFlags },
      [.acquire fd, .use .getFlags fd])

/-- `start` when `set_non_blocking` has returned false. -/
def failClient (l : ServerLife ω) : ServerLife ω × List FdEvent :=
  ({ l with server := { l.server with clientFd := -1 }, place := .idle },
    [.release l.server.clientFd])

/-- `set_non_blocking` behind its first `fcntl`. -/
def afterGetFlags (flags : Int) (l : ServerLife ω) : ServerLife ω × List FdEvent :=
  if flags = -1 then l.failClient
  else ({ l with place := .setFlags }, [.use .setFlags l.server.clientFd])

/-- `set_non_blocking` behind its second `fcntl`, and the end of `start`. -/
def afterSetFlags (result : Int) (l : ServerLife ω) : ServerLife ω × List FdEvent :=
  if result = -1 then l.failClient
  else ({ l with server := { l.server with running := true }, place := .idle }, [])

/-- `while (running_)` in `run`: the next `poll`, or `run` returns. -/
def loop (pollFd : Int) (l : ServerLife ω) : ServerLife ω × List FdEvent :=
  if l.server.running then ({ l with place := .poll pollFd }, [.use .poll pollFd])
  else ({ l with place := .idle }, [])

/-- The end of a turn of `run`. -/
def endTurn (pollFd : Int) (hangup : Bool) (l : ServerLife ω) : ServerLife ω × List FdEvent :=
  if hangup then ({ l with place := .idle }, []) else l.loop pollFd

/-- A turn of `run` behind `poll`, with `handle_recv` up to its first `recv`. -/
def afterPoll (pollFd pollResult : Int) (interrupted pollin hangup : Bool) (l : ServerLife ω) :
    ServerLife ω × List FdEvent :=
  if pollResult < 0 then
    if interrupted then l.loop pollFd else ({ l with place := .idle }, [])
  else if pollResult = 0 then l.loop pollFd
  else if pollin then
    ({ l with place := .recv pollFd hangup }, [.use .recv l.server.clientFd])
  else l.endTurn pollFd hangup

/-- `handle_recv` behind `message_callback_`, and the end of the turn. -/
def afterCallback (pollFd : Int) (hangup : Bool) (l : ServerLife ω) :
    ServerLife ω × List FdEvent :=
  endTurn pollFd hangup { l with server := { l.server with clientBuffer := [] } }

/-- `handle_recv` when it calls `stop`, and the end of the turn. -/
def stopTurn (pollFd : Int) (hangup : Bool) (l : ServerLife ω) : ServerLife ω × List FdEvent :=
  let (stopped, closes) := l.stop
  let (l', events) := stopped.endTurn pollFd hangup
  (l', closes ++ events)

/-- `handle_recv` behind `recv`: the next `recv`, the callback, or the end of
the turn. -/
def afterRecv (pollFd : Int) (hangup : Bool) (result : RecvResult) (l : ServerLife ω) :
    ServerLife ω × List FdEvent :=
  match result with
  | .data chunk =>
    ({ l with server := { l.server with clientBuffer := l.server.clientBuffer ++ chunk.bytes } },
      [.use .recv l.server.clientFd])
  | .again =>
    if l.server.clientBuffer.isEmpty then l.endTurn pollFd hangup
    else
      match l.server.messageCallback with
      | some callback =>
        ({ l with world := callback l.server.clientBuffer l.world,
                  place := .callback pollFd hangup }, [])
      | none => l.afterCallback pollFd hangup
  | .closed => l.stopTurn pollFd hangup
  | .error => l.stopTurn pollFd hangup

def step (l : ServerLife ω) (a : LifeAction) : Option (ServerLife ω × List FdEvent) :=
  match l.place, a with
  | .idle, .start =>
    if l.startCalled then none else some ({ l with place := .socket, startCalled := true }, [])
  | .idle, .run => some (l.loop l.server.clientFd)
  | .idle, .stop => some l.stop
  | .idle, .destroy => some ({ l.stop.1 with place := .destroyed }, l.stop.2)
  | .socket, .socket fd => some (l.afterSocket fd)
  | .setsockopt, .setsockopt result => some (l.afterSetsockopt result)
  | .inetPton, .inetPton result => some (l.afterInetPton result)
  | .bind, .bind result => some (l.afterBind result)
  | .listen, .listen result => some (l.afterListen result)
  | .accept, .accept fd => some (l.afterAccept fd)
  | .getFlags, .getFlags flags => some (l.afterGetFlags flags)
  | .setFlags, .setFlags result => some (l.afterSetFlags result)
  | .poll pollFd, .poll pollResult interrupted pollin hangup =>
    some (l.afterPoll pollFd pollResult interrupted pollin hangup)
  | .recv pollFd hangup, .recv result => some (l.afterRecv pollFd hangup result)
  | .callback _ _, .stop => some l.stop
  | .callback pollFd hangup, .callbackReturns => some (l.afterCallback pollFd hangup)
  | _, _ => none

end ServerLife

/-- A life of a server as a machine. -/
def lifeMachine (ω : Type) : Machine (ServerLife ω) LifeAction FdEvent := ⟨ServerLife.step⟩

/-! ## What the server holds -/

/-- The descriptor in a field that is `-1` when there is none. -/
def descriptor (fd : Int) : Multiset Int := if fd = -1 then 0 else {fd}

/-- The descriptors in the fields of the server. -/
def held (s : SocketServer ω) : Multiset Int := descriptor s.clientFd + descriptor s.serverFd

theorem descriptor_none : descriptor (-1) = 0 := rfl

theorem descriptor_some {fd : Int} (h : fd ≠ -1) : descriptor fd = {fd} := if_neg h

/-- `close` of what is open releases it. -/
theorem closeOpen_legal (fd : Int) (rest : Multiset Int) :
    Legal (descriptor fd + rest) (closeOpen fd) rest := by
  unfold closeOpen
  by_cases h : fd = -1
  · rw [h, descriptor_none, Multiset.zero_add]
    exact .nil
  · rw [if_pos h, descriptor_some h, Multiset.singleton_add]
    exact .release .nil

theorem held_client {s : SocketServer ω} (h : s.clientFd ≠ -1) :
    held s = s.clientFd ::ₘ descriptor s.serverFd := by
  rw [held, descriptor_some h, Multiset.singleton_add]

theorem held_server {s : SocketServer ω} (hclient : s.clientFd = -1) (h : s.serverFd ≠ -1) :
    held s = s.serverFd ::ₘ 0 := by
  rw [held, hclient, descriptor_none, Multiset.zero_add, descriptor_some h]
  rfl

theorem client_mem {s : SocketServer ω} (h : s.clientFd ≠ -1) : s.clientFd ∈ held s := by
  rw [held_client h]
  exact Multiset.mem_cons_self _ _

theorem server_mem {s : SocketServer ω} (h : s.serverFd ≠ -1) : s.serverFd ∈ held s := by
  rw [held, descriptor_some h]
  exact Multiset.mem_add.2 (.inr (Multiset.mem_singleton_self _))

theorem held_none {s : SocketServer ω} (hclient : s.clientFd = -1) (hserver : s.serverFd = -1) :
    held s = 0 := by
  rw [held, hclient, hserver]
  rfl

/-! ## The invariant -/

namespace ServerLife

/-- What the place the thread is in says about the fields. -/
def Fits (l : ServerLife ω) : Prop :=
  match l.place with
  | .idle => True
  | .socket => l.startCalled = true ∧ l.server.serverFd = -1 ∧ l.server.clientFd = -1
  | .setsockopt | .inetPton | .bind | .listen | .accept =>
    l.startCalled = true ∧ l.server.serverFd ≠ -1 ∧ l.server.clientFd = -1
  | .getFlags | .setFlags =>
    l.startCalled = true ∧ l.server.clientFd ≠ -1 ∧ l.server.running = false
  | .poll pollFd | .recv pollFd _ => l.server.running = true ∧ l.server.clientFd = pollFd
  | .callback pollFd _ => l.server.running = true → l.server.clientFd = pollFd
  | .destroyed => l.server.serverFd = -1 ∧ l.server.clientFd = -1

end ServerLife

structure LifeInv (l : ServerLife ω) : Prop where
  fits : l.Fits
  unstarted : l.startCalled = false → l.server.serverFd = -1 ∧ l.server.clientFd = -1
  connected : l.server.running = true → l.server.clientFd ≠ -1

/-- A step that does with descriptors what the fields allow, and keeps the
invariant. -/
structure Keeps (l : ServerLife ω) (r : ServerLife ω × List FdEvent) : Prop where
  legal : Legal (held l.server) r.2 (held r.1.server)
  inv : LifeInv r.1
  valid : .acquire (-1) ∉ r.2

variable {l : ServerLife ω}

theorem LifeInv.idle (h : LifeInv l) : LifeInv { l with place := .idle } :=
  ⟨trivial, h.unstarted, h.connected⟩

/-- To stop closes what there is and keeps nothing, wherever it is called. -/
theorem stop_keeps (l : ServerLife ω) {place : Place}
    (hfits : ServerLife.Fits { l.stop.1 with place }) :
    Keeps l ({ l.stop.1 with place }, l.stop.2) where
  legal := by
    have hserver := closeOpen_legal l.server.serverFd 0
    rw [Multiset.add_zero] at hserver
    exact (closeOpen_legal l.server.clientFd _).append hserver
  inv := ⟨hfits, fun _ => ⟨rfl, rfl⟩, fun hrunning => absurd hrunning Bool.false_ne_true⟩
  valid := by
    have hnone (fd : Int) : .acquire (-1) ∉ closeOpen fd := by
      unfold closeOpen
      split
      next => simp
      next => simp
    intro hmem
    rcases List.mem_append.mp hmem with h | h
    · exact hnone _ h
    · exact hnone _ h

section Calls

variable {l' : ServerLife ω}

theorem quiet_keeps (hheld : held l'.server = held l.server) (hinv : LifeInv l') :
    Keeps l (l', []) where
  legal := by
    rw [hheld]
    exact .nil
  inv := hinv
  valid := List.not_mem_nil

/-- A call on a descriptor that is held. -/
theorem use_keeps {op : FdCall} {fd : Int} (hheld : held l'.server = held l.server)
    (hfd : fd ∈ held l.server) (hinv : LifeInv l') : Keeps l (l', [.use op fd]) where
  legal := by
    rw [hheld]
    exact .use hfd .nil
  inv := hinv
  valid := by simp

/-- A descriptor is returned, stored in a field that was `-1`, and used. -/
theorem acquire_keeps {op : FdCall} {fd : Int} (hfd : fd ≠ -1)
    (hheld : held l'.server = fd ::ₘ held l.server) (hinv : LifeInv l') :
    Keeps l (l', [.acquire fd, .use op fd]) where
  legal := by
    rw [hheld]
    exact .acquire (.use (Multiset.mem_cons_self _ _) .nil)
  inv := hinv
  valid := by simpa using Ne.symm hfd

/-- A held descriptor is closed and its field set to `-1`. -/
theorem release_keeps {fd : Int} (hheld : held l.server = fd ::ₘ held l'.server)
    (hinv : LifeInv l') : Keeps l (l', [.release fd]) where
  legal := by
    rw [hheld]
    exact .release .nil
  inv := hinv
  valid := by simp

end Calls

/-! ## `start` -/

theorem failInit_keeps (h : LifeInv l) (hserver : l.server.serverFd ≠ -1)
    (hclient : l.server.clientFd = -1) : Keeps l l.failInit := by
  have hafter : held { l.server with serverFd := -1 } = 0 := held_none hclient rfl
  apply release_keeps
  · rw [held_server hclient hserver]
    exact congrArg _ hafter.symm
  · exact ⟨trivial, fun _ => ⟨rfl, hclient⟩, h.connected⟩

theorem failClient_keeps (hstarted : l.startCalled = true) (hclient : l.server.clientFd ≠ -1)
    (hrunning : l.server.running = false) : Keeps l l.failClient := by
  apply release_keeps
  · rw [held_client hclient, held, descriptor_none, Multiset.zero_add]
  · refine ⟨trivial, fun hnot => ?_, fun hrun => ?_⟩
    · exact absurd (hstarted.symm.trans hnot) (by decide)
    · exact absurd (hrunning.symm.trans hrun) (by decide)

theorem afterSocket_keeps (h : LifeInv l) (fd : Int)
    (hfits : l.startCalled = true ∧ l.server.serverFd = -1 ∧ l.server.clientFd = -1) :
    Keeps l (l.afterSocket fd) := by
  obtain ⟨hstarted, hserver, hclient⟩ := hfits
  unfold ServerLife.afterSocket
  split
  next hfd =>
    subst hfd
    have hafter : held { l.server with serverFd := -1 } = 0 := held_none hclient rfl
    apply quiet_keeps
    · rw [held_none hclient hserver]
      exact hafter
    · exact ⟨trivial, fun _ => ⟨rfl, hclient⟩, h.connected⟩
  next hfd =>
    have hafter : held { l.server with serverFd := fd } = fd ::ₘ 0 := held_server hclient hfd
    apply acquire_keeps hfd
    · rw [held_none hclient hserver]
      exact hafter
    · refine ⟨⟨hstarted, hfd, hclient⟩, fun hnot => ?_, h.connected⟩
      exact absurd (hstarted.symm.trans hnot) (by decide)

/-- `init_socket` behind a call on the socket: it goes on to the next or gives
up. -/
theorem afterCall_keeps (h : LifeInv l) {place : Place} {es : List FdEvent} {failed : Prop}
    [Decidable failed]
    (hfits : l.startCalled = true ∧ l.server.serverFd ≠ -1 ∧ l.server.clientFd = -1)
    (hplace : ServerLife.Fits { l with place })
    (hes : es = [] ∨ ∃ op, es = [.use op l.server.serverFd]) :
    Keeps l (if failed then l.failInit else ({ l with place }, es)) := by
  obtain ⟨hstarted, hserver, hclient⟩ := hfits
  split
  next => exact failInit_keeps h hserver hclient
  next =>
    have hinv : LifeInv { l with place } := ⟨hplace, h.unstarted, h.connected⟩
    rcases hes with rfl | ⟨op, rfl⟩
    · exact quiet_keeps rfl hinv
    · exact use_keeps rfl (server_mem hserver) hinv

theorem afterAccept_keeps (h : LifeInv l) (fd : Int)
    (hfits : l.startCalled = true ∧ l.server.serverFd ≠ -1 ∧ l.server.clientFd = -1) :
    Keeps l (l.afterAccept fd) := by
  obtain ⟨hstarted, hserver, hclient⟩ := hfits
  have hrunning : l.server.running = false := by
    rw [Bool.eq_false_iff]
    exact fun hrun => h.connected hrun hclient
  have hunstarted {P : Prop} (hnot : l.startCalled = false) : P :=
    absurd (hstarted.symm.trans hnot) (by decide)
  unfold ServerLife.afterAccept
  split
  next hfd =>
    subst hfd
    apply quiet_keeps
    · rw [held, held, hclient]
    · exact ⟨trivial, hunstarted, fun hrun => absurd (hrunning.symm.trans hrun) (by decide)⟩
  next hfd =>
    have hafter : held { l.server with clientFd := fd } = fd ::ₘ descriptor l.server.serverFd :=
      held_client hfd
    have hbefore : held l.server = descriptor l.server.serverFd := by
      rw [held, hclient, descriptor_none, Multiset.zero_add]
    apply acquire_keeps hfd
    · rw [hbefore]
      exact hafter
    · exact ⟨⟨hstarted, hfd, hrunning⟩, hunstarted, fun _ => hfd⟩

theorem afterGetFlags_keeps (h : LifeInv l) (flags : Int)
    (hfits : l.startCalled = true ∧ l.server.clientFd ≠ -1 ∧ l.server.running = false) :
    Keeps l (l.afterGetFlags flags) := by
  unfold ServerLife.afterGetFlags
  split
  next => exact failClient_keeps hfits.1 hfits.2.1 hfits.2.2
  next => exact use_keeps rfl (client_mem hfits.2.1) ⟨hfits, h.unstarted, h.connected⟩

theorem afterSetFlags_keeps (h : LifeInv l) (result : Int)
    (hfits : l.startCalled = true ∧ l.server.clientFd ≠ -1 ∧ l.server.running = false) :
    Keeps l (l.afterSetFlags result) := by
  unfold ServerLife.afterSetFlags
  split
  next => exact failClient_keeps hfits.1 hfits.2.1 hfits.2.2
  next => exact quiet_keeps rfl ⟨trivial, h.unstarted, fun _ => hfits.2.1⟩

/-! ## `run` -/

section Run

variable {pollFd : Int}

/-- While the server runs, the copy `run` polls is the server's descriptor. -/
theorem loop_keeps (h : LifeInv l)
    (hcopy : l.server.running = true → l.server.clientFd = pollFd) : Keeps l (l.loop pollFd) := by
  unfold ServerLife.loop
  split
  next hrun =>
    have hmem : pollFd ∈ held l.server := by
      rw [← hcopy hrun]
      exact client_mem (h.connected hrun)
    exact use_keeps rfl hmem ⟨⟨hrun, hcopy hrun⟩, h.unstarted, h.connected⟩
  next => exact quiet_keeps rfl h.idle

theorem endTurn_keeps (h : LifeInv l) (hangup : Bool)
    (hcopy : l.server.running = true → l.server.clientFd = pollFd) :
    Keeps l (l.endTurn pollFd hangup) := by
  unfold ServerLife.endTurn
  split
  next => exact quiet_keeps rfl h.idle
  next => exact loop_keeps h hcopy

theorem afterPoll_keeps (h : LifeInv l) (pollResult : Int) (interrupted pollin hangup : Bool)
    (hfits : l.server.running = true ∧ l.server.clientFd = pollFd) :
    Keeps l (l.afterPoll pollFd pollResult interrupted pollin hangup) := by
  have hcopy (_ : l.server.running = true) : l.server.clientFd = pollFd := hfits.2
  unfold ServerLife.afterPoll
  split
  next =>
    split
    next => exact loop_keeps h hcopy
    next => exact quiet_keeps rfl h.idle
  next =>
    split
    next => exact loop_keeps h hcopy
    next =>
      split
      next =>
        exact use_keeps rfl (client_mem (h.connected hfits.1)) ⟨hfits, h.unstarted, h.connected⟩
      next => exact endTurn_keeps h hangup hcopy

theorem afterCallback_keeps (h : LifeInv l) (hangup : Bool)
    (hcopy : l.server.running = true → l.server.clientFd = pollFd) :
    Keeps l (l.afterCallback pollFd hangup) := by
  have hinv : LifeInv { l with server := { l.server with clientBuffer := [] } } :=
    ⟨h.fits, h.unstarted, h.connected⟩
  have hkeeps := endTurn_keeps hinv hangup hcopy
  exact ⟨hkeeps.legal, hkeeps.inv, hkeeps.valid⟩

/-- A server that was stopped in `handle_recv` is not polled again: `run`
returns. -/
theorem stopTurn_eq (l : ServerLife ω) (pollFd : Int) (hangup : Bool) :
    l.stopTurn pollFd hangup = ({ l.stop.1 with place := .idle }, l.stop.2) := by
  have hturn : l.stop.1.endTurn pollFd hangup = ({ l.stop.1 with place := .idle }, []) := by
    cases hangup with
    | true => rfl
    | false => rfl
  show ((l.stop.1.endTurn pollFd hangup).1, l.stop.2 ++ (l.stop.1.endTurn pollFd hangup).2) = _
  rw [hturn, List.append_nil]

theorem afterRecv_keeps (h : LifeInv l) (hangup : Bool) (result : RecvResult)
    (hfits : l.server.running = true ∧ l.server.clientFd = pollFd) :
    Keeps l (l.afterRecv pollFd hangup result) := by
  have hcopy (_ : l.server.running = true) : l.server.clientFd = pollFd := hfits.2
  cases result with
  | data chunk =>
    exact use_keeps rfl (client_mem (h.connected hfits.1)) ⟨h.fits, h.unstarted, h.connected⟩
  | again =>
    unfold ServerLife.afterRecv
    dsimp only
    split
    next => exact endTurn_keeps h hangup hcopy
    next =>
      split
      next => exact quiet_keeps rfl ⟨hcopy, h.unstarted, h.connected⟩
      next => exact afterCallback_keeps h hangup hcopy
  | closed =>
    rw [ServerLife.afterRecv, stopTurn_eq]
    exact stop_keeps l trivial
  | error =>
    rw [ServerLife.afterRecv, stopTurn_eq]
    exact stop_keeps l trivial

end Run

/-! ## A whole life -/

theorem step_keeps {a : LifeAction} {r : ServerLife ω × List FdEvent} (h : LifeInv l)
    (hstep : l.step a = some r) : Keeps l r := by
  have hfits := h.fits
  unfold ServerLife.step at hstep
  unfold ServerLife.Fits at hfits
  split at hstep
  next hplace =>
    -- `start` is called, the fields being as constructed
    split at hstep
    next => exact absurd hstep (by simp)
    next hnot =>
      obtain rfl := Option.some.inj hstep
      have hnone := h.unstarted (Bool.eq_false_iff.mpr hnot)
      exact quiet_keeps rfl ⟨⟨rfl, hnone⟩, fun hfalse => absurd hfalse (by simp), h.connected⟩
  next hplace =>
    obtain rfl := Option.some.inj hstep
    exact loop_keeps h fun _ => rfl
  next hplace =>
    obtain rfl := Option.some.inj hstep
    have hstop : ServerLife.Fits { l.stop.1 with place := l.place } := by
      rw [hplace]
      trivial
    exact stop_keeps l hstop
  next hplace =>
    obtain rfl := Option.some.inj hstep
    exact stop_keeps l ⟨rfl, rfl⟩
  next fd hplace =>
    obtain rfl := Option.some.inj hstep
    rw [hplace] at hfits
    exact afterSocket_keeps h fd hfits
  next result hplace =>
    obtain rfl := Option.some.inj hstep
    rw [hplace] at hfits
    exact afterCall_keeps h hfits hfits (.inl rfl)
  next result hplace =>
    obtain rfl := Option.some.inj hstep
    rw [hplace] at hfits
    exact afterCall_keeps h hfits hfits (.inr ⟨_, rfl⟩)
  next result hplace =>
    obtain rfl := Option.some.inj hstep
    rw [hplace] at hfits
    exact afterCall_keeps h hfits hfits (.inr ⟨_, rfl⟩)
  next result hplace =>
    obtain rfl := Option.some.inj hstep
    rw [hplace] at hfits
    exact afterCall_keeps h hfits hfits (.inr ⟨_, rfl⟩)
  next fd hplace =>
    obtain rfl := Option.some.inj hstep
    rw [hplace] at hfits
    exact afterAccept_keeps h fd hfits
  next flags hplace =>
    obtain rfl := Option.some.inj hstep
    rw [hplace] at hfits
    exact afterGetFlags_keeps h flags hfits
  next result hplace =>
    obtain rfl := Option.some.inj hstep
    rw [hplace] at hfits
    exact afterSetFlags_keeps h result hfits
  next pollFd pollResult interrupted pollin hangup hplace =>
    obtain rfl := Option.some.inj hstep
    rw [hplace] at hfits
    exact afterPoll_keeps h pollResult interrupted pollin hangup hfits
  next pollFd hangup result hplace =>
    obtain rfl := Option.some.inj hstep
    rw [hplace] at hfits
    exact afterRecv_keeps h hangup result hfits
  next pollFd hangup hplace =>
    -- the callback calls `stop`, and the thread is still in it
    obtain rfl := Option.some.inj hstep
    have hstop : ServerLife.Fits { l.stop.1 with place := l.place } := by
      rw [hplace]
      exact fun hrun => absurd hrun Bool.false_ne_true
    exact stop_keeps l hstop
  next pollFd hangup hplace =>
    obtain rfl := Option.some.inj hstep
    rw [hplace] at hfits
    exact afterCallback_keeps h hangup hfits
  next => exact absurd hstep (by simp)

/-- The invariant at the start. -/
theorem lifeInv_construct (messageCallback : Option (Bytes → ω → ω)) (w : ω) :
    LifeInv (ServerLife.construct messageCallback w) :=
  ⟨trivial, fun _ => ⟨rfl, rfl⟩, fun h => absurd h Bool.false_ne_true⟩

/-- A run from construction is legal: it leaves what the fields hold. -/
theorem run_legal {messageCallback : Option (Bytes → ω → ω)} {w : ω} {as : List LifeAction}
    {es : List FdEvent}
    (h : (lifeMachine ω).run (.construct messageCallback w) as = some (l, es)) :
    LifeInv l ∧ Legal 0 es (held l.server) ∧ .acquire (-1) ∉ es := by
  refine (lifeMachine ω).run_induction
    (P := fun _ l es => LifeInv l ∧ Legal 0 es (held l.server) ∧ .acquire (-1) ∉ es)
    ⟨lifeInv_construct messageCallback w, .nil, List.not_mem_nil⟩ ?_ h
  intro as a l es l' es' _ hl hstep
  obtain ⟨hinv, hlegal, hvalid⟩ := hl
  have hkeeps := step_keeps hinv hstep
  refine ⟨hkeeps.inv, hlegal.append hkeeps.legal, fun hmem => ?_⟩
  rcases List.mem_append.mp hmem with hmem | hmem
  · exact hvalid hmem
  · exact hkeeps.valid hmem

/-- **Descriptors are owned.** In every life of a server, whatever the system
calls return: behind the destructor each descriptor has been closed as often
as it was returned; it is never closed when it is not open, and `-1` never;
and no call, `poll` and `recv` among them, is made on a descriptor that is not
open. -/
theorem descriptors_owned {messageCallback : Option (Bytes → ω → ω)} {w : ω}
    {as : List LifeAction} {es : List FdEvent}
    (h : (lifeMachine ω).run (.construct messageCallback w) as = some (l, es)) :
    (l.place = .destroyed → ∀ fd, acquires fd es = releases fd es)
      ∧ (∀ pre fd post, es = pre ++ .release fd :: post →
        fd ≠ -1 ∧ releases fd pre < acquires fd pre)
      ∧ ∀ pre op fd post, es = pre ++ .use op fd :: post → releases fd pre < acquires fd pre := by
  obtain ⟨hinv, hlegal, hvalid⟩ := run_legal h
  refine ⟨fun hdestroyed => ?_, fun pre fd post hsplit => ?_, fun pre op fd post hsplit => ?_⟩
  · have hfits := hinv.fits
    rw [ServerLife.Fits, hdestroyed] at hfits
    rw [held_none hfits.2 hfits.1] at hlegal
    exact hlegal.all_released
  · have howned := hlegal.release_owned hsplit
    refine ⟨?_, howned⟩
    rintro rfl
    have hmem := acquire_mem (Nat.lt_of_le_of_lt (Nat.zero_le _) howned)
    exact hvalid (hsplit ▸ List.mem_append_left _ hmem)
  · exact hlegal.use_owned hsplit

/-- A served client: accepted, polled, read once with its message handed over,
and closed by its orderly end in the same turn as the hangup. -/
def servedLife : List LifeAction :=
  [.start, .socket 3, .setsockopt 0, .inetPton 1, .bind 0, .listen 0, .accept 4, .getFlags 2,
    .setFlags 0, .run, .poll (-1) true false false,
    .poll 1 false true false, .recv (.data ⟨ascii "x", by decide, by decide⟩), .recv .again,
    .callbackReturns, .poll 1 false true true, .recv .closed, .stop, .destroy]

theorem descriptors_owned_servedLife :
    ∃ l es, (lifeMachine Bytes).run (.construct (some (· ++ ·)) []) servedLife = some (l, es)
      ∧ l.place = .destroyed ∧ (∀ fd, acquires fd es = releases fd es)
      ∧ acquires 3 es = 1 ∧ acquires 4 es = 1 := by
  obtain ⟨l, es, hrun, hdestroyed, hacquired⟩ : ∃ l es,
      (lifeMachine Bytes).run (.construct (some (· ++ ·)) []) servedLife = some (l, es)
        ∧ l.place = .destroyed ∧ acquires 3 es = 1 ∧ acquires 4 es = 1 :=
    ⟨_, _, rfl, rfl, rfl, rfl⟩
  exact ⟨l, es, hrun, hdestroyed, (descriptors_owned hrun).1 hdestroyed, hacquired⟩

/-! ## `handle_recv` in a life -/

/-- The results of `recv` in a schedule. -/
def recvResults (as : List LifeAction) : List RecvResult :=
  as.filterMap fun
    | .recv result => some result
    | _ => none

theorem run_one {l : ServerLife ω} {a : LifeAction} {r : ServerLife ω × List FdEvent}
    (h : l.step a = some r) : (lifeMachine ω).run l [a] = some (r.1, r.2 ++ []) :=
  (lifeMachine ω).run_cons h ((lifeMachine ω).run_nil r.1)

/-- A turn ends the same wherever the thread was. -/
theorem endTurn_place (s : SocketServer ω) (w : ω) (pollFd : Int) (hangup started : Bool)
    (p q : Place) :
    ServerLife.endTurn pollFd hangup ⟨s, w, p, started⟩
      = ServerLife.endTurn pollFd hangup ⟨s, w, q, started⟩ := by
  cases hangup with
  | true => rfl
  | false => rfl

section Again

variable {pollFd : Int} {hangup : Bool}

theorem again_empty (hempty : l.server.clientBuffer.isEmpty = true) :
    l.afterRecv pollFd hangup .again = l.endTurn pollFd hangup := if_pos hempty

theorem again_ignored (hempty : l.server.clientBuffer.isEmpty = false)
    (hcallback : l.server.messageCallback = none) :
    l.afterRecv pollFd hangup .again = l.afterCallback pollFd hangup := by
  unfold ServerLife.afterRecv
  dsimp only
  rw [hempty, hcallback]
  rfl

theorem again_called {callback : Bytes → ω → ω} (hempty : l.server.clientBuffer.isEmpty = false)
    (hcallback : l.server.messageCallback = some callback) :
    l.afterRecv pollFd hangup .again
      = ({ l with world := callback l.server.clientBuffer l.world,
                  place := .callback pollFd hangup }, []) := by
  unfold ServerLife.afterRecv
  dsimp only
  rw [hempty, hcallback]
  rfl

end Again

/-- The end of a drain: the message goes to the callback, and the turn ends. -/
theorem deliver_life (s : SocketServer ω) (w : ω) (pollFd : Int) (hangup started : Bool)
    (place : Place) :
    ∃ as es, recvResults as = [.again]
      ∧ (lifeMachine ω).run ⟨s, w, .recv pollFd hangup, started⟩ as
        = some ((ServerLife.endTurn pollFd hangup
            ⟨(s.deliver w).1, (s.deliver w).2, place, started⟩).1, es) := by
  cases hempty : s.clientBuffer.isEmpty with
  | true =>
    have hdeliver : s.deliver w = (s, w) := if_pos hempty
    rw [hdeliver, endTurn_place _ _ _ _ _ place (.recv pollFd hangup)]
    exact ⟨[.recv .again], _, rfl, run_one (congrArg some (again_empty hempty))⟩
  | false =>
    cases hcallback : s.messageCallback with
    | none =>
      have hdeliver : s.deliver w = ({ s with clientBuffer := [] }, w) := by
        rw [SocketServer.deliver, hempty, hcallback]
        rfl
      rw [hdeliver, endTurn_place _ _ _ _ _ place (.recv pollFd hangup)]
      exact ⟨[.recv .again], _, rfl, run_one (congrArg some (again_ignored hempty hcallback))⟩
    | some callback =>
      have hdeliver : s.deliver w
          = ({ s with clientBuffer := [] }, callback s.clientBuffer w) := by
        rw [SocketServer.deliver, hempty, hcallback]
        rfl
      have hcalled : ServerLife.step ⟨s, w, .recv pollFd hangup, started⟩ (.recv .again)
          = some (⟨s, callback s.clientBuffer w, .callback pollFd hangup, started⟩, []) :=
        congrArg some (again_called hempty hcallback)
      rw [hdeliver, endTurn_place _ _ _ _ _ place (.callback pollFd hangup)]
      exact ⟨[.recv .again, .callbackReturns], _, rfl,
        (lifeMachine ω).run_cons hcalled (run_one rfl)⟩

/-- A call of `handle_recv` is the steps of a life from its first `recv` on,
as long as the callback does not stop the server. -/
theorem handleRecv_life {s s' : SocketServer ω} {w w' : ω} {script rest : List RecvResult}
    (h : s.handleRecv w script = some (s', w', rest)) (pollFd : Int) (hangup started : Bool)
    (place : Place) :
    ∃ as es, recvResults as ++ rest = script
      ∧ (lifeMachine ω).run ⟨s, w, .recv pollFd hangup, started⟩ as
        = some ((ServerLife.endTurn pollFd hangup ⟨s', w', place, started⟩).1, es) := by
  induction script generalizing s w with
  | nil => exact absurd h (by simp [SocketServer.handleRecv])
  | cons r script ih =>
    cases r with
    | data chunk =>
      obtain ⟨as, es, hscript, hrun⟩ := ih h
      exact ⟨.recv (.data chunk) :: as, _, congrArg _ hscript, (lifeMachine ω).run_cons rfl hrun⟩
    | again =>
      cases h
      obtain ⟨as, es, hresults, hrun⟩ := deliver_life s w pollFd hangup started place
      exact ⟨as, es, by rw [hresults]; rfl, hrun⟩
    | closed =>
      cases h
      rw [endTurn_place _ _ _ _ _ place (.recv pollFd hangup)]
      exact ⟨[.recv .closed], _, rfl,
        run_one (r := ServerLife.stopTurn pollFd hangup ⟨s, w', _, started⟩) rfl⟩
    | error =>
      cases h
      rw [endTurn_place _ _ _ _ _ place (.recv pollFd hangup)]
      exact ⟨[.recv .error], _, rfl,
        run_one (r := ServerLife.stopTurn pollFd hangup ⟨s, w', _, started⟩) rfl⟩

end LogMetrics.MetricsApplication
