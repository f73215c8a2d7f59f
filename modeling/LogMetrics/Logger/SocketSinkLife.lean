import LogMetrics.Base.Machine
import LogMetrics.Base.Resource
import LogMetrics.Logger.FileContents

/-!
# The life of a `SocketSink`, one system call at a time

`src/logger/socket_sink.cpp`: the object is constructed, which tries to
connect, is written to and is destroyed, by one thread (the logger holds its
mutex around each `write`). A step goes from one system call to the next, with
what the call returned as its action; `SinkPlace` says which call the thread
is in. Nothing but the constructor connects, and it leaves a socket that could
not be connected open until the destructor.

`writes_refine` connects this with the sink of `SocketSink.lean`, whose loop
reads the answers of `poll` and `send` from a list: between the calls of
`write` the one is the other, for some list. `wire_follows` reads off what the
kernel has taken at any time, also in the middle of a record.
-/

namespace LogMetrics.Logger

open LogMetrics.Base

/-- The system calls on the socket, less `close`, with what they are handed:
the address and port of `server_addr`, and the bytes to send. -/
inductive SinkCall where
  | getFlags
  | setFlags
  | connect (host : Bytes) (port : UInt16)
  | getsockopt
  | poll
  | send (data : Bytes)
  deriving DecidableEq, Repr

abbrev SinkEvent := ResourceEvent Int SinkCall

/-- Where the thread is: in a system call of `init_socket` or
`connect_to_server`, with the owner, or in a call of the loop of `write`. -/
inductive SinkPlace where
  | socket
  | getFlags
  | setFlags
  | inetPton
  | connect
  | connectPoll
  | getsockopt
  | idle
  | poll (message : Bytes) (totalSent : Nat)
  | send (message : Bytes) (totalSent : Nat)
  | destroyed
  deriving DecidableEq, Repr

/-- A call of the owner or the result of a system call. `inProgress` and
`wouldBlock` are tests of `errno`, `pollout` is one of `revents`, and `error`
what `SO_ERROR` yields. -/
inductive SinkAction where
  | write (message : Bytes)
  | destroy
  | socket (fd : Int)
  | getFlags (flags : Int)
  | setFlags (result : Int)
  | inetPton (result : Int)
  | connect (result : Int) (inProgress : Bool)
  | poll (result : Int) (pollout : Bool)
  | getsockopt (result error : Int)
  | send (sent : Int) (wouldBlock : Bool)
  deriving DecidableEq, Repr

/-- `SocketSink`, the bytes the kernel has taken, and where the thread is. -/
structure SinkLife where
  socketFd : Int
  host : Bytes
  port : Int
  isConnected : Bool
  wire : Bytes
  place : SinkPlace
  deriving DecidableEq, Repr

namespace SinkLife

/-- `SocketSink::SocketSink`, up to `socket`. -/
def construct (host : Bytes) (port : Int) : SinkLife where
  socketFd := -1
  host := host
  port := port
  isConnected := false
  wire := []
  place := .socket

/-- `SocketSink::is_valid`. -/
def isValid (l : SinkLife) : Bool := l.socketFd != -1 && l.isConnected

/-- `connect_to_server`, up to `inet_pton`. -/
def connectToServer (l : SinkLife) : SinkLife × List SinkEvent :=
  if l.socketFd = -1 then ({ l with place := .idle }, []) else ({ l with place := .inetPton }, [])

/-- `init_socket` when `set_non_blocking` has returned false. The constructor
calls `connect_to_server` all the same. -/
def failInit (l : SinkLife) : SinkLife × List SinkEvent :=
  let (l', events) := { l with socketFd := -1 }.connectToServer
  (l', .release l.socketFd :: events)

/-- `init_socket` behind `socket`. -/
def afterSocket (fd : Int) (l : SinkLife) : SinkLife × List SinkEvent :=
  if fd = -1 then { l with socketFd := fd }.connectToServer
  else ({ l with socketFd := fd, place := .getFlags }, [.acquire fd, .use .getFlags fd])

/-- `set_non_blocking` behind its first `fcntl`. -/
def afterGetFlags (flags : Int) (l : SinkLife) : SinkLife × List SinkEvent :=
  if flags = -1 then l.failInit else ({ l with place := .setFlags }, [.use .setFlags l.socketFd])

/-- `set_non_blocking` behind its second `fcntl`, and the end of
`init_socket`. -/
def afterSetFlags (result : Int) (l : SinkLife) : SinkLife × List SinkEvent :=
  if result = -1 then l.failInit else l.connectToServer

/-- `connect_to_server` behind `inet_pton`; `htons` takes 16 bits of
`port_`. -/
def afterInetPton (result : Int) (l : SinkLife) : SinkLife × List SinkEvent :=
  if result ≤ 0 then ({ l with place := .idle }, [])
  else ({ l with place := .connect }, [.use (.connect l.host (UInt16.ofInt l.port)) l.socketFd])

/-- `connect_to_server` behind `connect`. -/
def afterConnect (result : Int) (inProgress : Bool) (l : SinkLife) : SinkLife × List SinkEvent :=
  if result = 0 then ({ l with isConnected := true, place := .idle }, [])
  else if inProgress then ({ l with place := .connectPoll }, [.use .poll l.socketFd])
  else ({ l with place := .idle }, [])

/-- What `wait_for_socket_ready` returns. -/
def isReady (result : Int) (pollout : Bool) : Bool := decide (result > 0) && pollout

/-- `connect_to_server` behind `poll`. -/
def afterConnectPoll (result : Int) (pollout : Bool) (l : SinkLife) :
    SinkLife × List SinkEvent :=
  if isReady result pollout then ({ l with place := .getsockopt }, [.use .getsockopt l.socketFd])
  else ({ l with place := .idle }, [])

/-- `connect_to_server` behind `getsockopt`. -/
def afterGetsockopt (result error : Int) (l : SinkLife) : SinkLife × List SinkEvent :=
  if result = 0 ∧ error = 0 then ({ l with isConnected := true, place := .idle }, [])
  else ({ l with place := .idle }, [])

/-- `while (total_sent < message.size())`: the next `poll`, or `write`
returns. -/
def loop (message : Bytes) (totalSent : Nat) (l : SinkLife) : SinkLife × List SinkEvent :=
  if totalSent < message.length then
    ({ l with place := .poll message totalSent }, [.use .poll l.socketFd])
  else ({ l with place := .idle }, [])

/-- `write`, up to its first `poll`. -/
def write (message : Bytes) (l : SinkLife) : SinkLife × List SinkEvent :=
  if not l.isValid then (l, []) else l.loop message 0

/-- The failure exits of `write`. -/
def disconnect (l : SinkLife) : SinkLife × List SinkEvent :=
  ({ l with isConnected := false, place := .idle }, [])

/-- A turn of the loop behind `poll`. -/
def afterPoll (message : Bytes) (totalSent : Nat) (result : Int) (pollout : Bool)
    (l : SinkLife) : SinkLife × List SinkEvent :=
  if isReady result pollout then
    ({ l with place := .send message totalSent },
      [.use (.send (message.drop totalSent)) l.socketFd])
  else l.disconnect

/-- A turn of the loop behind `send`. -/
def afterSend (message : Bytes) (totalSent : Nat) (sent : Int) (wouldBlock : Bool)
    (l : SinkLife) : SinkLife × List SinkEvent :=
  if sent = -1 then if wouldBlock then l.loop message totalSent else l.disconnect
  else
    loop message (totalSent + sent.toNat)
      { l with wire := l.wire ++ (message.drop totalSent).take sent.toNat }

/-- `SocketSink::~SocketSink`, that is `cleanup_socket`. -/
def destroy (l : SinkLife) : SinkLife × List SinkEvent :=
  ({ l with socketFd := -1, isConnected := false, place := .destroyed },
    if l.socketFd ≠ -1 then [.release l.socketFd] else [])

/-- `send` returns `-1` or how much it took of what it was handed. -/
def step (l : SinkLife) (a : SinkAction) : Option (SinkLife × List SinkEvent) :=
  match l.place, a with
  | .socket, .socket fd => some (l.afterSocket fd)
  | .getFlags, .getFlags flags => some (l.afterGetFlags flags)
  | .setFlags, .setFlags result => some (l.afterSetFlags result)
  | .inetPton, .inetPton result => some (l.afterInetPton result)
  | .connect, .connect result inProgress => some (l.afterConnect result inProgress)
  | .connectPoll, .poll result pollout => some (l.afterConnectPoll result pollout)
  | .getsockopt, .getsockopt result error => some (l.afterGetsockopt result error)
  | .idle, .write message => some (l.write message)
  | .idle, .destroy => some l.destroy
  | .poll message totalSent, .poll result pollout =>
    some (l.afterPoll message totalSent result pollout)
  | .send message totalSent, .send sent wouldBlock =>
    if -1 ≤ sent ∧ sent ≤ ↑(message.length - totalSent) then
      some (l.afterSend message totalSent sent wouldBlock)
    else none
  | _, _ => none

end SinkLife

/-- A life of a sink as a machine. -/
def sinkMachine : Machine SinkLife SinkAction SinkEvent := ⟨SinkLife.step⟩

/-! ## The socket -/

namespace SinkLife

/-- The descriptor in `socket_fd_`, if there is one. -/
def held (l : SinkLife) : Multiset Int := if l.socketFd = -1 then 0 else {l.socketFd}

/-- What the place the thread is in says about the fields. -/
def Fits (l : SinkLife) : Prop :=
  match l.place with
  | .socket => l.socketFd = -1 ∧ l.isConnected = false
  | .getFlags | .setFlags | .inetPton | .connect | .connectPoll | .getsockopt =>
    l.socketFd ≠ -1 ∧ l.isConnected = false
  | .idle => l.isConnected = true → l.socketFd ≠ -1
  | .poll message totalSent | .send message totalSent =>
    l.socketFd ≠ -1 ∧ l.isConnected = true ∧ totalSent < message.length
  | .destroyed => l.socketFd = -1 ∧ l.isConnected = false

theorem held_none {l : SinkLife} (h : l.socketFd = -1) : l.held = 0 := if_pos h

theorem held_some {l : SinkLife} (h : l.socketFd ≠ -1) : l.held = {l.socketFd} := if_neg h

theorem mem_held {l : SinkLife} (h : l.socketFd ≠ -1) : l.socketFd ∈ l.held := by
  rw [held_some h]
  exact Multiset.mem_singleton_self _

end SinkLife

/-- How often a descriptor was acquired. -/
def opened (es : List SinkEvent) : Nat :=
  es.countP fun
    | .acquire _ => true
    | _ => false

theorem opened_append (es fs : List SinkEvent) : opened (es ++ fs) = opened es + opened fs :=
  List.countP_append

/-- A step does with the descriptor what the field allows, keeps `Fits`, and
opens a socket only at the start. -/
structure SinkKeeps (l : SinkLife) (r : SinkLife × List SinkEvent) : Prop where
  legal : Legal l.held r.2 r.1.held
  fits : r.1.Fits
  valid : .acquire (-1) ∉ r.2
  once : opened r.2 = 0 ∨ (l.place = .socket ∧ opened r.2 = 1)
  past : r.1.place ≠ .socket

section Keeps

variable {l l' : SinkLife}

theorem quiet_sinkKeeps (hfd : l'.socketFd = l.socketFd) (hfits : l'.Fits)
    (hpast : l'.place ≠ .socket) : SinkKeeps l (l', []) where
  legal := by
    show Legal l.held [] l'.held
    rw [SinkLife.held, SinkLife.held, hfd]
    exact .nil
  fits := hfits
  valid := List.not_mem_nil
  once := .inl rfl
  past := hpast

/-- A call on the socket. -/
theorem use_sinkKeeps {op : SinkCall} (hopen : l.socketFd ≠ -1) (hfd : l'.socketFd = l.socketFd)
    (hfits : l'.Fits) (hpast : l'.place ≠ .socket) :
    SinkKeeps l (l', [.use op l.socketFd]) where
  legal := by
    show Legal l.held _ l'.held
    rw [show l'.held = l.held by rw [SinkLife.held, SinkLife.held, hfd]]
    exact .use (SinkLife.mem_held hopen) .nil
  fits := hfits
  valid := by simp
  once := .inl rfl
  past := hpast

/-- The socket is closed and the field set to `-1`. -/
theorem release_sinkKeeps (hopen : l.socketFd ≠ -1) (hfd : l'.socketFd = -1) (hfits : l'.Fits)
    (hpast : l'.place ≠ .socket) : SinkKeeps l (l', [.release l.socketFd]) where
  legal := by
    show Legal l.held _ l'.held
    rw [SinkLife.held_some hopen, SinkLife.held_none hfd]
    exact .release .nil
  fits := hfits
  valid := by simp
  once := .inl rfl
  past := hpast

end Keeps

variable {l : SinkLife}

theorem connectToServer_closed (h : l.socketFd = -1) :
    l.connectToServer = ({ l with place := .idle }, []) := if_pos h

theorem failInit_sinkKeeps (hopen : l.socketFd ≠ -1) (hconnected : l.isConnected = false) :
    SinkKeeps l l.failInit := by
  unfold SinkLife.failInit
  rw [connectToServer_closed rfl]
  refine release_sinkKeeps hopen rfl (fun h => ?_) (by simp)
  exact absurd (hconnected.symm.trans h) (by simp)

theorem afterSocket_sinkKeeps (fd : Int) (hplace : l.place = .socket) (hfits : l.Fits) :
    SinkKeeps l (l.afterSocket fd) := by
  rw [SinkLife.Fits, hplace] at hfits
  obtain ⟨hclosed, hconnected⟩ := hfits
  unfold SinkLife.afterSocket
  by_cases hfd : fd = -1
  · rw [if_pos hfd, connectToServer_closed (l := { l with socketFd := fd }) hfd]
    refine quiet_sinkKeeps (hfd.trans hclosed.symm) (fun h => ?_) (by simp)
    exact absurd (hconnected.symm.trans h) (by simp)
  · rw [if_neg hfd]
    refine ⟨?_, ⟨hfd, hconnected⟩, by simpa using Ne.symm hfd, .inr ⟨hplace, rfl⟩, by simp⟩
    have hafter : SinkLife.held { l with socketFd := fd, place := .getFlags } = {fd} :=
      SinkLife.held_some (l := { l with socketFd := fd, place := .getFlags }) hfd
    rw [SinkLife.held_none hclosed]
    dsimp only
    rw [hafter]
    exact .acquire (.use (Multiset.mem_singleton_self _) .nil)

section Constructing

variable (hfits : l.socketFd ≠ -1 ∧ l.isConnected = false)
include hfits

/-- `connect_to_server` gives up. -/
theorem giveUp_sinkKeeps : SinkKeeps l ({ l with place := .idle }, []) :=
  quiet_sinkKeeps rfl (fun _ => hfits.1) (by simp)

/-- `connect_to_server` has connected. -/
theorem connected_sinkKeeps : SinkKeeps l ({ l with isConnected := true, place := .idle }, []) :=
  quiet_sinkKeeps rfl (fun _ => hfits.1) (by simp)

theorem afterGetFlags_sinkKeeps (flags : Int) : SinkKeeps l (l.afterGetFlags flags) := by
  unfold SinkLife.afterGetFlags
  split
  next => exact failInit_sinkKeeps hfits.1 hfits.2
  next => exact use_sinkKeeps hfits.1 rfl hfits (by simp)

theorem afterSetFlags_sinkKeeps (result : Int) : SinkKeeps l (l.afterSetFlags result) := by
  unfold SinkLife.afterSetFlags
  split
  next => exact failInit_sinkKeeps hfits.1 hfits.2
  next =>
    rw [SinkLife.connectToServer, if_neg hfits.1]
    exact quiet_sinkKeeps rfl hfits (by simp)

theorem afterInetPton_sinkKeeps (result : Int) : SinkKeeps l (l.afterInetPton result) := by
  unfold SinkLife.afterInetPton
  split
  next => exact giveUp_sinkKeeps hfits
  next => exact use_sinkKeeps hfits.1 rfl hfits (by simp)

theorem afterConnect_sinkKeeps (result : Int) (inProgress : Bool) :
    SinkKeeps l (l.afterConnect result inProgress) := by
  unfold SinkLife.afterConnect
  split
  next => exact connected_sinkKeeps hfits
  next =>
    split
    next => exact use_sinkKeeps hfits.1 rfl hfits (by simp)
    next => exact giveUp_sinkKeeps hfits

theorem afterConnectPoll_sinkKeeps (result : Int) (pollout : Bool) :
    SinkKeeps l (l.afterConnectPoll result pollout) := by
  unfold SinkLife.afterConnectPoll
  split
  next => exact use_sinkKeeps hfits.1 rfl hfits (by simp)
  next => exact giveUp_sinkKeeps hfits

theorem afterGetsockopt_sinkKeeps (result error : Int) :
    SinkKeeps l (l.afterGetsockopt result error) := by
  unfold SinkLife.afterGetsockopt
  split
  next => exact connected_sinkKeeps hfits
  next => exact giveUp_sinkKeeps hfits

end Constructing

section Writing

variable {message : Bytes} {totalSent : Nat}

theorem loop_sinkKeeps (hopen : l.socketFd ≠ -1) (hconnected : l.isConnected = true)
    (message : Bytes) (totalSent : Nat) : SinkKeeps l (l.loop message totalSent) := by
  unfold SinkLife.loop
  split
  next hlt => exact use_sinkKeeps hopen rfl ⟨hopen, hconnected, hlt⟩ (by simp)
  next => exact quiet_sinkKeeps rfl (fun _ => hopen) (by simp)

theorem isValid_iff : l.isValid = true ↔ l.socketFd ≠ -1 ∧ l.isConnected = true := by
  simp [SinkLife.isValid]

theorem write_sinkKeeps (hplace : l.place = .idle) (hfits : l.Fits) (message : Bytes) :
    SinkKeeps l (l.write message) := by
  unfold SinkLife.write
  cases hvalid : l.isValid with
  | false => exact quiet_sinkKeeps rfl hfits (by simp [hplace])
  | true =>
    obtain ⟨hopen, hconnected⟩ := isValid_iff.mp hvalid
    exact loop_sinkKeeps hopen hconnected message 0

theorem disconnect_sinkKeeps : SinkKeeps l l.disconnect :=
  quiet_sinkKeeps rfl (fun h => absurd h (by simp)) (by simp)

theorem afterPoll_sinkKeeps (result : Int) (pollout : Bool)
    (hfits : l.socketFd ≠ -1 ∧ l.isConnected = true ∧ totalSent < message.length) :
    SinkKeeps l (l.afterPoll message totalSent result pollout) := by
  unfold SinkLife.afterPoll
  split
  next => exact use_sinkKeeps hfits.1 rfl hfits (by simp)
  next => exact disconnect_sinkKeeps

theorem afterSend_sinkKeeps (sent : Int) (wouldBlock : Bool)
    (hfits : l.socketFd ≠ -1 ∧ l.isConnected = true ∧ totalSent < message.length) :
    SinkKeeps l (l.afterSend message totalSent sent wouldBlock) := by
  obtain ⟨hopen, hconnected, -⟩ := hfits
  unfold SinkLife.afterSend
  split
  next =>
    split
    next => exact loop_sinkKeeps hopen hconnected message totalSent
    next => exact disconnect_sinkKeeps
  next =>
    -- what was taken is not a field the descriptor depends on
    obtain ⟨hlegal, hfits', hvalid, honce, hpast⟩ :=
      loop_sinkKeeps (l := { l with wire := l.wire ++ (message.drop totalSent).take sent.toNat })
        hopen hconnected message (totalSent + sent.toNat)
    exact ⟨hlegal, hfits', hvalid, honce, hpast⟩

end Writing

theorem destroy_sinkKeeps (l : SinkLife) : SinkKeeps l l.destroy := by
  unfold SinkLife.destroy
  by_cases hfd : l.socketFd = -1
  · rw [if_neg (not_not_intro hfd)]
    exact quiet_sinkKeeps hfd.symm ⟨rfl, rfl⟩ (by simp)
  · rw [if_pos hfd]
    exact release_sinkKeeps hfd rfl ⟨rfl, rfl⟩ (by simp)

theorem step_sinkKeeps {a : SinkAction} {r : SinkLife × List SinkEvent} (hfits : l.Fits)
    (hstep : l.step a = some r) : SinkKeeps l r := by
  have hplace := hfits
  unfold SinkLife.Fits at hplace
  unfold SinkLife.step at hstep
  split at hstep
  next fd hat => cases hstep; exact afterSocket_sinkKeeps fd hat hfits
  next flags hat => cases hstep; rw [hat] at hplace; exact afterGetFlags_sinkKeeps hplace flags
  next result hat => cases hstep; rw [hat] at hplace; exact afterSetFlags_sinkKeeps hplace result
  next result hat => cases hstep; rw [hat] at hplace; exact afterInetPton_sinkKeeps hplace result
  next result inProgress hat =>
    cases hstep; rw [hat] at hplace; exact afterConnect_sinkKeeps hplace result inProgress
  next result pollout hat =>
    cases hstep; rw [hat] at hplace; exact afterConnectPoll_sinkKeeps hplace result pollout
  next result error hat =>
    cases hstep; rw [hat] at hplace; exact afterGetsockopt_sinkKeeps hplace result error
  next message hat => cases hstep; exact write_sinkKeeps hat hfits message
  next hat => cases hstep; exact destroy_sinkKeeps l
  next message totalSent result pollout hat =>
    cases hstep; rw [hat] at hplace; exact afterPoll_sinkKeeps result pollout hplace
  next message totalSent sent wouldBlock hat =>
    split at hstep
    next => cases hstep; rw [hat] at hplace; exact afterSend_sinkKeeps sent wouldBlock hplace
    next => exact absurd hstep (by simp)
  next => exact absurd hstep (by simp)

/-- What every life keeps. -/
theorem run_sinkKeeps {host : Bytes} {port : Int} {as : List SinkAction} {es : List SinkEvent}
    (hrun : sinkMachine.run (.construct host port) as = some (l, es)) :
    l.Fits ∧ Legal 0 es l.held ∧ .acquire (-1) ∉ es
      ∧ opened es ≤ (if l.place = .socket then 0 else 1) := by
  refine sinkMachine.run_induction
    (P := fun _ l es => l.Fits ∧ Legal 0 es l.held ∧ .acquire (-1) ∉ es
      ∧ opened es ≤ (if l.place = .socket then 0 else 1))
    ⟨show (SinkLife.construct host port).Fits from ⟨rfl, rfl⟩, .nil, List.not_mem_nil,
      Nat.le_refl _⟩ ?_ hrun
  intro as a l es l' es' _ hl hstep
  obtain ⟨hfits, hlegal, hvalid, honce⟩ := hl
  have hkeeps := step_sinkKeeps hfits hstep
  refine ⟨hkeeps.fits, hlegal.append hkeeps.legal, fun hmem => ?_, ?_⟩
  · rcases List.mem_append.mp hmem with hmem | hmem
    · exact hvalid hmem
    · exact hkeeps.valid hmem
  · rw [opened_append, if_neg hkeeps.past]
    have hopened : opened es' = 0 ∨ (l.place = .socket ∧ opened es' = 1) := hkeeps.once
    rcases hopened with hnone | ⟨hat, hone⟩
    · split at honce
      next => omega
      next => omega
    · rw [if_pos hat] at honce
      omega

/-- **The socket is owned.** In every life of a sink, whatever the system
calls return: there is at most one socket; behind the destructor it has been
closed as often as it was returned; it is never closed when it is not open, and
`-1` never; and no call, `connect` and `send` among them, is made on a
descriptor that is not open. -/
theorem socket_owned {host : Bytes} {port : Int} {as : List SinkAction} {es : List SinkEvent}
    (hrun : sinkMachine.run (.construct host port) as = some (l, es)) :
    opened es ≤ 1
      ∧ (l.place = .destroyed → ∀ fd, acquires fd es = releases fd es)
      ∧ (∀ pre fd post, es = pre ++ .release fd :: post →
        fd ≠ -1 ∧ releases fd pre < acquires fd pre)
      ∧ ∀ pre op fd post, es = pre ++ .use op fd :: post → releases fd pre < acquires fd pre := by
  obtain ⟨hfits, hlegal, hvalid, honce⟩ := run_sinkKeeps hrun
  refine ⟨?_, fun hdestroyed => ?_, fun pre fd post hsplit => ?_, fun pre op fd post hsplit => ?_⟩
  · split at honce
    next => omega
    next => exact honce
  · rw [SinkLife.Fits, hdestroyed] at hfits
    rw [SinkLife.held_none hfits.1] at hlegal
    exact hlegal.all_released
  · have howned := hlegal.release_owned hsplit
    refine ⟨fun hfd => ?_, howned⟩
    rw [hfd] at howned
    have hmem := acquire_mem (Nat.lt_of_le_of_lt (Nat.zero_le _) howned)
    exact hvalid (hsplit ▸ List.mem_append_left _ hmem)
  · exact hlegal.use_owned hsplit

/-- The connection takes a while, and the first record is sent in two parts,
with a refusal between them. -/
def underWay : List SinkAction :=
  [.socket 3, .getFlags 2, .setFlags 0, .inetPton 1, .connect (-1) true, .poll 1 true,
    .getsockopt 0 0, .write (ascii "abc"), .poll 1 true, .send 2 false, .poll 1 true,
    .send (-1) true]

/-- The rest is not taken, and the next record not even tried. -/
def brokenOff : List SinkAction :=
  underWay ++ [.poll 1 true, .send (-1) false, .write (ascii "de")]

theorem socket_owned_brokenOff :
    ∃ l es, sinkMachine.run (.construct (ascii "127.0.0.1") 9000) (brokenOff ++ [.destroy])
        = some (l, es)
      ∧ l.place = .destroyed ∧ opened es ≤ 1 ∧ acquires 3 es = 1
      ∧ ∀ fd, acquires fd es = releases fd es := by
  obtain ⟨l, es, hrun, hdestroyed, hacquired⟩ : ∃ l es,
      sinkMachine.run (.construct (ascii "127.0.0.1") 9000) (brokenOff ++ [.destroy]) = some (l, es)
        ∧ l.place = .destroyed ∧ acquires 3 es = 1 :=
    ⟨_, _, rfl, rfl, rfl⟩
  obtain ⟨honce, hreleased, -, -⟩ := socket_owned hrun
  exact ⟨l, es, hrun, hdestroyed, honce, hacquired, hreleased hdestroyed⟩

/-! ## The records -/

/-- The record that `write` is called with. -/
def SinkAction.written : SinkAction → List Bytes
  | .write message => [message]
  | _ => []

/-- The result tells that the connection is there. -/
def SinkAction.establishes : SinkAction → Bool
  | .connect result _ => decide (result = 0)
  | .getsockopt result error => decide (result = 0 ∧ error = 0)
  | _ => false

/-- The records of a schedule. -/
def writtenRecords (as : List SinkAction) : List Bytes := as.flatMap SinkAction.written

/-- The schedule has the sink connected. -/
def establishedBy (as : List SinkAction) : Bool := as.any SinkAction.establishes

/-- The thread is in the constructor. -/
def SinkPlace.constructing : SinkPlace → Bool
  | .idle | .poll _ _ | .send _ _ | .destroyed => false
  | _ => true

namespace SinkLife

/-- The sink in the same state that has yet to meet `attempts`. -/
def toSink (l : SinkLife) (attempts : List Attempt) : SocketSink where
  socketFd := l.socketFd
  isConnected := l.isConnected
  attempts := attempts
  wire := l.wire

/-- `sink` is where the life leads when it meets `attempts`: the loop of a
`write` goes on with them. -/
def Agrees (l : SinkLife) (attempts : List Attempt) (sink : SocketSink) : Prop :=
  match l.place with
  | .poll message totalSent | .send message totalSent =>
    sink = SocketSink.sendLoop message totalSent (l.toSink attempts) attempts
  | .destroyed => sink.wire = l.wire
  | _ => sink = l.toSink attempts

/-- What is left of the record of a `write` under way. -/
def unsent (l : SinkLife) : Bytes :=
  match l.place with
  | .poll message totalSent | .send message totalSent => message.drop totalSent
  | _ => []

end SinkLife

/-- The life follows a sink that was given `before`, for some answers of
`poll` and `send` so far and any to come. -/
structure Follows (before : List Bytes) (established : Bool) (l : SinkLife) : Prop where
  unused : l.place.constructing = true → before = [] ∧ established = false ∧ l.wire = []
  served : ∃ fd attempts, (l.place ≠ .destroyed → fd = l.socketFd)
    ∧ ∀ more, l.Agrees more (serve before ⟨fd, established, attempts ++ more, []⟩)

section Turns

open SocketSink

variable {message : Bytes} {totalSent : Nat} (h : totalSent < message.length) (sink : SocketSink)
  (attempts : List Attempt)
include h

theorem sendLoop_notReady :
    sendLoop message totalSent sink (.notReady :: attempts)
      = { sink with isConnected := false, attempts } := by
  rw [sendLoop, if_pos h]

theorem sendLoop_again :
    sendLoop message totalSent sink (.again :: attempts)
      = sendLoop message totalSent sink attempts := by
  rw [sendLoop, if_pos h]

theorem sendLoop_failed :
    sendLoop message totalSent sink (.failed :: attempts)
      = { sink with isConnected := false, attempts } := by
  rw [sendLoop, if_pos h]

theorem sendLoop_sent {n : Nat} (hn : n ≤ message.length - totalSent) :
    sendLoop message totalSent sink (.sent n :: attempts)
      = sendLoop message (totalSent + n)
          { sink with wire := sink.wire ++ (message.drop totalSent).take n } attempts := by
  rw [sendLoop, if_pos h, Nat.min_eq_left hn]

end Turns

/-- The loop reads its list, not the field. -/
theorem sendLoop_attempts (message : Bytes) (attempts : List Attempt) :
    ∀ (totalSent : Nat) (sink : SocketSink) (others : List Attempt),
      SocketSink.sendLoop message totalSent { sink with attempts := others } attempts
        = SocketSink.sendLoop message totalSent sink attempts := by
  induction attempts with
  | nil =>
    intro totalSent sink others
    rw [SocketSink.sendLoop, SocketSink.sendLoop]
  | cons attempt attempts ih =>
    intro totalSent sink others
    by_cases hlt : totalSent < message.length
    · cases attempt with
      | notReady => rw [sendLoop_notReady hlt, sendLoop_notReady hlt]
      | again =>
        rw [sendLoop_again hlt, sendLoop_again hlt]
        exact ih totalSent sink others
      | failed => rw [sendLoop_failed hlt, sendLoop_failed hlt]
      | sent n =>
        rw [SocketSink.sendLoop, SocketSink.sendLoop, if_pos hlt, if_pos hlt]
        exact ih _ { sink with wire := sink.wire ++ _ } others
    · rw [SocketSink.sendLoop_done hlt, SocketSink.sendLoop_done hlt]

/-! ## The constructor -/

/-- A step that leads from the constructor to the constructor or its end. -/
structure Constructs (established : Bool) (l l' : SinkLife) : Prop where
  place : l'.place.constructing = true ∨ l'.place = .idle
  wire : l'.wire = l.wire
  connected : l'.isConnected = (l.isConnected || established)

/-- What does not tell that the connection is there leaves the sink as it
is. -/
theorem quiet_constructs {l l' : SinkLife} (hwire : l'.wire = l.wire)
    (hconnected : l'.isConnected = l.isConnected)
    (hplace : l'.place.constructing = true ∨ l'.place = .idle) : Constructs false l l' :=
  ⟨hplace, hwire, by rw [hconnected, Bool.or_false]⟩

theorem connectToServer_constructs (l : SinkLife) : Constructs false l l.connectToServer.1 := by
  unfold SinkLife.connectToServer
  split
  next => exact quiet_constructs rfl rfl (.inr rfl)
  next => exact quiet_constructs rfl rfl (.inl rfl)

theorem failInit_constructs (l : SinkLife) : Constructs false l l.failInit.1 := by
  obtain ⟨hplace, hwire, hconnected⟩ := connectToServer_constructs { l with socketFd := -1 }
  exact ⟨hplace, hwire, hconnected⟩

theorem afterSocket_constructs (fd : Int) (l : SinkLife) :
    Constructs false l (l.afterSocket fd).1 := by
  unfold SinkLife.afterSocket
  split
  next =>
    obtain ⟨hplace, hwire, hconnected⟩ := connectToServer_constructs { l with socketFd := fd }
    exact ⟨hplace, hwire, hconnected⟩
  next => exact quiet_constructs rfl rfl (.inl rfl)

theorem afterGetFlags_constructs (flags : Int) (l : SinkLife) :
    Constructs false l (l.afterGetFlags flags).1 := by
  unfold SinkLife.afterGetFlags
  split
  next => exact failInit_constructs l
  next => exact quiet_constructs rfl rfl (.inl rfl)

theorem afterSetFlags_constructs (result : Int) (l : SinkLife) :
    Constructs false l (l.afterSetFlags result).1 := by
  unfold SinkLife.afterSetFlags
  split
  next => exact failInit_constructs l
  next => exact connectToServer_constructs l

theorem afterInetPton_constructs (result : Int) (l : SinkLife) :
    Constructs false l (l.afterInetPton result).1 := by
  unfold SinkLife.afterInetPton
  split
  next => exact quiet_constructs rfl rfl (.inr rfl)
  next => exact quiet_constructs rfl rfl (.inl rfl)

theorem afterConnect_constructs (result : Int) (inProgress : Bool) (l : SinkLife) :
    Constructs (decide (result = 0)) l (l.afterConnect result inProgress).1 := by
  unfold SinkLife.afterConnect
  by_cases h : result = 0
  · rw [if_pos h, decide_eq_true h]
    exact ⟨.inr rfl, rfl, (Bool.or_true _).symm⟩
  · rw [if_neg h, decide_eq_false h]
    split
    next => exact quiet_constructs rfl rfl (.inl rfl)
    next => exact quiet_constructs rfl rfl (.inr rfl)

theorem afterConnectPoll_constructs (result : Int) (pollout : Bool) (l : SinkLife) :
    Constructs false l (l.afterConnectPoll result pollout).1 := by
  unfold SinkLife.afterConnectPoll
  split
  next => exact quiet_constructs rfl rfl (.inl rfl)
  next => exact quiet_constructs rfl rfl (.inr rfl)

theorem afterGetsockopt_constructs (result error : Int) (l : SinkLife) :
    Constructs (decide (result = 0 ∧ error = 0)) l (l.afterGetsockopt result error).1 := by
  unfold SinkLife.afterGetsockopt
  by_cases h : result = 0 ∧ error = 0
  · rw [if_pos h, decide_eq_true h]
    exact ⟨.inr rfl, rfl, (Bool.or_true _).symm⟩
  · rw [if_neg h, decide_eq_false h]
    exact quiet_constructs rfl rfl (.inr rfl)

theorem unconnected {l : SinkLife} (hfits : l.Fits) (hplace : l.place.constructing = true) :
    l.isConnected = false := by
  unfold SinkLife.Fits at hfits
  split at hfits
  next => exact hfits.2
  next => exact hfits.2
  next => exact hfits.2
  next => exact hfits.2
  next => exact hfits.2
  next => exact hfits.2
  next => exact hfits.2
  next hat => exact absurd hplace (by simp [hat, SinkPlace.constructing])
  next hat => exact absurd hplace (by simp [hat, SinkPlace.constructing])
  next hat => exact absurd hplace (by simp [hat, SinkPlace.constructing])
  next => exact hfits.2

theorem agrees_toSink {l : SinkLife} (hplace : l.place.constructing = true ∨ l.place = .idle)
    (attempts : List Attempt) : l.Agrees attempts (l.toSink attempts) := by
  unfold SinkLife.Agrees
  split
  next hat => exact absurd hplace (by simp [hat, SinkPlace.constructing])
  next hat => exact absurd hplace (by simp [hat, SinkPlace.constructing])
  next hat => exact absurd hplace (by simp [hat, SinkPlace.constructing])
  next => rfl

/-- Behind a step of the constructor the sink is as made. -/
theorem constructs_follows {before : List Bytes} {wasEstablished established : Bool}
    {l l' : SinkLife} (hplace : l.place.constructing = true) (hfits : l.Fits) (hfits' : l'.Fits)
    (h : Follows before wasEstablished l) (hstep : Constructs established l l') :
    Follows before (wasEstablished || established) l' := by
  obtain ⟨rfl, rfl, hwire⟩ := h.unused hplace
  have hunwritten : l'.wire = [] := hstep.wire.trans hwire
  have hconnected : l'.isConnected = established := by
    rw [hstep.connected, unconnected hfits hplace, Bool.false_or]
  rw [Bool.false_or]
  refine ⟨fun hplace' => ⟨rfl, ?_, hunwritten⟩, l'.socketFd, [], fun _ => rfl, fun more => ?_⟩
  · rw [← hconnected]
    exact unconnected hfits' hplace'
  · have hagrees := agrees_toSink hstep.place more
    rw [SinkLife.toSink, hconnected, hunwritten] at hagrees
    exact hagrees

/-! ## `write` -/

section Writing

variable {before : List Bytes} {established : Bool} {message : Bytes} {totalSent : Nat}

/-- Past the constructor, to follow is to be served. -/
theorem served_follows (attempts : List Attempt) {l' : SinkLife}
    (hplace : l'.place.constructing = false)
    (h : ∀ more, l'.Agrees more (serve before ⟨l'.socketFd, established, attempts ++ more, []⟩)) :
    Follows before established l' where
  unused hat := absurd (hplace.symm.trans hat) (by simp)
  served := ⟨l'.socketFd, attempts, fun _ => rfl, h⟩

/-- The loop goes on from any place. -/
theorem loop_agrees {attempts : List Attempt} {sink : SocketSink}
    (h : sink = SocketSink.sendLoop message totalSent (l.toSink attempts) attempts) :
    (l.loop message totalSent).1.Agrees attempts sink := by
  unfold SinkLife.loop
  split
  next => exact h
  next hdone =>
    rw [SocketSink.sendLoop_done hdone] at h
    exact h

theorem loop_past (l : SinkLife) (message : Bytes) (totalSent : Nat) :
    (l.loop message totalSent).1.place.constructing = false
      ∧ (l.loop message totalSent).1.socketFd = l.socketFd := by
  unfold SinkLife.loop
  split
  next => exact ⟨rfl, rfl⟩
  next => exact ⟨rfl, rfl⟩

theorem write_follows (hplace : l.place = .idle) (h : Follows before established l)
    (message : Bytes) : Follows (before ++ [message]) established (l.write message).1 := by
  obtain ⟨fd, attempts, hfd, hserved⟩ := h.served
  obtain rfl := hfd (by simp [hplace])
  have hbefore (more : List Attempt) :
      serve before ⟨l.socketFd, established, attempts ++ more, []⟩ = l.toSink more := by
    have hagrees := hserved more
    rw [SinkLife.Agrees, hplace] at hagrees
    exact hagrees
  have hwrite (more : List Attempt) :
      serve (before ++ [message]) ⟨l.socketFd, established, attempts ++ more, []⟩
        = (l.toSink more).write message := by
    rw [serve_append, hbefore]
    rfl
  unfold SinkLife.write
  cases hvalid : l.isValid with
  | false =>
    show Follows _ _ l
    refine served_follows attempts (by simp [hplace, SinkPlace.constructing]) fun more => ?_
    have hsame : (l.toSink more).write message = l.toSink more := by
      rw [SocketSink.write, show (l.toSink more).isValid = false from hvalid]
      rfl
    rw [hwrite, hsame]
    exact agrees_toSink (.inr hplace) more
  | true =>
    obtain ⟨hpast, hsocket⟩ := loop_past l message 0
    show Follows _ _ (l.loop message 0).1
    refine served_follows attempts hpast fun more => ?_
    rw [hsocket, hwrite]
    refine loop_agrees ?_
    rw [SocketSink.write, show (l.toSink more).isValid = true from hvalid]
    rfl

/-- In the loop: one more answer, and what it leads to. -/
theorem turn_follows {l' : SinkLife} (attempt : Attempt)
    (hplace : l.place = .poll message totalSent ∨ l.place = .send message totalSent)
    (h : Follows before established l) (hpast : l'.place.constructing = false)
    (hsocket : l'.socketFd = l.socketFd)
    (hturn : ∀ more sink,
      sink = SocketSink.sendLoop message totalSent (l.toSink more) (attempt :: more)
        → l'.Agrees more sink) : Follows before established l' := by
  obtain ⟨fd, attempts, hfd, hserved⟩ := h.served
  have hstays : l.place ≠ .destroyed := by
    rcases hplace with hat | hat <;> simp [hat]
  obtain rfl := hfd hstays
  refine served_follows (attempts ++ [attempt]) hpast fun more => ?_
  rw [hsocket, List.append_assoc]
  refine hturn more _ ?_
  rw [← sendLoop_attempts message (attempt :: more) totalSent (l.toSink more) (attempt :: more)]
  have hagrees := hserved (attempt :: more)
  unfold SinkLife.Agrees at hagrees
  rcases hplace with hat | hat
  · rw [hat] at hagrees
    exact hagrees
  · rw [hat] at hagrees
    exact hagrees

theorem disconnect_follows (attempt : Attempt)
    (hplace : l.place = .poll message totalSent ∨ l.place = .send message totalSent)
    (h : Follows before established l)
    (hturn : ∀ more, SocketSink.sendLoop message totalSent (l.toSink more) (attempt :: more)
      = { l.toSink more with isConnected := false }) :
    Follows before established l.disconnect.1 := by
  refine turn_follows attempt hplace h rfl rfl fun more sink hsink => ?_
  rw [hturn] at hsink
  exact hsink

theorem afterPoll_follows (hplace : l.place = .poll message totalSent)
    (hlt : totalSent < message.length) (h : Follows before established l) (result : Int)
    (pollout : Bool) :
    Follows before established (l.afterPoll message totalSent result pollout).1 := by
  unfold SinkLife.afterPoll
  split
  next =>
    -- no answer is used up: it is what `send` returns
    obtain ⟨fd, attempts, hfd, hserved⟩ := h.served
    obtain rfl := hfd (by simp [hplace])
    refine served_follows attempts rfl fun more => ?_
    have hagrees := hserved more
    unfold SinkLife.Agrees at hagrees
    rw [hplace] at hagrees
    exact hagrees
  next => exact disconnect_follows .notReady (.inl hplace) h fun more => sendLoop_notReady hlt _ more

theorem afterSend_follows (hplace : l.place = .send message totalSent)
    (hlt : totalSent < message.length) (h : Follows before established l) {sent : Int}
    (hsent : -1 ≤ sent ∧ sent ≤ ↑(message.length - totalSent)) (wouldBlock : Bool) :
    Follows before established (l.afterSend message totalSent sent wouldBlock).1 := by
  unfold SinkLife.afterSend
  split
  next =>
    split
    next =>
      obtain ⟨hpast, hsocket⟩ := loop_past l message totalSent
      refine turn_follows .again (.inr hplace) h hpast hsocket fun more sink hsink => ?_
      rw [sendLoop_again hlt] at hsink
      exact loop_agrees hsink
    next => exact disconnect_follows .failed (.inr hplace) h fun more => sendLoop_failed hlt _ more
  next hne =>
    obtain ⟨hpast, hsocket⟩ := loop_past
      { l with wire := l.wire ++ (message.drop totalSent).take sent.toNat } message
      (totalSent + sent.toNat)
    refine turn_follows (.sent sent.toNat) (.inr hplace) h hpast hsocket fun more sink hsink => ?_
    have hn : sent.toNat ≤ message.length - totalSent := by omega
    rw [sendLoop_sent hlt _ _ hn] at hsink
    exact loop_agrees hsink

theorem destroy_follows (hplace : l.place = .idle) (h : Follows before established l) :
    Follows before established l.destroy.1 := by
  obtain ⟨fd, attempts, -, hserved⟩ := h.served
  refine ⟨fun hat => absurd hat (by simp [SinkLife.destroy, SinkPlace.constructing]), fd, attempts,
    fun hstays => absurd rfl hstays, fun more => ?_⟩
  have hagrees := hserved more
  rw [SinkLife.Agrees, hplace] at hagrees
  exact congrArg SocketSink.wire hagrees

end Writing

/-! ## What is on the wire -/

/-- A `SocketSink` puts the records it is given on its wire, in order, up to
some byte. -/
theorem serve_wire (rs : List Bytes) (sink : SocketSink) :
    (serve rs sink).wire <+: sink.wire ++ rs.flatten := by
  induction rs generalizing sink with
  | nil => exact List.prefix_append _ _
  | cons r rs ih =>
    show (serve rs (sink.write r)).wire <+: sink.wire ++ (r ++ rs.flatten)
    rw [← List.append_assoc]
    rcases sink.write_spec r with ⟨hinvalid, hsame⟩ | ⟨-, k, hk, hwire, hconnected, -⟩
    · rw [hsame, serve_invalid hinvalid, List.append_assoc]
      exact List.prefix_append _ _
    · by_cases hall : k = r.length
      · -- the whole record, and the sink goes on
        have hrest := ih (sink.write r)
        rw [hwire, hall, List.take_length] at hrest
        exact hrest
      · have hbroken : ILogSink.isValid (sink.write r) = false := by
          show (sink.write r).isValid = false
          rw [SocketSink.isValid, hconnected]
          simp [hall]
        rw [serve_invalid hbroken, hwire, List.append_assoc]
        exact (List.prefix_append_right_inj _).mpr
          ((List.take_prefix k r).trans (List.prefix_append _ _))

/-- A sink that is connected behind the records has sent all of them. -/
theorem serve_connected (rs : List Bytes) (sink : SocketSink)
    (h : (serve rs sink).isValid = true) : (serve rs sink).wire = sink.wire ++ rs.flatten := by
  induction rs generalizing sink with
  | nil => exact (List.append_nil _).symm
  | cons r rs ih =>
    replace h : (serve rs (sink.write r)).isValid = true := h
    have hvalid : (sink.write r).isValid = true := by
      cases hv : (sink.write r).isValid with
      | true => rfl
      | false =>
        rw [serve_invalid hv] at h
        exact absurd (hv.symm.trans h) (by simp)
    show (serve rs (sink.write r)).wire = sink.wire ++ (r ++ rs.flatten)
    rw [ih (sink.write r) h, (SocketSink.write_connected hvalid).2, List.append_assoc]

/-! ## Whole lives -/

/-- A step that takes no record and tells of no connection. -/
theorem step_quiet {before : List Bytes} {established : Bool} {a : SinkAction}
    (hwritten : a.written = []) (hestablishes : a.establishes = false)
    (h : Follows before established l) :
    Follows (before ++ a.written) (established || a.establishes) l := by
  rw [hwritten, hestablishes, List.append_nil, Bool.or_false]
  exact h

theorem step_follows {before : List Bytes} {established : Bool} {a : SinkAction}
    {r : SinkLife × List SinkEvent} (hfits : l.Fits) (h : Follows before established l)
    (hstep : l.step a = some r) :
    Follows (before ++ a.written) (established || a.establishes) r.1 := by
  have hfits' : r.1.Fits := (step_sinkKeeps hfits hstep).fits
  have hplace := hfits
  unfold SinkLife.Fits at hplace
  have hconstruct {e : Bool} (hat : l.place.constructing = true) (hr : Constructs e l r.1)
      (hwritten : a.written = []) (he : a.establishes = e) :
      Follows (before ++ a.written) (established || a.establishes) r.1 := by
    rw [hwritten, he, List.append_nil]
    exact constructs_follows hat hfits hfits' h hr
  unfold SinkLife.step at hstep
  split at hstep
  next fd hat =>
    cases hstep
    exact hconstruct (by rw [hat]; rfl) (afterSocket_constructs fd l) rfl rfl
  next flags hat =>
    cases hstep
    exact hconstruct (by rw [hat]; rfl) (afterGetFlags_constructs flags l) rfl rfl
  next result hat =>
    cases hstep
    exact hconstruct (by rw [hat]; rfl) (afterSetFlags_constructs result l) rfl rfl
  next result hat =>
    cases hstep
    exact hconstruct (by rw [hat]; rfl) (afterInetPton_constructs result l) rfl rfl
  next result inProgress hat =>
    cases hstep
    exact hconstruct (by rw [hat]; rfl) (afterConnect_constructs result inProgress l) rfl rfl
  next result pollout hat =>
    cases hstep
    exact hconstruct (by rw [hat]; rfl) (afterConnectPoll_constructs result pollout l) rfl rfl
  next result error hat =>
    cases hstep
    exact hconstruct (by rw [hat]; rfl) (afterGetsockopt_constructs result error l) rfl rfl
  next message hat =>
    cases hstep
    show Follows (before ++ [message]) (established || false) _
    rw [Bool.or_false]
    exact write_follows hat h message
  next hat =>
    cases hstep
    exact step_quiet rfl rfl (destroy_follows hat h)
  next message totalSent result pollout hat =>
    cases hstep
    rw [hat] at hplace
    exact step_quiet rfl rfl (afterPoll_follows hat hplace.2.2 h result pollout)
  next message totalSent sent wouldBlock hat =>
    rw [hat] at hplace
    split at hstep
    next hsent =>
      cases hstep
      exact step_quiet rfl rfl (afterSend_follows hat hplace.2.2 h hsent wouldBlock)
    next => exact absurd hstep (by simp)
  next => exact absurd hstep (by simp)

theorem run_follows {host : Bytes} {port : Int} {as : List SinkAction} {es : List SinkEvent}
    (hrun : sinkMachine.run (.construct host port) as = some (l, es)) :
    l.Fits ∧ Follows (writtenRecords as) (establishedBy as) l := by
  refine sinkMachine.run_induction
    (P := fun as l _ => l.Fits ∧ Follows (writtenRecords as) (establishedBy as) l) ?_ ?_ hrun
  · refine ⟨show (SinkLife.construct host port).Fits from ⟨rfl, rfl⟩, fun _ => ⟨rfl, rfl, rfl⟩,
      -1, [], fun _ => rfl, fun more => rfl⟩
  · intro as a l es l' es' _ hl hstep
    refine ⟨(step_sinkKeeps hl.1 hstep).fits, ?_⟩
    have hfollows := step_follows hl.1 hl.2 hstep
    rw [writtenRecords, List.flatMap_append, List.flatMap_singleton, establishedBy,
      List.any_append, List.any_cons, List.any_nil, Bool.or_false]
    exact hfollows

/-- **The sink is the one of the records.** Between its calls, in every life,
a sink is where the sink of `SocketSink.lean` gets with the same records, for
some answers of `poll` and `send` of which none is left, having started
connected if `connect` or `getsockopt` told so. -/
theorem writes_refine {host : Bytes} {port : Int} {as : List SinkAction} {es : List SinkEvent}
    (hrun : sinkMachine.run (.construct host port) as = some (l, es))
    (hidle : l.place = .idle) :
    ∃ attempts, serve (writtenRecords as)
        ({ socketFd := l.socketFd, isConnected := establishedBy as, attempts } : SocketSink)
      = { socketFd := l.socketFd, isConnected := l.isConnected, attempts := [], wire := l.wire } := by
  obtain ⟨-, hfollows⟩ := run_follows hrun
  obtain ⟨fd, attempts, hfd, hserved⟩ := hfollows.served
  obtain rfl := hfd (by simp [hidle])
  have hagrees := hserved []
  rw [SinkLife.Agrees, hidle, List.append_nil] at hagrees
  exact ⟨attempts, hagrees⟩

theorem writes_refine_brokenOff :
    ∃ l es, sinkMachine.run (.construct (ascii "127.0.0.1") 9000) brokenOff = some (l, es)
      ∧ l.wire = ascii "ab"
      ∧ ∃ attempts, serve [ascii "abc", ascii "de"]
          ({ socketFd := 3, isConnected := true, attempts } : SocketSink)
        = { socketFd := 3, isConnected := false, attempts := [], wire := ascii "ab" } := by
  obtain ⟨l, es, hrun, hidle, hfd, hconnected, hwire⟩ : ∃ l es,
      sinkMachine.run (.construct (ascii "127.0.0.1") 9000) brokenOff = some (l, es)
        ∧ l.place = .idle ∧ l.socketFd = 3 ∧ l.isConnected = false ∧ l.wire = ascii "ab" :=
    ⟨_, _, rfl, rfl, rfl, rfl, rfl⟩
  have hrefines := writes_refine hrun hidle
  rw [hfd, hconnected, hwire] at hrefines
  exact ⟨l, es, hrun, hwire, hrefines⟩

/-- When no more answers come, the wire stays. -/
theorem agrees_wire {sink : SocketSink} (h : l.Agrees [] sink) : sink.wire = l.wire := by
  have hstop (message : Bytes) (totalSent : Nat) :
      (SocketSink.sendLoop message totalSent (l.toSink []) []).wire = l.wire := by
    rw [SocketSink.sendLoop]
    split
    next => rfl
    next => rfl
  unfold SinkLife.Agrees at h
  split at h
  next message totalSent _ => rw [h, hstop]
  next message totalSent _ => rw [h, hstop]
  next => exact h
  next => rw [h]; rfl

/-- When the rest of the record is taken at once, the sink stays connected. -/
theorem sendLoop_rest {message : Bytes} {totalSent : Nat} (hlt : totalSent < message.length)
    (sink : SocketSink) :
    SocketSink.sendLoop message totalSent sink [.sent (message.length - totalSent)]
      = { sink with attempts := [], wire := sink.wire ++ message.drop totalSent } := by
  rw [sendLoop_sent hlt _ _ (Nat.le_refl _), SocketSink.sendLoop_done (by omega),
    List.take_of_length_le (by rw [List.length_drop])]

theorem agrees_connected (hfits : l.Fits) (hconnected : l.isConnected = true) :
    ∃ more, ∀ sink, l.Agrees more sink
      → sink.isValid = true ∧ sink.wire = l.wire ++ l.unsent := by
  have hlost {P : Prop} (h : l.isConnected = false) : P :=
    absurd (h.symm.trans hconnected) (by simp)
  have hvalid {message : Bytes} {totalSent : Nat} {sink : SocketSink} (hopen : l.socketFd ≠ -1)
      (hlt : totalSent < message.length)
      (h : sink = SocketSink.sendLoop message totalSent
        (l.toSink [.sent (message.length - totalSent)]) [.sent (message.length - totalSent)]) :
      sink.isValid = true ∧ sink.wire = l.wire ++ message.drop totalSent := by
    rw [sendLoop_rest hlt] at h
    rw [h]
    exact ⟨isValid_iff.mpr ⟨hopen, hconnected⟩, rfl⟩
  unfold SinkLife.Fits at hfits
  unfold SinkLife.Agrees SinkLife.unsent
  split at hfits
  next => exact hlost hfits.2
  next => exact hlost hfits.2
  next => exact hlost hfits.2
  next => exact hlost hfits.2
  next => exact hlost hfits.2
  next => exact hlost hfits.2
  next => exact hlost hfits.2
  next hat =>
    rw [hat]
    refine ⟨[], fun sink h => ?_⟩
    rw [show sink = l.toSink [] from h]
    exact ⟨isValid_iff.mpr ⟨hfits hconnected, hconnected⟩, (List.append_nil _).symm⟩
  next message totalSent hat =>
    rw [hat]
    exact ⟨_, fun sink h => hvalid hfits.1 hfits.2.2 h⟩
  next message totalSent hat =>
    rw [hat]
    exact ⟨_, fun sink h => hvalid hfits.1 hfits.2.2 h⟩
  next => exact hlost hfits.2

/-- **The wire follows the records.** At every instant of every life, also in
the middle of a `write` and behind the destructor: the bytes taken are a
prefix of the records written, one behind the other; while the sink is
connected only the rest of the record under way is missing; and when the
connection was never told to be there, nothing was taken. -/
theorem wire_follows {host : Bytes} {port : Int} {as : List SinkAction} {es : List SinkEvent}
    (hrun : sinkMachine.run (.construct host port) as = some (l, es)) :
    l.wire <+: (writtenRecords as).flatten
      ∧ (l.isConnected = true → l.wire ++ l.unsent = (writtenRecords as).flatten)
      ∧ (establishedBy as = false → l.wire = []) := by
  obtain ⟨hfits, hfollows⟩ := run_follows hrun
  obtain ⟨fd, attempts, -, hserved⟩ := hfollows.served
  have hwire := agrees_wire (hserved [])
  refine ⟨?_, fun hconnected => ?_, fun hnever => ?_⟩
  · rw [← hwire]
    exact serve_wire _ _
  · obtain ⟨more, hmore⟩ := agrees_connected hfits hconnected
    obtain ⟨hvalid, hall⟩ := hmore _ (hserved more)
    rw [← hall, serve_connected _ _ hvalid]
    rfl
  · have hinvalid : ILogSink.isValid (SocketSink.mk fd false (attempts ++ []) []) = false :=
      Bool.and_false _
    rw [← hwire, hnever, serve_invalid hinvalid]

theorem wire_follows_underWay :
    ∃ l es, sinkMachine.run (.construct (ascii "127.0.0.1") 9000) underWay = some (l, es)
      ∧ l.wire ++ l.unsent = ascii "abc" ∧ l.unsent = ascii "c" := by
  obtain ⟨l, es, hrun, hconnected, hunsent⟩ : ∃ l es,
      sinkMachine.run (.construct (ascii "127.0.0.1") 9000) underWay = some (l, es)
        ∧ l.isConnected = true ∧ l.unsent = ascii "c" :=
    ⟨_, _, rfl, rfl, rfl⟩
  obtain ⟨-, hall, -⟩ := wire_follows hrun
  exact ⟨l, es, hrun, hall hconnected, hunsent⟩

end LogMetrics.Logger
