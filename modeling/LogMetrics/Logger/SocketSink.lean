import LogMetrics.Logger.Sink

/-!
# `SocketSink::write`

`src/logger/socket_sink.cpp`. The kernel's side is part of the sink's state:
`attempts` is what `poll` and `send` will answer, one entry for each turn of
the loop, and `wire` the bytes the kernel has taken. When the entries run out
`poll` times out; every terminating `write` uses finitely many, so a list is
no restriction.

`write_spec` says all that one `write` can do: it puts a prefix of the record
on the wire, the whole of it exactly when the sink is still connected
afterwards, and nothing when it was not.
-/

namespace LogMetrics.Logger

/-- One turn of the sending loop: `poll` did not report the socket writable;
`send` would block; `send` failed; or `send` took `n` bytes (at most those
left). -/
inductive Attempt where
  | notReady
  | again
  | failed
  | sent (n : Nat)
  deriving DecidableEq, Repr

/-- `SocketSink`. -/
structure SocketSink where
  socketFd : Int
  isConnected : Bool
  attempts : List Attempt
  wire : Bytes := []
  deriving DecidableEq, Repr

namespace SocketSink

/-- `SocketSink::is_valid`. -/
def isValid (sink : SocketSink) : Bool := sink.socketFd != -1 && sink.isConnected

/-- The loop of `SocketSink::write`. -/
def sendLoop (message : Bytes) (totalSent : Nat) (sink : SocketSink) :
    List Attempt → SocketSink
  | [] =>
    if totalSent < message.length then { sink with isConnected := false, attempts := [] }
    else { sink with attempts := [] }
  | attempt :: attempts =>
    if totalSent < message.length then
      match attempt with
      | .notReady => { sink with isConnected := false, attempts }
      | .again => sendLoop message totalSent sink attempts
      | .failed => { sink with isConnected := false, attempts }
      | .sent n =>
        let sent := min n (message.length - totalSent)
        sendLoop message (totalSent + sent)
          { sink with wire := sink.wire ++ (message.drop totalSent).take sent } attempts
    else { sink with attempts := attempt :: attempts }

/-- `SocketSink::write`. -/
def write (message : Bytes) (sink : SocketSink) : SocketSink :=
  if not sink.isValid then sink else sendLoop message 0 sink sink.attempts

instance : ILogSink SocketSink := ⟨write, isValid⟩

theorem sendLoop_done {message : Bytes} {totalSent : Nat} {sink : SocketSink}
    {attempts : List Attempt} (h : ¬totalSent < message.length) :
    sendLoop message totalSent sink attempts = { sink with attempts } := by
  cases attempts with
  | nil => rw [sendLoop, if_neg h]
  | cons attempt attempts => cases attempt <;> rw [sendLoop, if_neg h]

/-- The loop puts a prefix of the unsent part on the wire; it ends connected
exactly when that is all of it. -/
theorem sendLoop_spec (message : Bytes) (attempts : List Attempt) :
    ∀ (totalSent : Nat) (sink : SocketSink), totalSent ≤ message.length →
      ∃ k, totalSent ≤ k ∧ k ≤ message.length
        ∧ (sendLoop message totalSent sink attempts).wire
          = sink.wire ++ (message.drop totalSent).take (k - totalSent)
        ∧ (sendLoop message totalSent sink attempts).isConnected
          = (sink.isConnected && decide (k = message.length))
        ∧ (sendLoop message totalSent sink attempts).socketFd = sink.socketFd := by
  induction attempts with
  | nil =>
    intro totalSent sink hle
    refine ⟨totalSent, Nat.le_refl _, hle, ?_, ?_, ?_⟩
    · rw [Nat.sub_self, List.take_zero, List.append_nil, sendLoop]
      split <;> rfl
    · rw [sendLoop]
      split
      next hlt => simp [Nat.ne_of_lt hlt]
      next hge => simp [show totalSent = message.length by omega]
    · rw [sendLoop]
      split <;> rfl
  | cons attempt attempts ih =>
    intro totalSent sink hle
    by_cases hlt : totalSent < message.length
    · cases attempt with
      | notReady =>
        refine ⟨totalSent, Nat.le_refl _, hle, ?_, ?_, ?_⟩ <;> rw [sendLoop, if_pos hlt]
        · simp
        · simp [Nat.ne_of_lt hlt]
      | again =>
        rw [sendLoop, if_pos hlt]
        exact ih totalSent sink hle
      | failed =>
        refine ⟨totalSent, Nat.le_refl _, hle, ?_, ?_, ?_⟩ <;> rw [sendLoop, if_pos hlt]
        · simp
        · simp [Nat.ne_of_lt hlt]
      | sent n =>
        rw [sendLoop, if_pos hlt]
        -- the rest of the loop goes on behind the bytes just taken
        obtain ⟨k, hk, hkle, hwire, hconn, hfd⟩ := ih
          (totalSent + min n (message.length - totalSent))
          { sink with wire := sink.wire ++
            (message.drop totalSent).take (min n (message.length - totalSent)) } (by omega)
        refine ⟨k, by omega, hkle, ?_, hconn, hfd⟩
        rw [hwire, List.append_assoc, ← List.drop_drop, ← List.take_add]
        congr 2
        omega
    · refine ⟨totalSent, Nat.le_refl _, hle, ?_, ?_, ?_⟩ <;> rw [sendLoop_done hlt]
      · simp
      · simp [show totalSent = message.length by omega]

/-- **What one `write` does.** On a valid sink it puts a prefix of the record
on the wire and leaves the sink connected exactly when that is the whole
record; an invalid sink it leaves alone. -/
theorem write_spec (message : Bytes) (sink : SocketSink) :
    (sink.isValid = false ∧ sink.write message = sink)
      ∨ (sink.isValid = true ∧ ∃ k, k ≤ message.length
          ∧ (sink.write message).wire = sink.wire ++ message.take k
          ∧ (sink.write message).isConnected = decide (k = message.length)
          ∧ (sink.write message).socketFd = sink.socketFd) := by
  cases hvalid : sink.isValid with
  | false =>
    left
    simp [write, hvalid]
  | true =>
    right
    refine ⟨rfl, ?_⟩
    obtain ⟨k, -, hk, hwire, hconn, hfd⟩ :=
      sendLoop_spec message sink.attempts 0 sink (Nat.zero_le _)
    have hconnected : sink.isConnected = true := by
      simp only [isValid, Bool.and_eq_true] at hvalid
      exact hvalid.2
    simp only [write, hvalid, Bool.not_true, Bool.false_eq_true, if_false]
    exact ⟨k, hk, hwire, by rw [hconn, hconnected, Bool.true_and], hfd⟩

/-- A sink that is connected after a `write` took the whole record. -/
theorem write_connected {message : Bytes} {sink : SocketSink}
    (h : (sink.write message).isValid = true) :
    sink.isValid = true ∧ (sink.write message).wire = sink.wire ++ message := by
  rcases write_spec message sink with ⟨hinvalid, hsame⟩ | ⟨hvalid, k, hk, hwire, hconn, -⟩
  · rw [hsame, hinvalid] at h
    exact absurd h (by decide)
  · refine ⟨hvalid, ?_⟩
    simp only [isValid, Bool.and_eq_true, hconn, decide_eq_true_eq] at h
    rw [hwire, h.2, List.take_length]

end SocketSink

end LogMetrics.Logger
