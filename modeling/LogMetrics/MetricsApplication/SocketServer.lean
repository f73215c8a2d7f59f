import Mathlib.Data.List.Induction
import LogMetrics.Bytes

/-!
# `SocketServer::handle_recv`

`src/metrics_application/socket_server.cpp`. One call of `handle_recv` reads
until `recv` has nothing more (a *drain*) and then hands everything it has
gathered to the message callback as one message. What `recv` will answer is a
script; a call consumes it up to and with the first answer that is not data,
and does not return when there is none (`none`). `ω` is whatever the callback
acts on.

A run of calls is a fold of single `recv` answers (`handleRecvs_consumed`, `handleRecvs_of_drained`), since
nothing happens between two calls; the calls return exactly behind the
answers that are not data (`Drained`).

Main result: `noByteLost_iff`. The buffer is flushed on the way out through
`EAGAIN` only; on an orderly close or an error `handle_recv` returns before
the flush. So no received byte is missing from the callback's payloads exactly
when no data is directly followed by a close or an error.
-/

namespace LogMetrics.MetricsApplication

/-- `SocketServer::BUFFER_SIZE`. -/
def bufferSize : Nat := 4096

/-- What one `recv` puts in the buffer. -/
structure Chunk where
  bytes : Bytes
  nonempty : bytes ≠ []
  bounded : bytes.length ≤ bufferSize
  deriving DecidableEq

/-- The answers of `recv`: data; `-1` with `EAGAIN` or `EWOULDBLOCK`; `0`;
`-1` with another error. -/
inductive RecvResult where
  | data (chunk : Chunk)
  | again
  | closed
  | error
  deriving DecidableEq

/-- `SocketServer`, of whose fields `handle_recv` and `stop` use these. -/
structure SocketServer (ω : Type) where
  serverFd : Int
  clientFd : Int
  clientBuffer : Bytes
  running : Bool
  messageCallback : Option (Bytes → ω → ω)

namespace SocketServer

variable {ω : Type}

/-- `SocketServer::stop`. -/
def stop (s : SocketServer ω) : SocketServer ω :=
  { s with running := false, clientFd := -1, serverFd := -1 }

/-- The end of `handle_recv`: the buffer goes to the callback and is cleared. -/
def deliver (s : SocketServer ω) (w : ω) : SocketServer ω × ω :=
  if s.clientBuffer.isEmpty then (s, w)
  else
    ({ s with clientBuffer := [] },
      match s.messageCallback with
      | some callback => callback s.clientBuffer w
      | none => w)

/-- `SocketServer::handle_recv`: the server and the callback's world when the
call returns, and what is left of the script. -/
def handleRecv (s : SocketServer ω) (w : ω) :
    List RecvResult → Option (SocketServer ω × ω × List RecvResult)
  | [] => none
  | .data chunk :: script =>
    handleRecv { s with clientBuffer := s.clientBuffer ++ chunk.bytes } w script
  | .again :: script => some ((s.deliver w).1, (s.deliver w).2, script)
  | .closed :: script => some (s.stop, w, script)
  | .error :: script => some (s.stop, w, script)

/-- `n` calls of `handle_recv`, one after another. -/
def handleRecvs (s : SocketServer ω) (w : ω) :
    Nat → List RecvResult → Option (SocketServer ω × ω × List RecvResult)
  | 0, script => some (s, w, script)
  | n + 1, script =>
    match s.handleRecv w script with
    | none => none
    | some (s', w', script') => handleRecvs s' w' n script'

end SocketServer

open SocketServer

/-- The bytes `recv` returned. -/
def received (script : List RecvResult) : Bytes :=
  script.flatMap fun
    | .data chunk => chunk.bytes
    | _ => []

theorem received_append (a b : List RecvResult) : received (a ++ b) = received a ++ received b :=
  List.flatMap_append

/-- Does this answer end a drain? -/
def RecvResult.endsDrain : RecvResult → Bool
  | .data _ => false
  | _ => true

theorem RecvResult.eq_data {r : RecvResult} (h : r.endsDrain = false) :
    ∃ chunk, r = .data chunk := by
  cases r with
  | data chunk => exact ⟨chunk, rfl⟩
  | again => exact absurd h (by decide)
  | closed => exact absurd h (by decide)
  | error => exact absurd h (by decide)

/-- No drain is open behind these answers. -/
def Drained (script : List RecvResult) : Prop :=
  ∀ chunk, script.getLast? ≠ some (.data chunk)

/-! ## Calls as a fold of answers -/

section Fold

variable {ω : Type}

/-- What one answer does to the server and the callback's world. -/
def recvStep (sw : SocketServer ω × ω) : RecvResult → SocketServer ω × ω
  | .data chunk => ({ sw.1 with clientBuffer := sw.1.clientBuffer ++ chunk.bytes }, sw.2)
  | .again => sw.1.deliver sw.2
  | .closed => (sw.1.stop, sw.2)
  | .error => (sw.1.stop, sw.2)

/-- A call that meets data goes on as if it had started with it in its
buffer. -/
theorem handleRecvs_data (s : SocketServer ω) (w : ω) (n : Nat) (chunk : Chunk)
    (script : List RecvResult) :
    s.handleRecvs w (n + 1) (.data chunk :: script)
      = (recvStep (s, w) (.data chunk)).1.handleRecvs w (n + 1) script := rfl

/-- Any other answer ends a call. -/
theorem handleRecvs_ends (s : SocketServer ω) (w : ω) (n : Nat) {r : RecvResult}
    (hr : r.endsDrain = true) (script : List RecvResult) :
    s.handleRecvs w (n + 1) (r :: script)
      = (recvStep (s, w) r).1.handleRecvs (recvStep (s, w) r).2 n script := by
  cases r with
  | data chunk => exact absurd hr (by simp [RecvResult.endsDrain])
  | again => rfl
  | closed => rfl
  | error => rfl

theorem drained_nil : Drained [] := fun _ => by simp

theorem drained_snoc {script : List RecvResult} {r : RecvResult} :
    Drained (script ++ [r]) ↔ r.endsDrain = true := by
  unfold Drained
  rw [List.getLast?_concat]
  cases r <;> simp [RecvResult.endsDrain]

theorem drained_cons {r : RecvResult} {script : List RecvResult} (h : Drained (r :: script)) :
    Drained script := by
  intro chunk hlast
  cases script with
  | nil => exact absurd hlast (by simp)
  | cons q script => exact h chunk (by rw [List.getLast?_cons_cons]; exact hlast)

/-- An answer that ends its drain, or is followed by a drained script, leaves
no drain open. -/
theorem Drained.cons {r : RecvResult} {script : List RecvResult} (h : Drained script)
    (hr : script = [] → r.endsDrain = true) : Drained (r :: script) := by
  intro chunk hlast
  cases script with
  | nil =>
    obtain rfl := Option.some.inj hlast
    exact absurd (hr rfl) (by simp [RecvResult.endsDrain])
  | cons q script => exact h chunk (by rwa [List.getLast?_cons_cons] at hlast)

/-- Answers that leave no drain open have ended one, if there are any. -/
theorem Drained.countP_ne_zero {script : List RecvResult} (h : Drained script)
    (hne : script ≠ []) : script.countP RecvResult.endsDrain ≠ 0 := by
  intro hzero
  have hlast := List.countP_eq_zero.mp hzero _ (List.getLast_mem hne)
  obtain ⟨chunk, hr⟩ := RecvResult.eq_data (Bool.eq_false_iff.mpr hlast)
  exact h chunk (by rw [List.getLast?_eq_some_getLast hne, hr])

/-- Calls that return have folded the answers they consumed. -/
theorem handleRecvs_consumed {s s' : SocketServer ω} {w w' : ω} {n : Nat}
    {script rest : List RecvResult} (h : s.handleRecvs w n script = some (s', w', rest)) :
    ∃ consumed, script = consumed ++ rest ∧ n = consumed.countP RecvResult.endsDrain
      ∧ Drained consumed ∧ consumed.foldl recvStep (s, w) = (s', w') := by
  induction script generalizing s w n with
  | nil =>
    cases n with
    | zero =>
      cases h
      exact ⟨[], rfl, rfl, drained_nil, rfl⟩
    | succ n => exact absurd h (by simp [handleRecvs, handleRecv])
  | cons r script ih =>
    cases n with
    | zero =>
      cases h
      exact ⟨[], rfl, rfl, drained_nil, rfl⟩
    | succ n =>
      cases hr : r.endsDrain with
      | false =>
        obtain ⟨chunk, rfl⟩ := RecvResult.eq_data hr
        rw [handleRecvs_data] at h
        obtain ⟨consumed, rfl, hn, hdrained, hfold⟩ := ih h
        refine ⟨.data chunk :: consumed, rfl, ?_, hdrained.cons ?_, hfold⟩
        · rw [hn, List.countP_cons_of_neg (by simp [hr])]
        · -- `n + 1` drains have ended, so `consumed` is not empty
          rintro rfl
          exact absurd hn (by simp)
      | true =>
        rw [handleRecvs_ends s w n hr] at h
        obtain ⟨consumed, rfl, hn, hdrained, hfold⟩ := ih h
        refine ⟨r :: consumed, rfl, ?_, hdrained.cons fun _ => hr, hfold⟩
        rw [hn, List.countP_cons_of_pos hr]

/-- As many calls as drains end in the answers consume exactly these. -/
theorem handleRecvs_of_drained (s : SocketServer ω) (w : ω) {consumed : List RecvResult}
    (hdrained : Drained consumed) (rest : List RecvResult) :
    s.handleRecvs w (consumed.countP RecvResult.endsDrain) (consumed ++ rest)
      = some ((consumed.foldl recvStep (s, w)).1, (consumed.foldl recvStep (s, w)).2, rest) := by
  induction consumed generalizing s w with
  | nil => rfl
  | cons r consumed ih =>
    have ih' := ih (recvStep (s, w) r).1 (recvStep (s, w) r).2 (drained_cons hdrained)
    rw [List.foldl_cons, List.cons_append]
    cases hr : r.endsDrain with
    | true =>
      rw [List.countP_cons_of_pos hr, handleRecvs_ends s w _ hr]
      exact ih'
    | false =>
      rw [List.countP_cons_of_neg (by simp [hr])]
      obtain ⟨chunk, rfl⟩ := RecvResult.eq_data hr
      -- the chunk is not the last answer, so the call goes on behind it
      have hne : consumed ≠ [] := by
        rintro rfl
        exact hdrained chunk rfl
      obtain ⟨n, hn⟩ :=
        Nat.exists_eq_succ_of_ne_zero ((drained_cons hdrained).countP_ne_zero hne)
      rw [hn] at ih' ⊢
      rw [handleRecvs_data]
      exact ih'

end Fold

/-! ## Payloads -/

/-- What one answer does to the payloads handed over and the bytes not handed
over yet. -/
def drainStep (d : List Bytes × Bytes) : RecvResult → List Bytes × Bytes
  | .data chunk => (d.1, d.2 ++ chunk.bytes)
  | .again => if d.2.isEmpty then d else (d.1 ++ [d.2], [])
  | .closed => d
  | .error => d

/-- The end of a drain hands over what there is, if anything. -/
theorem drainStep_again (d : List Bytes × Bytes) :
    (d.2 = [] ∧ drainStep d .again = d)
      ∨ (d.2 ≠ [] ∧ drainStep d .again = (d.1 ++ [d.2], [])) := by
  by_cases hempty : d.2 = []
  · exact .inl ⟨hempty, if_pos (by simp [hempty])⟩
  · exact .inr ⟨hempty, if_neg (by simp [hempty])⟩

/-- The payloads the callback has got after these answers, and the bytes it
has not. -/
def drains (script : List RecvResult) : List Bytes × Bytes := script.foldl drainStep ([], [])

theorem drains_snoc (script : List RecvResult) (r : RecvResult) :
    drains (script ++ [r]) = drainStep (drains script) r := by
  simp [drains]

theorem received_snoc (script : List RecvResult) (r : RecvResult) :
    received (script ++ [r]) = received script ++ received [r] := received_append ..

/-- No byte is made up or dropped between the two. -/
theorem drains_conserve (script : List RecvResult) :
    (drains script).1.flatten ++ (drains script).2 = received script := by
  induction script using List.reverseRecOn with
  | nil => rfl
  | append_singleton script r ih =>
    rw [drains_snoc, received_snoc, ← ih]
    cases r with
    | data chunk => simp [drainStep, received]
    | again =>
      rcases drainStep_again (drains script) with ⟨-, hstep⟩ | ⟨-, hstep⟩
      · simp [hstep, received]
      · simp [hstep, received]
    | closed => simp [drainStep, received]
    | error => simp [drainStep, received]

/-- No payload is empty. -/
theorem drains_ne_nil (script : List RecvResult) : ∀ p ∈ (drains script).1, p ≠ [] := by
  induction script using List.reverseRecOn with
  | nil => exact fun p hp => absurd hp List.not_mem_nil
  | append_singleton script r ih =>
    rw [drains_snoc]
    cases r with
    | data chunk => exact ih
    | again =>
      rcases drainStep_again (drains script) with ⟨-, hstep⟩ | ⟨hne, hstep⟩
      · rw [hstep]
        exact ih
      · rw [hstep]
        intro p hp
        rcases List.mem_append.mp hp with hp | hp
        · exact ih p hp
        · obtain rfl := List.mem_singleton.mp hp
          exact hne
    | closed => exact ih
    | error => exact ih

variable {ω : Type}

/-- `SocketServer` when `start` has returned true. -/
def SocketServer.started (serverFd clientFd : Int) (messageCallback : Option (Bytes → ω → ω)) :
    SocketServer ω where
  serverFd := serverFd
  clientFd := clientFd
  clientBuffer := []
  running := true
  messageCallback := messageCallback

/-- The server's buffer and what its callback has done are those of
`drains`. -/
theorem foldl_recvStep (serverFd clientFd : Int) (callback : Bytes → ω → ω) (w : ω)
    (script : List RecvResult) :
    let sw := script.foldl recvStep (started serverFd clientFd (some callback), w)
    sw.1.clientBuffer = (drains script).2 ∧ sw.1.messageCallback = some callback
      ∧ sw.2 = (drains script).1.foldl (fun w payload => callback payload w) w := by
  induction script using List.reverseRecOn with
  | nil => exact ⟨rfl, rfl, rfl⟩
  | append_singleton script r ih =>
    obtain ⟨hbuffer, hcallback, hworld⟩ := ih
    simp only [List.foldl_append, List.foldl_cons, List.foldl_nil, drains_snoc]
    cases r with
    | data chunk => exact ⟨by simp [recvStep, drainStep, hbuffer], hcallback, hworld⟩
    | again =>
      show _ = (drainStep (drains script) .again).2 ∧ _ = _ ∧ _ = _
      rcases drainStep_again (drains script) with ⟨hempty, hstep⟩ | ⟨hne, hstep⟩
      · rw [hstep, recvStep, deliver, if_pos (by rw [hbuffer, hempty]; rfl)]
        exact ⟨hbuffer, hcallback, hworld⟩
      · rw [hstep, recvStep, deliver, if_neg (by simp [hbuffer, hne])]
        exact ⟨rfl, hcallback, by simp [hcallback, hworld, hbuffer]⟩
    | closed => exact ⟨hbuffer, hcallback, hworld⟩
    | error => exact ⟨hbuffer, hcallback, hworld⟩

/-! ## No byte is lost, but at a disconnect -/

/-- The callback that keeps its payloads. -/
def recordPayload (payload : Bytes) (payloads : List Bytes) : List Bytes := payloads ++ [payload]

theorem foldl_recordPayload (ps qs : List Bytes) :
    ps.foldl (fun w payload => recordPayload payload w) qs = qs ++ ps := by
  induction ps generalizing qs with
  | nil => simp
  | cons p ps ih => rw [List.foldl_cons, ih, recordPayload, List.append_assoc]; rfl

/-- Whenever a call of `handle_recv` returns, every byte read has gone to the
callback. -/
def NoByteLost (server : SocketServer (List Bytes)) (script : List RecvResult) : Prop :=
  ∀ n server' payloads rest consumed,
    server.handleRecvs [] n script = some (server', payloads, rest) → script = consumed ++ rest →
      payloads.flatten = received consumed

/-- Data is directly followed by a close or an error. -/
def DataThenEnd (script : List RecvResult) : Prop :=
  ∃ pre chunk r post, script = pre ++ .data chunk :: r :: post ∧ (r = .closed ∨ r = .error)

/-- Bytes are left in the buffer behind data, or when they were left by an
aborted drain. -/
theorem buffer_eq_nil {script : List RecvResult} (hend : ¬DataThenEnd script)
    (hdrained : Drained script) : (drains script).2 = [] := by
  induction script using List.reverseRecOn with
  | nil => rfl
  | append_singleton script r ih =>
    have hend' : ¬DataThenEnd script := by
      rintro ⟨pre, chunk, q, post, rfl, hq⟩
      exact hend ⟨pre, chunk, q, post ++ [r], by simp, hq⟩
    -- a close or an error comes right behind an answer that is not data
    have hquiet : r = .closed ∨ r = .error → Drained script := by
      intro hr chunk hlast
      obtain ⟨pre, rfl⟩ := List.getLast?_eq_some_iff.mp hlast
      exact hend ⟨pre, chunk, r, [], by simp, hr⟩
    rw [drains_snoc]
    cases r with
    | data chunk => exact absurd (drained_snoc.mp hdrained) (by simp [RecvResult.endsDrain])
    | again =>
      rcases drainStep_again (drains script) with ⟨hempty, hstep⟩ | ⟨-, hstep⟩
      · rw [hstep, hempty]
      · rw [hstep]
    | closed => exact ih hend' (hquiet (.inl rfl))
    | error => exact ih hend' (hquiet (.inr rfl))

/-- **No received byte is lost, except at a disconnect.** -/
theorem noByteLost_iff (serverFd clientFd : Int) (script : List RecvResult) :
    NoByteLost (started serverFd clientFd (some recordPayload)) script
      ↔ ¬DataThenEnd script := by
  have hworld : ∀ consumed : List RecvResult,
      (consumed.foldl recvStep (started serverFd clientFd (some recordPayload), [])).2
        = (drains consumed).1 := fun consumed => by
    rw [(foldl_recvStep serverFd clientFd recordPayload [] consumed).2.2, foldl_recordPayload,
      List.nil_append]
  constructor
  · rintro h ⟨pre, chunk, r, post, rfl, hr⟩
    have hdrained : Drained (pre ++ [.data chunk] ++ [r]) := by
      rw [drained_snoc]
      rcases hr with rfl | rfl <;> rfl
    have hsplit : pre ++ .data chunk :: r :: post = (pre ++ [.data chunk] ++ [r]) ++ post := by
      simp
    rw [hsplit] at h
    have hflat := h _ _ _ _ _ (handleRecvs_of_drained _ [] hdrained post) rfl
    rw [hworld, ← drains_conserve, List.self_eq_append_right] at hflat
    -- the chunk is still in the buffer
    have hbuffer : (drains (pre ++ [.data chunk] ++ [r])).2
        = (drains pre).2 ++ chunk.bytes := by
      rw [drains_snoc, drains_snoc]
      rcases hr with rfl | rfl <;> rfl
    rw [hbuffer] at hflat
    exact chunk.nonempty (List.append_eq_nil_iff.mp hflat).2
  · intro hend n server' payloads rest consumed hrun hscript
    obtain ⟨consumed', hscript', -, hdrained, hfold⟩ := handleRecvs_consumed hrun
    obtain rfl : consumed = consumed' := List.append_cancel_right (hscript.symm.trans hscript')
    have hend' : ¬DataThenEnd consumed := by
      rintro ⟨pre, chunk, r, post, rfl, hr⟩
      exact hend ⟨pre, chunk, r, post ++ rest, by simp [hscript], hr⟩
    have hpayloads : payloads = (drains consumed).1 := by rw [← hworld, hfold]
    rw [hpayloads, ← drains_conserve, buffer_eq_nil hend' hdrained, List.append_nil]

/-- One byte and an orderly close in the same drain: the byte is lost. -/
theorem byte_lost_at_close :
    ¬NoByteLost (started 3 4 (some recordPayload))
      [.data ⟨ascii "x", by decide, by decide⟩, .closed] := by
  intro h
  have hlost := h 1 _ _ [] _ rfl (List.append_nil _).symm
  exact absurd hlost (by decide)

end LogMetrics.MetricsApplication
