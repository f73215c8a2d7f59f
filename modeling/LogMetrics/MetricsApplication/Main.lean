import LogMetrics.Stoi

/-!
# `main` of the metrics application: its arguments

`src/metrics_application/main.cpp`, up to the call of `create_application`.
The first of `argv` is `program`, the others are `args`. Each number goes
through `std::stoi` and one comparison (`readParameter`); `e.what()` of the
two exceptions of `std::stoi` is its name.
-/

namespace LogMetrics.MetricsApplication

/-- What `create_application` is called with. -/
structure Parameters where
  host : Bytes
  port : Int
  messageInterval : Int
  timeoutSeconds : Int
  deriving DecidableEq, Repr

/-- `return 1`, with what was printed before. -/
inductive Refusal where
  | usage (printed : Bytes)
  | error (printed : Bytes)
  deriving DecidableEq, Repr

/-- `print_usage`. -/
def printUsage (program : Bytes) : Bytes :=
  ascii "Usage: " ++ program ++ ascii " <host> <port> <N> <T>\n\n"
    ++ ascii "Parameters:\n"
    ++ ascii "  host - Host address to bind to (e.g., 127.0.0.1, 0.0.0.0)\n"
    ++ ascii "  port - Port number to listen on\n"
    ++ ascii "  N    - Print stats after every N messages\n"
    ++ ascii "  T    - Print stats after T seconds of timeout (if stats changed)\n\n"
    ++ ascii "Examples:\n"
    ++ ascii "  " ++ program ++ ascii " 127.0.0.1 9000 10 30\n"
    ++ ascii "    (Print stats every 10 messages or after 30 seconds of inactivity)\n"

/-- A number of the command line: `std::stoi` in the `try` block, and the test
that prints `complaint`. -/
def readParameter (arg : Bytes) (outside : Int → Bool) (complaint : Bytes) : Except Refusal Int :=
  match stoi arg with
  | none => .error (.error (ascii "Error: Invalid parameter - stoi\n"))
  | some value => if outside value then .error (.error complaint) else .ok value

/-- `port <= 0 || port > 65535`. -/
def readPort (arg : Bytes) : Except Refusal Int :=
  readParameter arg (fun port => decide (port ≤ 0) || decide (port > 65535))
    (ascii "Error: Port must be between 1 and 65535\n")

/-- `message_interval <= 0`. -/
def readMessageInterval (arg : Bytes) : Except Refusal Int :=
  readParameter arg (fun messageInterval => decide (messageInterval ≤ 0))
    (ascii "Error: Message interval N must be positive\n")

/-- `timeout_seconds <= 0`. -/
def readTimeout (arg : Bytes) : Except Refusal Int :=
  readParameter arg (fun timeoutSeconds => decide (timeoutSeconds ≤ 0))
    (ascii "Error: Timeout T must be positive\n")

/-- `main`: the parameters, or why it returns 1. -/
def readParameters (program : Bytes) (args : List Bytes) : Except Refusal Parameters :=
  match args with
  | [host, portStr, intervalStr, timeoutStr] => do
    let port ← readPort portStr
    let messageInterval ← readMessageInterval intervalStr
    let timeoutSeconds ← readTimeout timeoutStr
    return { host, port, messageInterval, timeoutSeconds }
  | _ => .error (.usage (printUsage program))

theorem readParameter_ok_iff {arg complaint : Bytes} {outside : Int → Bool} {value : Int} :
    readParameter arg outside complaint = .ok value
      ↔ stoi arg = some value ∧ outside value = false := by
  unfold readParameter
  cases hstoi : stoi arg with
  | none => simp
  | some v =>
    dsimp only
    cases houtside : outside v with
    | true =>
      constructor
      · intro h
        exact absurd h (by simp)
      · intro h
        obtain rfl := Option.some.inj h.1
        exact absurd (houtside.symm.trans h.2) (by simp)
    | false =>
      constructor
      · intro h
        obtain rfl := Except.ok.inj h
        exact ⟨rfl, houtside⟩
      · intro h
        obtain rfl := Option.some.inj h.1
        rfl

theorem readPort_ok_iff {arg : Bytes} {port : Int} :
    readPort arg = .ok port ↔ stoi arg = some port ∧ 1 ≤ port ∧ port ≤ 65535 := by
  rw [readPort, readParameter_ok_iff, Bool.or_eq_false_iff, decide_eq_false_iff_not,
    decide_eq_false_iff_not]
  exact and_congr_right fun _ => by omega

theorem readMessageInterval_ok_iff {arg : Bytes} {messageInterval : Int} :
    readMessageInterval arg = .ok messageInterval
      ↔ stoi arg = some messageInterval ∧ 1 ≤ messageInterval := by
  rw [readMessageInterval, readParameter_ok_iff, decide_eq_false_iff_not]
  exact and_congr_right fun _ => by omega

theorem readTimeout_ok_iff {arg : Bytes} {timeoutSeconds : Int} :
    readTimeout arg = .ok timeoutSeconds
      ↔ stoi arg = some timeoutSeconds ∧ 1 ≤ timeoutSeconds := by
  rw [readTimeout, readParameter_ok_iff, decide_eq_false_iff_not]
  exact and_congr_right fun _ => by omega

theorem bind_ok_iff {ε α β : Type} {x : Except ε α} {next : α → Except ε β} {b : β} :
    x >>= next = .ok b ↔ ∃ a, x = .ok a ∧ next a = .ok b := by
  cases x with
  | error e =>
    constructor
    · intro h
      exact absurd h (by simp [bind, Except.bind])
    · intro h
      obtain ⟨a, ha, -⟩ := h
      exact absurd ha (by simp)
  | ok a =>
    constructor
    · intro h
      exact ⟨a, rfl, h⟩
    · intro h
      obtain ⟨a', ha, hnext⟩ := h
      obtain rfl := Except.ok.inj ha
      exact hnext

/-- Every number passed its own check. -/
theorem readParameters_ok_iff {program host portStr intervalStr timeoutStr : Bytes}
    {parameters : Parameters} :
    readParameters program [host, portStr, intervalStr, timeoutStr] = .ok parameters
      ↔ parameters.host = host ∧ readPort portStr = .ok parameters.port
          ∧ readMessageInterval intervalStr = .ok parameters.messageInterval
          ∧ readTimeout timeoutStr = .ok parameters.timeoutSeconds := by
  unfold readParameters
  dsimp only
  rw [bind_ok_iff]
  constructor
  · intro h
    obtain ⟨port, hport, h⟩ := h
    obtain ⟨messageInterval, hinterval, h⟩ := bind_ok_iff.1 h
    obtain ⟨timeoutSeconds, htimeout, h⟩ := bind_ok_iff.1 h
    obtain rfl := Except.ok.inj h
    exact ⟨rfl, hport, hinterval, htimeout⟩
  · intro h
    obtain ⟨rfl, hport, hinterval, htimeout⟩ := h
    exact ⟨_, hport, bind_ok_iff.2 ⟨_, hinterval, bind_ok_iff.2 ⟨_, htimeout, rfl⟩⟩⟩

end LogMetrics.MetricsApplication
