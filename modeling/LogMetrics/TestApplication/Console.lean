import LogMetrics.TestApplication.Main

/-!
# What the test application shows

`print_welcome_message`, `print_help` and the prompts of `run`: all that goes
to the standard output while the application runs. Only the main thread prints,
but whether it prints a prompt it asks `is_running_`, and where it is depends on
the queue and the worker it waits for.

What a state will still show (`unshown`) is what its next step shows and what
the state behind it will still show (`stepMain_unshown`), and the worker changes
nothing of it. So every interleaving shows the transcript of the lines, as far
as it has come (`program_shows`).
-/

set_option linter.dupNamespace false

namespace LogMetrics.TestApplication

open LogMetrics.Base
open LogMetrics.Logger (LogLevel ILogSink FileWrite SocketSink)
open TestApplication (processCommand afterStop)

/-- `print_available_levels`. -/
def printAvailableLevels : Bytes := ascii "Available levels: debug, info, warning, error, fatal\n"

/-- `print_help`. -/
def printHelp : Bytes :=
  ascii "\n=== Logger Console Application Help ===\n"
    ++ ascii "Commands:\n"
    ++ ascii "  <message>                - Log message with default level\n"
    ++ ascii "  <message> <level>        - Log message with specified level\n"
    ++ ascii "  help                     - Show this help\n"
    ++ ascii "  exit/quit                - Exit application\n\n"
    ++ printAvailableLevels
    ++ ascii "\nExamples:\n"
    ++ ascii "  Hello World              - Log 'Hello World' with default level\n"
    ++ ascii "  Connection failed error  - Log 'Connection failed' as ERROR\n"
    ++ ascii "========================================\n\n"

/-- `print_welcome_message`. -/
def printWelcomeMessage : Bytes :=
  ascii "\n=== Logger Console Application ===\n"
    ++ ascii "Type 'help' for available commands\n"
    ++ ascii "Type 'exit' or 'quit' to exit\n"
    ++ ascii "===================================\n\n"

def prompt : Bytes := ascii "> "

/-- What `process_command` prints. -/
def printCommand (command : ParsedCommand) : Bytes :=
  match command.type with
  | .help => printHelp
  | _ => []

variable {σ : Type}

/-- What the next step of the main thread prints. -/
def printed (t : TestApplication σ) : Bytes :=
  match t.main with
  | .storeRunning => printWelcomeMessage ++ prompt
  | .getline =>
    match t.input with
    | [] => []
    | line :: _ =>
      match parseCommand line with
      | none => []
      | some command => printCommand command
  | .prompt => if t.isRunning then prompt else []
  | _ => []

/-- What a step of the threads prints: the worker prints nothing. -/
def console (t : TestApplication σ) : AppAction → Bytes
  | .main _ => printed t
  | _ => []

/-! ## The transcript -/

/-- What follows a line that does not end the input. -/
def answer (line : Bytes) : Bytes :=
  match parseCommand line with
  | none => prompt
  | some command => printCommand command ++ prompt

/-- What follows the lines, up to the first that ends the input. -/
def answers (lines : List Bytes) : Bytes :=
  (lines.takeWhile fun line => !isExit line).flatMap answer

/-- All that is shown for the lines. -/
def transcript (lines : List Bytes) : Bytes := printWelcomeMessage ++ prompt ++ answers lines

theorem answers_cons (line : Bytes) (lines : List Bytes) :
    answers (line :: lines) = if isExit line then [] else answer line ++ answers lines := by
  cases hexit : isExit line with
  | true => simp [answers, hexit]
  | false => simp [answers, hexit]

/-- What will still be shown. -/
def unshown (t : TestApplication σ) : Bytes :=
  match t.main with
  | .storeRunning => transcript t.input
  | .spawn => answers t.input
  | .loop => if t.isRunning then answers t.input else []
  | .getline => answers t.input
  | .push _ => prompt ++ answers t.input
  | .prompt => if t.isRunning then prompt ++ answers t.input else []
  | _ => []

/-! ## The steps -/

section Threads

variable {t t' : TestApplication σ}

/-- Behind `stop` nothing is shown any more. -/
theorem unshown_afterStop (final : Bool) (hstopped : t.isRunning = false) :
    unshown { t with main := afterStop final } = [] := by
  cases final with
  | true => rfl
  | false => simp [unshown, afterStop, hstopped]

/-- A line read is answered by what is printed at once and a prompt, or it ends
the input. -/
theorem read_unshown {line : Bytes} (input : List Bytes) {command : ParsedCommand}
    (hrun : t.isRunning = true) (hparse : parseCommand line = some command) :
    answers (line :: input) = printCommand command
      ++ unshown { t with input, main := processCommand t.defaultLevel command } := by
  rw [answers_cons, isExit, answer, hparse]
  cases htype : command.type with
  | logMessage => simp [unshown, processCommand, printCommand, htype]
  | help => simp [unshown, processCommand, printCommand, htype, hrun]
  | exit => simp [unshown, processCommand, printCommand, htype]

theorem stepMain_unshown {notified : Option Unit} (hok : MainOk t)
    (hstep : t.stepMain notified = some t') : unshown t = printed t ++ unshown t' := by
  unfold TestApplication.stepMain at hstep
  unfold MainOk at hok
  split at hstep
  next hpc =>
    cases hstep
    simp [unshown, printed, hpc, transcript]
  next hpc =>
    rw [hpc] at hok
    cases hstep
    simp [unshown, printed, hpc, hok.1]
  next hpc =>
    split at hstep
    next hrun =>
      cases hstep
      simp [unshown, printed, hpc, hrun]
    next hrun =>
      cases hstep
      simp [unshown, printed, hpc, hrun]
  next hpc =>
    rw [hpc] at hok
    split at hstep
    next hinput =>
      cases hstep
      simp [unshown, printed, hpc, hinput, answers]
    next line input hinput =>
      split at hstep
      next hparse =>
        cases hstep
        have hexit : isExit line = false := by simp [isExit, hparse]
        simp [unshown, printed, hpc, hinput, hparse, answers_cons, hexit, answer, hok.1]
      next command hparse =>
        cases hstep
        have hread := read_unshown (t := t) input hok.1 hparse
        simpa [unshown, printed, hpc, hinput, hparse] using hread
  next entry hpc =>
    rw [hpc] at hok
    split at hstep
    next => exact absurd hstep (by simp)
    next logQueue hpush =>
      cases hstep
      simp [unshown, printed, hpc, hok.1]
  next hpc =>
    cases hstep
    cases hrun : t.isRunning with
    | true => simp [unshown, printed, hpc, hrun]
    | false => simp [unshown, printed, hpc, hrun]
  next final hpc =>
    split at hstep
    next hrun =>
      cases hstep
      simp [unshown, printed, hpc]
    next hrun =>
      cases hstep
      rw [unshown_afterStop final (by simpa using hrun)]
      simp [unshown, printed, hpc]
  next final hpc =>
    cases hstep
    simp [unshown, printed, hpc]
  next final hpc =>
    cases hstep
    simp [unshown, printed, hpc]
  next final hpc =>
    rw [hpc] at hok
    split at hstep
    next hworker =>
      cases hstep
      rw [unshown_afterStop final hok.1]
      simp [unshown, printed, hpc]
    next => exact absurd hstep (by simp)
  next => exact absurd hstep (by simp)

/-- The worker and the wakeups leave to the main thread what it will show. -/
theorem other_unshown {a : AppAction} (ha : ∀ notified, a ≠ .main notified)
    (hstep : AppStep t a t') : unshown t' = unshown t := by
  cases hstep with
  | workerMove pc hmove => rfl
  | sleep drain hpc hawake hrun => rfl
  | item entry rest drain hpc hawake hqueue => rfl
  | drained drain hpc hawake hqueue hrun => rfl
  | log entry drain hpc logger formatted => rfl
  | wake logQueue hwake => rfl
  | _ notified => exact absurd rfl (ha notified)

end Threads

/-! ## Whole runs -/

section Runs

variable [ILogSink σ] {timestamps : Nat → Bytes} {level : LogLevel} {sink : σ}
  {lines : List Bytes} {as : List AppAction} {s : TestApplication σ} {es : List Empty}

/-- What has been shown and what will be are the transcript. -/
theorem run_shown
    (hrun : (appMachine timestamps).run (.created level sink lines) as = some (s, es)) :
    (appMachine timestamps).notes (fun t a _ => console t a) (.created level sink lines) as
      ++ unshown s = transcript lines := by
  refine (appMachine timestamps).notes_append_rest
    (P := Running timestamps level sink lines) unshown ?_ hrun
    (created_running timestamps level sink lines)
  intro s a s' es hinv hstep
  refine ⟨running_ranked.keeps hinv hstep, ?_⟩
  cases a with
  | main notified =>
    obtain ⟨t, hmain, heq⟩ := Option.map_eq_some_iff.mp hstep
    cases heq
    obtain ⟨⟨done, hdelivery⟩, -⟩ := hinv
    exact stepMain_unshown hdelivery.main hmain
  | worker => exact (other_unshown (by simp) (appStep_inv hstep)).symm
  | wake => exact (other_unshown (by simp) (appStep_inv hstep)).symm

/-- What has been shown at any instant, and at the end. -/
theorem run_shows
    (hrun : (appMachine timestamps).run (.created level sink lines) as = some (s, es)) :
    (appMachine timestamps).notes (fun t a _ => console t a) (.created level sink lines) as
        <+: transcript lines
      ∧ ((∀ a, (appMachine timestamps).step s a = none) →
        (appMachine timestamps).notes (fun t a _ => console t a) (.created level sink lines) as
          = transcript lines) := by
  have hshown := run_shown hrun
  refine ⟨⟨_, hshown⟩, fun hstuck => ?_⟩
  have hended := (ended_of_stuck (run_running hrun) hstuck).1
  rwa [unshown, hended, List.append_nil] at hshown

end Runs

/-- **What the user sees.** Whatever the two threads do, and whatever becomes
of the file or the connection, the program shows a prefix of the transcript of
the lines, and all of it when nothing is left to do: the welcome, and behind
each line before the first `exit` the help, if it asks for it, and a prompt. -/
theorem program_shows (files : Bytes → Option (List FileWrite))
    (sockets : Bytes → Int → SocketSink) (timestamps : Nat → Bytes) (program : Bytes)
    (args lines : List Bytes) :
    (∀ application, main files sockets program args lines = .runsFile application →
      ∀ as s es, (appMachine timestamps).run application as = some (s, es) →
        (appMachine timestamps).notes (fun t a _ => console t a) application as
            <+: transcript lines
          ∧ ((∀ a, (appMachine timestamps).step s a = none) →
            (appMachine timestamps).notes (fun t a _ => console t a) application as
              = transcript lines))
      ∧ ∀ application, main files sockets program args lines = .runsSocket application →
        ∀ as s es, (appMachine timestamps).run application as = some (s, es) →
          (appMachine timestamps).notes (fun t a _ => console t a) application as
              <+: transcript lines
            ∧ ((∀ a, (appMachine timestamps).step s a = none) →
              (appMachine timestamps).notes (fun t a _ => console t a) application as
                = transcript lines) := by
  have hcase := main_case files sockets program args lines
  refine ⟨fun application hmain as s es hrun => ?_, fun application hmain as s es hrun => ?_⟩
  · rw [hmain] at hcase
    cases hcase with
    | file hargs hcreated =>
      obtain ⟨outcomes, -, rfl⟩ := createApplication_eq_some_iff.mp hcreated
      exact run_shows hrun
  · rw [hmain] at hcase
    cases hcase with
    | socket hargs hcreated =>
      obtain ⟨-, rfl⟩ := createSocketApplication_eq_some_iff.mp hcreated
      exact run_shows hrun

/-- The help, and the end; the worker starts when it is to stop. -/
def helpLines : List Bytes := [ascii "help", ascii "exit"]

def helpSchedule : List AppAction :=
  List.replicate 10 (.main none) ++ [.worker, .worker] ++ List.replicate 4 (.main none)

theorem program_shows_help :
    ∃ application s es,
      main appLog noSocket (ascii "app") [ascii "--file", ascii "app.log"] helpLines
        = .runsFile application
      ∧ (appMachine fun _ => ascii "t").run application helpSchedule = some (s, es)
      ∧ (appMachine fun _ => ascii "t").notes (fun t a _ => console t a) application helpSchedule
        = printWelcomeMessage ++ prompt ++ (printHelp ++ prompt) := by
  obtain ⟨application, hmain, s, es, hrun, hstuck⟩ : ∃ application,
      main appLog noSocket (ascii "app") [ascii "--file", ascii "app.log"] helpLines
          = .runsFile application
        ∧ ∃ s es, (appMachine fun _ => ascii "t").run application helpSchedule = some (s, es)
          ∧ ∀ a, (appMachine fun _ => ascii "t").step s a = none :=
    ⟨_, rfl, _, _, rfl, fun a => by cases a <;> rfl⟩
  obtain ⟨hfile, -⟩ := program_shows appLog noSocket (fun _ => ascii "t") (ascii "app")
    [ascii "--file", ascii "app.log"] helpLines
  refine ⟨application, s, es, hmain, hrun, ?_⟩
  rw [(hfile application hmain helpSchedule s es hrun).2 hstuck, transcript,
    show answers helpLines = printHelp ++ prompt by decide +kernel]

end LogMetrics.TestApplication
