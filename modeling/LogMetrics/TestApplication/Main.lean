import Mathlib.Data.List.Infix
import LogMetrics.Decimal
import LogMetrics.Logger.SocketSinkLife
import LogMetrics.Stoi
import LogMetrics.TestApplication.ArgumentParser
import LogMetrics.TestApplication.Termination

/-!
# `main` of the test application

`src/test_application/main.cpp`, with `create_logger` and `create_application`
behind it: the words of the command line and the lines of the input become
what the file or the connection gets. The first of `argv` is `program`, the
others, which `utility::parse_arguments` copies, are `args`. What the file
system and the network answer is a parameter: `files` says of each name what
the writes to the file will meet, if it can be opened, and `sockets` is the
sink that the constructor of `SocketSink` leaves.

`main_decides` says which of its ends `main` comes to. It goes on with the two
threads, on a file or a socket, and `program_writes` and `program_sends` follow
them to their end.
-/

set_option linter.dupNamespace false

namespace LogMetrics.TestApplication

open LogMetrics.Base
open LogMetrics.Logger (LogLevel FileSink FileWrite SocketSink ILogSink)

/-- `print_usage`. -/
def printUsage (program : Bytes) : Bytes :=
  ascii "Usage:\n"
    ++ ascii "  " ++ program ++ ascii " --file <filename> [--level <level>]\n"
    ++ ascii "  " ++ program ++ ascii " --socket <host> <port> [--level <level>]\n"
    ++ ascii "  " ++ program ++ ascii " --help\n\n"
    ++ ascii "Options:\n"
    ++ ascii "  --file <filename>      Log to file\n"
    ++ ascii "  --socket <host> <port> Log to socket server\n"
    ++ ascii "  --level <level>        Set default log level (debug, info, warning, error, fatal) "
    ++ ascii "(Default: info)\n"
    ++ ascii "  --help, -h             Show this help\n\n"
    ++ ascii "Examples:\n"
    ++ ascii "  " ++ program ++ ascii " --file app.log\n"
    ++ ascii "  " ++ program ++ ascii " --file app.log --level debug\n"
    ++ ascii "  " ++ program ++ ascii " --socket 127.0.0.1 9000 --level error\n"

/-- How far `main` gets: it returns with a status, having printed to the two
streams; or it runs the application, on a file or a socket; `undefined` is a
word read that is not there. When no connection comes about, `err` is without
the line in which the constructor of `SocketSink` says why. -/
inductive MainOutcome where
  | returns (status : Nat) (out err : Bytes)
  | runsFile (application : TestApplication FileSink)
  | runsSocket (application : TestApplication SocketSink)
  | undefined

section Main

variable (files : Bytes → Option (List FileWrite)) (sockets : Bytes → Int → SocketSink)

/-- `create_logger` for a file. -/
def createFileLogger (filename : Bytes) (defaultLevel : LogLevel) :
    Option (Logger.Logger FileSink) :=
  Logger.Logger.createLogger (FileSink.construct (files filename)) defaultLevel

/-- `create_logger` for a socket. -/
def createSocketLogger (host : Bytes) (port : Int) (defaultLevel : LogLevel) :
    Option (Logger.Logger SocketSink) :=
  Logger.Logger.createLogger (sockets host port) defaultLevel

/-- `create_application` behind the return of `create_logger`; `input` is what
the application will read. -/
def createFrom {σ : Type} (logger : Option (Logger.Logger σ)) (defaultLevel : LogLevel)
    (input : List Bytes) : Option (TestApplication σ) :=
  match logger with
  | none => none
  | some logger => some (.construct logger defaultLevel input)

/-- `create_application` for a file. -/
def createApplication (filename : Bytes) (defaultLevel : LogLevel) (input : List Bytes) :
    Option (TestApplication FileSink) :=
  createFrom (createFileLogger files filename defaultLevel) defaultLevel input

/-- `create_application` for a socket. -/
def createSocketApplication (host : Bytes) (port : Int) (defaultLevel : LogLevel)
    (input : List Bytes) : Option (TestApplication SocketSink) :=
  createFrom (createSocketLogger sockets host port defaultLevel) defaultLevel input

/-- `main`. -/
def main (program : Bytes) (args input : List Bytes) : MainOutcome :=
  match parseArguments stoi args with
  | .error (.rejected printed) => .returns 1 (printUsage program) printed
  | .error (.outOfRange _) => .undefined
  | .ok config =>
    match config.mode with
    | .help => .returns 0 (printUsage program) []
    | .file =>
      match createApplication files config.filename config.level input with
      | some application => .runsFile application
      | none =>
        .returns 1 []
          (ascii "Failed to create Test application with file: " ++ config.filename ++ ascii "\n")
    | .socket =>
      match createSocketApplication sockets config.host config.port config.level input with
      | some application => .runsSocket application
      | none =>
        .returns 1 []
          (ascii "Failed to create Test application with socket: " ++ config.host ++ ascii ":"
            ++ printInt config.port ++ ascii "\n")

end Main

/-! ## Creation -/

section Create

variable {files : Bytes → Option (List FileWrite)} {sockets : Bytes → Int → SocketSink}
  {level : LogLevel} {input : List Bytes}

/-- An application is created for a sink that is valid, ready to run. -/
theorem createFrom_eq_some_iff {σ : Type} [ILogSink σ] {sink : σ}
    {application : TestApplication σ} :
    createFrom (Logger.Logger.createLogger sink level) level input = some application
      ↔ ILogSink.isValid sink = true ∧ application = .created level sink input := by
  unfold Logger.Logger.createLogger
  cases hvalid : ILogSink.isValid sink with
  | false => simp [createFrom]
  | true =>
    constructor
    · intro h
      exact ⟨rfl, (Option.some.inj h).symm⟩
    · intro h
      rw [h.2]
      rfl

/-- A new file sink is valid when the file could be opened. -/
theorem construct_valid_iff {file : Option (List FileWrite)} :
    ILogSink.isValid (FileSink.construct file) = true ↔ ∃ outcomes, file = some outcomes := by
  cases file with
  | none => exact ⟨fun h => absurd h Bool.false_ne_true, fun h => absurd h (by simp)⟩
  | some outcomes => exact ⟨fun _ => ⟨outcomes, rfl⟩, fun _ => rfl⟩

theorem createApplication_eq_some_iff {filename : Bytes}
    {application : TestApplication FileSink} :
    createApplication files filename level input = some application
      ↔ ∃ outcomes, files filename = some outcomes
          ∧ application = .created level { isOpen := true, good := true, outcomes } input := by
  rw [createApplication, createFileLogger, createFrom_eq_some_iff, construct_valid_iff]
  constructor
  · intro h
    obtain ⟨⟨outcomes, hfile⟩, rfl⟩ := h
    exact ⟨outcomes, hfile, by rw [hfile]; rfl⟩
  · intro h
    obtain ⟨outcomes, hfile, rfl⟩ := h
    exact ⟨⟨outcomes, hfile⟩, by rw [hfile]; rfl⟩

theorem createSocketApplication_eq_some_iff {host : Bytes} {port : Int}
    {application : TestApplication SocketSink} :
    createSocketApplication sockets host port level input = some application
      ↔ (sockets host port).isValid = true
          ∧ application = .created level (sockets host port) input :=
  createFrom_eq_some_iff

end Create

/-! ## The ends of `main` -/

section Decide

variable {files : Bytes → Option (List FileWrite)} {sockets : Bytes → Int → SocketSink}
  {program : Bytes} {args input : List Bytes}

/-- The words stand for one configuration. -/
theorem arguments_unique {config config' : AppConfig} (h : Arguments stoi args config)
    (h' : Arguments stoi args config') : config = config' := by
  have hok := ((parseArguments_decides stoi args).ok_iff config).mpr h
  have hok' := ((parseArguments_decides stoi args).ok_iff config').mpr h'
  exact Except.ok.inj (hok.symm.trans hok')

theorem main_refused (h : ∀ config, ¬Arguments stoi args config) :
    ∃ printed, main files sockets program args input = .returns 1 (printUsage program) printed := by
  rcases (parseArguments_decides stoi args).total with ⟨config, hargs⟩ | ⟨printed, hparse⟩
  · exact absurd hargs (h config)
  · exact ⟨printed, by rw [main, hparse]⟩

theorem main_help (h : Arguments stoi args { mode := .help }) :
    main files sockets program args input = .returns 0 (printUsage program) [] := by
  rw [main, ((parseArguments_decides stoi args).ok_iff _).mpr h]

theorem main_file {filename : Bytes} {level : LogLevel}
    (h : Arguments stoi args { mode := .file, filename, level }) :
    (∃ application, createApplication files filename level input = some application
        ∧ main files sockets program args input = .runsFile application)
      ∨ (createApplication files filename level input = none
        ∧ ∃ err, main files sockets program args input = .returns 1 [] err) := by
  rw [main, ((parseArguments_decides stoi args).ok_iff _).mpr h]
  dsimp only
  cases createApplication files filename level input with
  | none => exact .inr ⟨rfl, _, rfl⟩
  | some application => exact .inl ⟨application, rfl, rfl⟩

theorem main_socket {host : Bytes} {port : Int} {level : LogLevel}
    (h : Arguments stoi args { mode := .socket, host, port, level }) :
    (∃ application, createSocketApplication sockets host port level input = some application
        ∧ main files sockets program args input = .runsSocket application)
      ∨ (createSocketApplication sockets host port level input = none
        ∧ ∃ err, main files sockets program args input = .returns 1 [] err) := by
  rw [main, ((parseArguments_decides stoi args).ok_iff _).mpr h]
  dsimp only
  cases createSocketApplication sockets host port level input with
  | none => exact .inr ⟨rfl, _, rfl⟩
  | some application => exact .inl ⟨application, rfl, rfl⟩

/-- The ends of `main`, by the words of the command line. -/
inductive MainCase (files : Bytes → Option (List FileWrite)) (sockets : Bytes → Int → SocketSink)
    (program : Bytes) (args input : List Bytes) : MainOutcome → Prop
  | refused {printed : Bytes} (h : ∀ config, ¬Arguments stoi args config) :
    MainCase files sockets program args input (.returns 1 (printUsage program) printed)
  | help (h : Arguments stoi args { mode := .help }) :
    MainCase files sockets program args input (.returns 0 (printUsage program) [])
  | file {filename : Bytes} {level : LogLevel}
    {application : TestApplication FileSink}
    (h : Arguments stoi args { mode := .file, filename, level })
    (hcreated : createApplication files filename level input = some application) :
    MainCase files sockets program args input (.runsFile application)
  | socket {host : Bytes} {port : Int} {level : LogLevel}
    {application : TestApplication SocketSink}
    (h : Arguments stoi args { mode := .socket, host, port, level })
    (hcreated : createSocketApplication sockets host port level input = some application) :
    MainCase files sockets program args input (.runsSocket application)
  | failed {err : Bytes} : MainCase files sockets program args input (.returns 1 [] err)

theorem main_case (files : Bytes → Option (List FileWrite)) (sockets : Bytes → Int → SocketSink)
    (program : Bytes) (args input : List Bytes) :
    MainCase files sockets program args input (main files sockets program args input) := by
  by_cases hconfig : ∃ config, Arguments stoi args config
  · obtain ⟨config, hargs⟩ := hconfig
    have hwords := hargs
    cases hwords with
    | help =>
      rw [main_help hargs]
      exact .help hargs
    | file =>
      rcases main_file hargs with ⟨application, hcreated, hmain⟩ | ⟨-, err, hmain⟩
      · rw [hmain]
        exact .file hargs hcreated
      · rw [hmain]
        exact .failed
    | socket =>
      rcases main_socket hargs with ⟨application, hcreated, hmain⟩ | ⟨-, err, hmain⟩
      · rw [hmain]
        exact .socket hargs hcreated
      · rw [hmain]
        exact .failed
  · have hnone : ∀ config, ¬Arguments stoi args config := fun config h => hconfig ⟨config, h⟩
    obtain ⟨printed, hmain⟩ := main_refused hnone
    rw [hmain]
    exact .refused hnone

/-- **What the command line comes to.** `main` reads no word that is not there
and returns 0 or 1 without running: 0 exactly for `--help` or `-h` in front.
It runs on a file exactly for the words of the grammar that name one that can
be opened, with the level they give, and on a socket exactly for those whose
host and port can be connected to, with one sink. -/
theorem main_decides (files : Bytes → Option (List FileWrite))
    (sockets : Bytes → Int → SocketSink) (program : Bytes) (args input : List Bytes) :
    main files sockets program args input ≠ .undefined
      ∧ (∀ status out err, main files sockets program args input = .returns status out err →
        (status = 0 ↔ Arguments stoi args { mode := .help }) ∧ status ≤ 1)
      ∧ (∀ application, main files sockets program args input = .runsFile application
        ↔ ∃ filename level outcomes, Arguments stoi args { mode := .file, filename, level }
          ∧ files filename = some outcomes
          ∧ application = .created level { isOpen := true, good := true, outcomes } input)
      ∧ ∀ application, main files sockets program args input = .runsSocket application
        ↔ ∃ host port level, Arguments stoi args { mode := .socket, host, port, level }
          ∧ (sockets host port).isValid = true
          ∧ application = .created level (sockets host port) input := by
  have hcase := main_case files sockets program args input
  refine ⟨fun h => ?_, fun status out err h => ?_, fun application => ⟨fun h => ?_, fun h => ?_⟩,
    fun application => ⟨fun h => ?_, fun h => ?_⟩⟩
  · rw [h] at hcase
    cases hcase
  · rw [h] at hcase
    cases hcase with
    | refused hnone =>
      exact ⟨⟨fun h0 => absurd h0 (by simp), fun hargs => absurd hargs (hnone _)⟩, by simp⟩
    | help hargs => exact ⟨⟨fun _ => hargs, fun _ => rfl⟩, by simp⟩
    | failed =>
      refine ⟨⟨fun h0 => absurd h0 (by simp), fun hargs => ?_⟩, by simp⟩
      rw [main_help hargs] at h
      exact absurd h (by simp)
  · rw [h] at hcase
    cases hcase with
    | file hargs hcreated =>
      obtain ⟨outcomes, hfile, happlication⟩ := createApplication_eq_some_iff.mp hcreated
      exact ⟨_, _, outcomes, hargs, hfile, happlication⟩
  · obtain ⟨filename, level, outcomes, hargs, hfile, happlication⟩ := h
    have hcreated := createApplication_eq_some_iff.mpr ⟨outcomes, hfile, happlication⟩
    rcases main_file hargs with ⟨application', hcreated', hmain⟩ | ⟨hfailed, -⟩
    · rw [hmain, Option.some.inj (hcreated'.symm.trans hcreated)]
    · exact absurd (hfailed.symm.trans hcreated) (by simp)
  · rw [h] at hcase
    cases hcase with
    | socket hargs hcreated =>
      exact ⟨_, _, _, hargs, createSocketApplication_eq_some_iff.mp hcreated⟩
  · obtain ⟨host, port, level, hargs, happlication⟩ := h
    have hcreated := createSocketApplication_eq_some_iff.mpr happlication
    rcases main_socket hargs with ⟨application', hcreated', hmain⟩ | ⟨hfailed, -⟩
    · rw [hmain, Option.some.inj (hcreated'.symm.trans hcreated)]
    · exact absurd (hfailed.symm.trans hcreated) (by simp)

end Decide

/-! ## The whole program -/

/-- Only `app.log` can be opened. -/
def appLog (filename : Bytes) : Option (List FileWrite) :=
  if filename = ascii "app.log" then some [] else none

/-- No connection comes about. -/
def noSocket (_ : Bytes) (_ : Int) : SocketSink where
  socketFd := -1
  isConnected := false
  attempts := []

/-- **From the command line to the wire.** When `main` runs on a socket, its
words name the host, the port and the level. In every run of the two threads,
whatever `poll` and `send` answer: the steps are bounded, by the lines and the
spurious wakeups, and can be let go on to the end; what is on the wire is a
prefix of the records of the entries that are not below the level, one behind
the other; and at the end, with the sink still connected, it is all of them. -/
theorem program_sends (files : Bytes → Option (List FileWrite))
    (sockets : Bytes → Int → SocketSink) (timestamps : Nat → Bytes) (program : Bytes)
    (args lines : List Bytes) (application : TestApplication SocketSink)
    (hmain : main files sockets program args lines = .runsSocket application) :
    ∃ host port level, Arguments stoi args { mode := .socket, host, port, level }
      ∧ ∀ as s es, (appMachine timestamps).run application as = some (s, es) →
        as.countP (· != .wake) ≤ 16 + 9 * lines.length + as.countP (· == .wake)
        ∧ (∃ bs s' es', (appMachine timestamps).run s bs = some (s', es')
          ∧ ∀ a, (appMachine timestamps).step s' a = none)
        ∧ ∃ sink, s.logger.sinks = [sink]
          ∧ sink.wire <+: (sockets host port).wire
            ++ (records timestamps (logged level (entries level lines))).flatten
          ∧ ((∀ a, (appMachine timestamps).step s a = none) → sink.isValid = true →
            sink.wire = (sockets host port).wire
              ++ (records timestamps (logged level (entries level lines))).flatten) := by
  have hcase := main_case files sockets program args lines
  rw [hmain] at hcase
  cases hcase with
  | @socket host port level _ hargs hcreated =>
    obtain ⟨-, rfl⟩ := createSocketApplication_eq_some_iff.mp hcreated
    refine ⟨host, port, level, hargs, fun as s es hrun => ?_⟩
    have hinv := run_running hrun
    obtain ⟨sink, given, hsinks, hserved, hfront, hwhole⟩ := run_sent hrun
    refine ⟨run_bounded hrun, ?_, sink, hsinks, ?_, fun hstuck hvalid => ?_⟩
    · obtain ⟨bs, s', es', -, hrun', -, hstuck⟩ := hinv.reaches_ended
      exact ⟨bs, s', es', hrun', hstuck⟩
    · rw [hserved]
      have hrest := List.IsPrefix.flatten hfront
      exact (Logger.serve_wire given _).trans ((List.prefix_append_right_inj _).mpr hrest)
    · rw [← hwhole (ended_of_stuck hinv hstuck).2 hvalid, hserved]
      rw [hserved] at hvalid
      exact Logger.serve_connected given _ hvalid

/-- Every connection comes about, and takes the first record whole. -/
def oneSend (_ : Bytes) (_ : Int) : SocketSink where
  socketFd := 3
  isConnected := true
  attempts := [.sent 100]

theorem program_sends_threeLines :
    ∃ application s es,
      main appLog oneSend (ascii "app") [ascii "--socket", ascii "127.0.0.1", ascii "9000"]
          threeLines = .runsSocket application
      ∧ (appMachine fun _ => ascii "t").run application
          (threeLinesSchedule ++ List.replicate 4 (.main none)) = some (s, es)
      ∧ ∃ sink, s.logger.sinks = [sink] ∧ sink.wire = ascii "[t] [INFO] hi" := by
  obtain ⟨application, hmain, s, es, hrun, hstuck, hvalid⟩ : ∃ application,
      main appLog oneSend (ascii "app") [ascii "--socket", ascii "127.0.0.1", ascii "9000"]
          threeLines = .runsSocket application
        ∧ ∃ s es, (appMachine fun _ => ascii "t").run application
            (threeLinesSchedule ++ List.replicate 4 (.main none)) = some (s, es)
          ∧ (∀ a, (appMachine fun _ => ascii "t").step s a = none)
          ∧ ∀ sink ∈ s.logger.sinks, sink.isValid = true :=
    ⟨_, rfl, _, _, rfl, fun a => by cases a <;> rfl, by decide⟩
  obtain ⟨host, port, level, hargs, hall⟩ := program_sends appLog oneSend (fun _ => ascii "t")
    (ascii "app") [ascii "--socket", ascii "127.0.0.1", ascii "9000"] threeLines application hmain
  obtain ⟨_, _, _, rest, level', hwords, -, -, hlevel, hconfig⟩ := arguments_socket_iff.mp hargs
  simp only [List.cons.injEq] at hwords
  obtain ⟨-, -, rfl⟩ := hwords
  obtain rfl : level = .info :=
    (congrArg AppConfig.level hconfig).trans (levelArguments_nil_iff.mp hlevel)
  obtain ⟨-, -, sink, hsinks, -, hwhole⟩ := hall _ s es hrun
  refine ⟨application, s, es, hmain, hrun, sink, hsinks, ?_⟩
  exact hwhole hstuck (hvalid sink (by rw [hsinks]; exact List.mem_singleton_self _))

end LogMetrics.TestApplication
