import LogMetrics.Logger.LevelName

/-!
# `ArgumentParser`

`src/test_application/argument_parser.cpp`: the words of the command line
become an `AppConfig`, or an error is printed. `std::stoi` is a parameter
here, `none` where it throws.

The parser indexes the vector of words behind tests of its size that are made
in four functions, each with its own offset; an index with no word behind it
is undefined in the source and `outOfRange` here. `parseArguments_grammar`
shows that it does not come up, and that what is accepted is the grammar
`Arguments`.
-/

namespace LogMetrics.TestApplication

open LogMetrics.Logger (LogLevel stringToLevel LevelName stringToLevel_eq_some_iff)

/-- `AppConfig::Mode`. -/
inductive Mode where
  | file
  | socket
  | help
  deriving DecidableEq, Repr

/-- `AppConfig`. -/
structure AppConfig where
  mode : Mode
  filename : Bytes := []
  host : Bytes := []
  port : Int := 0
  level : LogLevel := .info
  deriving DecidableEq, Repr

/-- `ArgumentParser::OptionType`. -/
inductive OptionType where
  | file
  | socket
  | help
  | unknown
  deriving DecidableEq, Repr

/-- Why there is no configuration: an error was printed, or a word was read
that is not there. -/
inductive ParseFailure where
  | rejected (printed : Bytes)
  | outOfRange (index : Nat)
  deriving DecidableEq, Repr

/-- `args[index]`. -/
def element (args : List Bytes) (index : Nat) : Except ParseFailure Bytes :=
  match args[index]? with
  | some arg => .ok arg
  | none => .error (.outOfRange index)

/-- `print_error`: what goes to `std::cerr`. -/
def printError (message : Bytes) : Bytes :=
  ascii "Error: " ++ message ++ ascii "\n" ++ ascii "Use --help for usage information\n"

/-- `print_error(message); return std::nullopt;` -/
def reject (message : Bytes) : Except ParseFailure AppConfig :=
  .error (.rejected (printError message))

/-- `is_valid_port`. -/
def isValidPort (port : Int) : Bool := decide (port ≥ 1) && decide (port ≤ 65535)

/-- `get_option_type`. -/
def getOptionType (arg : Bytes) : OptionType :=
  if arg = ascii "--help" ∨ arg = ascii "-h" then .help
  else if arg = ascii "--file" then .file
  else if arg = ascii "--socket" then .socket
  else .unknown

/-- `parse_optional_level`, with the configuration it leaves. -/
def parseOptionalLevel (args : List Bytes) (startIndex : Nat) (config : AppConfig) :
    Except ParseFailure AppConfig :=
  if args.length ≤ startIndex then .ok config
  else do
    let option ← element args startIndex
    if option ≠ ascii "--level" then reject (ascii "Unknown argument: " ++ option)
    else if args.length < startIndex + 2 then reject (ascii "Missing value for --level option")
    else do
      let levelStr ← element args (startIndex + 1)
      match stringToLevel levelStr with
      | none => reject (ascii "Invalid log level: " ++ levelStr)
      | some level =>
        if args.length > startIndex + 2 then do
          let extra ← element args (startIndex + 2)
          reject (ascii "Unexpected argument: " ++ extra)
        else .ok { config with level }

/-- `parse_file_mode`. -/
def parseFileMode (args : List Bytes) (startIndex : Nat) : Except ParseFailure AppConfig :=
  if args.length ≤ startIndex then reject (ascii "Missing filename for --file option")
  else do
    let filename ← element args startIndex
    parseOptionalLevel args (startIndex + 1) { mode := .file, filename }

section Stoi

variable (stoi : Bytes → Option Int)

/-- `parse_socket_mode`. -/
def parseSocketMode (args : List Bytes) (startIndex : Nat) : Except ParseFailure AppConfig :=
  if args.length ≤ startIndex + 1 then
    reject (ascii "Missing host or port for --socket option")
  else do
    let host ← element args startIndex
    let portStr ← element args (startIndex + 1)
    match stoi portStr with
    | none => reject (ascii "Invalid port number: " ++ portStr)
    | some port =>
      if isValidPort port then
        parseOptionalLevel args (startIndex + 2) { mode := .socket, host, port }
      else reject (ascii "Port number must be between 1 and 65535")

/-- `ArgumentParser::parse_arguments`. -/
def parseArguments (args : List Bytes) : Except ParseFailure AppConfig :=
  if args.isEmpty then reject (ascii "Too few arguments")
  else do
    let arg ← element args 0
    match getOptionType arg with
    | .help => .ok { mode := .help }
    | .file => parseFileMode args 1
    | .socket => parseSocketMode stoi args 1
    | .unknown =>
      reject (ascii "Unknown option: " ++ arg ++ ascii ". Use --file, --socket, or --help")

end Stoi

/-! ## The grammar -/

/-- The words for the level: none, or `--level` and a level name. -/
inductive LevelArguments : List Bytes → LogLevel → Prop
  | absent : LevelArguments [] .info
  | given {name : Bytes} {level : LogLevel} (h : LevelName name level) :
    LevelArguments [ascii "--level", name] level

/-- The words that configure the application. -/
inductive Arguments (stoi : Bytes → Option Int) : List Bytes → AppConfig → Prop
  | help {option : Bytes} {rest : List Bytes} (h : option = ascii "--help" ∨ option = ascii "-h") :
    Arguments stoi (option :: rest) { mode := .help }
  | file {filename : Bytes} {rest : List Bytes} {level : LogLevel} (h : LevelArguments rest level) :
    Arguments stoi (ascii "--file" :: filename :: rest) { mode := .file, filename, level }
  | socket {host portStr : Bytes} {port : Int} {rest : List Bytes} {level : LogLevel}
    (hport : stoi portStr = some port) (hrange : 1 ≤ port ∧ port ≤ 65535)
    (h : LevelArguments rest level) :
    Arguments stoi (ascii "--socket" :: host :: portStr :: rest) { mode := .socket, host, port, level }

section Inversion

variable {stoi : Bytes → Option Int} {rest : List Bytes} {config : AppConfig}

theorem arguments_file_iff :
    Arguments stoi (ascii "--file" :: rest) config
      ↔ ∃ filename rest' level, rest = filename :: rest' ∧ LevelArguments rest' level
          ∧ config = { mode := .file, filename, level } := by
  constructor
  · intro h
    generalize hoption : ascii "--file" = option at h
    cases h with
    | help hhelp =>
      subst hoption
      exact absurd hhelp (by decide)
    | file hargs => exact ⟨_, _, _, rfl, hargs, rfl⟩
    | socket => exact absurd hoption (by decide)
  · intro h
    obtain ⟨filename, rest', level, rfl, hargs, rfl⟩ := h
    exact .file hargs

theorem arguments_socket_iff :
    Arguments stoi (ascii "--socket" :: rest) config
      ↔ ∃ host portStr port rest' level, rest = host :: portStr :: rest'
          ∧ stoi portStr = some port ∧ (1 ≤ port ∧ port ≤ 65535) ∧ LevelArguments rest' level
          ∧ config = { mode := .socket, host, port, level } := by
  constructor
  · intro h
    generalize hoption : ascii "--socket" = option at h
    cases h with
    | help hhelp =>
      subst hoption
      exact absurd hhelp (by decide)
    | file => exact absurd hoption (by decide)
    | socket hport hrange hargs => exact ⟨_, _, _, _, _, rfl, hport, hrange, hargs, rfl⟩
  · intro h
    obtain ⟨host, portStr, port, rest', level, rfl, hport, hrange, hargs, rfl⟩ := h
    exact .socket hport hrange hargs

end Inversion

/-- The result is a configuration with `P` where there is one, and an error is
printed where there is none; no word is read that is not there. -/
structure Decides (result : Except ParseFailure AppConfig) (P : AppConfig → Prop) : Prop where
  ok_iff : ∀ config, result = .ok config ↔ P config
  inRange : ∀ index, result ≠ .error (.outOfRange index)

namespace Decides

variable {result : Except ParseFailure AppConfig} {P : AppConfig → Prop}

theorem of_reject {message : Bytes} (h : ∀ config, ¬P config) : Decides (reject message) P where
  ok_iff config := ⟨fun hok => absurd hok (by simp [reject]), fun hP => absurd hP (h config)⟩
  inRange index := by simp [reject]

theorem of_ok {config : AppConfig} (h : ∀ config', P config' ↔ config' = config) :
    Decides (.ok config) P where
  ok_iff config' := by
    rw [h config', Except.ok.injEq]
    exact eq_comm
  inRange index := by simp

theorem congr {Q : AppConfig → Prop} (h : Decides result P) (hiff : ∀ config, P config ↔ Q config) :
    Decides result Q where
  ok_iff config := (h.ok_iff config).trans (hiff config)
  inRange := h.inRange

/-- A word that is there is read, and what follows decides. -/
theorem of_element {args : List Bytes} {index : Nat}
    {next : Bytes → Except ParseFailure AppConfig} (arg : Bytes) (h : args[index]? = some arg)
    (hnext : Decides (next arg) P) : Decides (element args index >>= next) P := by
  rw [element, h]
  exact hnext

/-- There is a configuration, or an error was printed. -/
theorem total (h : Decides result P) :
    (∃ config, P config) ∨ ∃ printed, result = .error (.rejected printed) := by
  cases hresult : result with
  | ok config => exact .inl ⟨config, (h.ok_iff config).1 hresult⟩
  | error failure =>
    cases failure with
    | rejected printed => exact .inr ⟨printed, rfl⟩
    | outOfRange index => exact absurd hresult (h.inRange index)

end Decides

/-! ## Each function decides its part -/

theorem levelArguments_nil_iff {level : LogLevel} : LevelArguments [] level ↔ level = .info := by
  constructor
  · intro h
    cases h
    rfl
  · intro h
    rw [h]
    exact .absent

theorem levelArguments_cons_iff {option : Bytes} {rest : List Bytes} {level : LogLevel} :
    LevelArguments (option :: rest) level
      ↔ option = ascii "--level" ∧ ∃ name, rest = [name] ∧ LevelName name level := by
  constructor
  · intro h
    cases h with
    | given h => exact ⟨rfl, _, rfl, h⟩
  · intro h
    obtain ⟨rfl, name, rfl, h⟩ := h
    exact .given h

/-- `parse_optional_level` reads the words behind those in front of it. -/
theorem parseOptionalLevel_decides (front rest : List Bytes) (config : AppConfig)
    (hlevel : config.level = .info) :
    Decides (parseOptionalLevel (front ++ rest) front.length config)
      fun config' => ∃ level, LevelArguments rest level ∧ config' = { config with level } := by
  unfold parseOptionalLevel
  rw [List.length_append]
  match rest with
  | [] =>
    have hsame : { config with level := LogLevel.info } = config := by rw [← hlevel]
    rw [if_pos (by simp)]
    apply Decides.of_ok
    intro config'
    constructor
    · intro h
      obtain ⟨level, hargs, rfl⟩ := h
      rw [levelArguments_nil_iff.1 hargs, hsame]
    · intro h
      exact ⟨.info, .absent, h.trans hsame.symm⟩
  | option :: rest =>
    rw [if_neg (by simp)]
    apply Decides.of_element option (by simp)
    by_cases hoption : option = ascii "--level"
    · rw [if_neg (by simp [hoption])]
      match rest with
      | [] =>
        rw [if_pos (by simp)]
        apply Decides.of_reject
        intro config' h
        obtain ⟨level, hargs, -⟩ := h
        obtain ⟨-, name, hname, -⟩ := levelArguments_cons_iff.1 hargs
        exact absurd hname (by simp)
      | name :: rest =>
        rw [if_neg (by simp)]
        apply Decides.of_element name (by simp)
        cases hname : stringToLevel name with
        | none =>
          apply Decides.of_reject
          intro config' h
          obtain ⟨level, hargs, -⟩ := h
          obtain ⟨-, name', hrest, hlevelName⟩ := levelArguments_cons_iff.1 hargs
          obtain ⟨rfl, -⟩ := List.cons.inj hrest
          rw [stringToLevel_eq_some_iff.2 hlevelName] at hname
          exact absurd hname (by simp)
        | some level =>
          have hlevelName := stringToLevel_eq_some_iff.1 hname
          dsimp only
          match rest with
          | [] =>
            rw [if_neg (by simp)]
            apply Decides.of_ok
            intro config'
            constructor
            · intro h
              obtain ⟨level', hargs, rfl⟩ := h
              obtain ⟨-, name', hrest, hlevelName'⟩ := levelArguments_cons_iff.1 hargs
              obtain ⟨rfl, -⟩ := List.cons.inj hrest
              rw [hlevelName.unique hlevelName']
            · intro h
              exact ⟨level, levelArguments_cons_iff.2 ⟨hoption, name, rfl, hlevelName⟩, h⟩
          | extra :: rest =>
            rw [if_pos (by simp)]
            apply Decides.of_element extra (by simp)
            apply Decides.of_reject
            intro config' h
            obtain ⟨level', hargs, -⟩ := h
            obtain ⟨-, name', hrest, -⟩ := levelArguments_cons_iff.1 hargs
            exact absurd hrest (by simp)
    · rw [if_pos hoption]
      apply Decides.of_reject
      intro config' h
      obtain ⟨level, hargs, -⟩ := h
      exact hoption (levelArguments_cons_iff.1 hargs).1

theorem parseFileMode_decides (option : Bytes) (rest : List Bytes) :
    Decides (parseFileMode (option :: rest) 1)
      fun config => ∃ filename rest' level, rest = filename :: rest' ∧ LevelArguments rest' level
        ∧ config = { mode := .file, filename, level } := by
  unfold parseFileMode
  match rest with
  | [] =>
    rw [if_pos (by simp)]
    apply Decides.of_reject
    intro config h
    obtain ⟨filename, rest', level, hrest, -⟩ := h
    exact absurd hrest (by simp)
  | filename :: rest =>
    rw [if_neg (by simp)]
    apply Decides.of_element filename (by simp)
    refine (parseOptionalLevel_decides [option, filename] rest _ rfl).congr fun config => ?_
    constructor
    · intro h
      obtain ⟨level, hargs, rfl⟩ := h
      exact ⟨filename, rest, level, rfl, hargs, rfl⟩
    · intro h
      obtain ⟨filename', rest', level, hrest, hargs, rfl⟩ := h
      obtain ⟨rfl, rfl⟩ := List.cons.inj hrest
      exact ⟨level, hargs, rfl⟩

theorem isValidPort_iff {port : Int} : isValidPort port = true ↔ 1 ≤ port ∧ port ≤ 65535 := by
  simp [isValidPort]

theorem parseSocketMode_decides (stoi : Bytes → Option Int) (option : Bytes) (rest : List Bytes) :
    Decides (parseSocketMode stoi (option :: rest) 1)
      fun config => ∃ host portStr port rest' level, rest = host :: portStr :: rest'
        ∧ stoi portStr = some port ∧ (1 ≤ port ∧ port ≤ 65535) ∧ LevelArguments rest' level
        ∧ config = { mode := .socket, host, port, level } := by
  unfold parseSocketMode
  match rest with
  | [] =>
    rw [if_pos (by simp)]
    apply Decides.of_reject
    intro config h
    obtain ⟨host, portStr, port, rest', level, hrest, -⟩ := h
    exact absurd hrest (by simp)
  | [host] =>
    rw [if_pos (by simp)]
    apply Decides.of_reject
    intro config h
    obtain ⟨host, portStr, port, rest', level, hrest, -⟩ := h
    exact absurd hrest (by simp)
  | host :: portStr :: rest =>
    rw [if_neg (by simp)]
    apply Decides.of_element host (by simp)
    apply Decides.of_element portStr (by simp)
    cases hport : stoi portStr with
    | none =>
      apply Decides.of_reject
      intro config h
      obtain ⟨host', portStr', port, rest', level, hrest, hport', -⟩ := h
      simp only [List.cons.injEq] at hrest
      obtain ⟨-, rfl, -⟩ := hrest
      exact absurd (hport.symm.trans hport') (by simp)
    | some port =>
      dsimp only
      by_cases hvalid : isValidPort port = true
      · rw [if_pos hvalid]
        refine (parseOptionalLevel_decides [option, host, portStr] rest _ rfl).congr fun config => ?_
        constructor
        · intro h
          obtain ⟨level, hargs, rfl⟩ := h
          exact ⟨host, portStr, port, rest, level, rfl, hport, isValidPort_iff.1 hvalid, hargs, rfl⟩
        · intro h
          obtain ⟨host', portStr', port', rest', level, hrest, hport', -, hargs, rfl⟩ := h
          simp only [List.cons.injEq] at hrest
          obtain ⟨rfl, rfl, rfl⟩ := hrest
          obtain rfl := Option.some.inj (hport.symm.trans hport')
          exact ⟨level, hargs, rfl⟩
      · rw [if_neg hvalid]
        apply Decides.of_reject
        intro config h
        obtain ⟨host', portStr', port', rest', level, hrest, hport', hrange, -⟩ := h
        simp only [List.cons.injEq] at hrest
        obtain ⟨-, rfl, -⟩ := hrest
        obtain rfl := Option.some.inj (hport.symm.trans hport')
        exact hvalid (isValidPort_iff.2 hrange)

/-- `get_option_type` names the option that stands there. -/
theorem getOptionType_cases (arg : Bytes) :
    (getOptionType arg = .help ∧ (arg = ascii "--help" ∨ arg = ascii "-h"))
      ∨ (getOptionType arg = .file ∧ arg = ascii "--file")
      ∨ (getOptionType arg = .socket ∧ arg = ascii "--socket")
      ∨ (getOptionType arg = .unknown ∧ ¬(arg = ascii "--help" ∨ arg = ascii "-h")
        ∧ arg ≠ ascii "--file" ∧ arg ≠ ascii "--socket") := by
  unfold getOptionType
  by_cases hhelp : arg = ascii "--help" ∨ arg = ascii "-h"
  · exact .inl ⟨if_pos hhelp, hhelp⟩
  · rw [if_neg hhelp]
    by_cases hfile : arg = ascii "--file"
    · exact .inr (.inl ⟨if_pos hfile, hfile⟩)
    · rw [if_neg hfile]
      by_cases hsocket : arg = ascii "--socket"
      · exact .inr (.inr (.inl ⟨if_pos hsocket, hsocket⟩))
      · exact .inr (.inr (.inr ⟨if_neg hsocket, hhelp, hfile, hsocket⟩))

theorem parseArguments_decides (stoi : Bytes → Option Int) (args : List Bytes) :
    Decides (parseArguments stoi args) (Arguments stoi args) := by
  unfold parseArguments
  match args with
  | [] =>
    rw [if_pos (by simp)]
    apply Decides.of_reject
    intro config h
    cases h
  | arg :: rest =>
    rw [if_neg (by simp)]
    apply Decides.of_element arg (by simp)
    rcases getOptionType_cases arg with ⟨htype, hhelp⟩ | ⟨htype, rfl⟩ | ⟨htype, rfl⟩ |
      ⟨htype, hhelp, hfile, hsocket⟩
    · rw [htype]
      apply Decides.of_ok
      intro config
      constructor
      · intro hargs
        cases hargs with
        | help => rfl
        | file => exact absurd hhelp (by decide)
        | socket => exact absurd hhelp (by decide)
      · intro h
        rw [h]
        exact .help hhelp
    · rw [htype]
      exact (parseFileMode_decides _ rest).congr fun config => arguments_file_iff.symm
    · rw [htype]
      exact (parseSocketMode_decides stoi _ rest).congr fun config => arguments_socket_iff.symm
    · rw [htype]
      apply Decides.of_reject
      intro config hargs
      cases hargs with
      | help h => exact hhelp h
      | file => exact hfile rfl
      | socket => exact hsocket rfl

/-- **The command line is accepted by its grammar.** Whatever `std::stoi` does,
`parse_arguments` returns a configuration exactly for the words of the grammar
and the one they stand for, prints an error for all others, and never reads a
word that is not there. -/
theorem parseArguments_grammar (stoi : Bytes → Option Int) (args : List Bytes) :
    (∀ config, parseArguments stoi args = .ok config ↔ Arguments stoi args config)
      ∧ ((∃ config, Arguments stoi args config)
        ∨ ∃ printed, parseArguments stoi args = .error (.rejected printed))
      ∧ ∀ index, parseArguments stoi args ≠ .error (.outOfRange index) :=
  have h := parseArguments_decides stoi args
  ⟨h.ok_iff, h.total, h.inRange⟩

end LogMetrics.TestApplication
