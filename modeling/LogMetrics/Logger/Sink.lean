import LogMetrics.Bytes

/-!
# Sinks

`src/logger/sink.hpp` and `file_sink.cpp`. `ILogSink` is a state machine with
a validity predicate; the environment a real sink depends on (what the file
system or the kernel will answer next) is part of its state, so `write` is a
function.

A `FileSink` writes through a `std::ofstream` opened for appending; `appended`
is what has reached the file. A write of a record and its `std::endl` either
succeeds or leaves the stream not `good()`, with part of the text in the file.
-/

namespace LogMetrics.Logger

/-- `ILogSink`. -/
class ILogSink (σ : Type) where
  write : Bytes → σ → σ
  isValid : σ → Bool

/-- What becomes of one `<<` of a record and its line end. -/
inductive FileWrite where
  | ok
  | fails (written : Nat)
  deriving DecidableEq, Repr

/-- `FileSink`: the stream's two flags, the file, and what the next writes
will meet (success once the list is used up). -/
structure FileSink where
  isOpen : Bool
  good : Bool
  appended : Bytes := []
  outcomes : List FileWrite := []
  deriving DecidableEq, Repr

namespace FileSink

/-- `FileSink::FileSink`; `file` is what the writes will meet if the file can
be opened. -/
def construct (file : Option (List FileWrite)) : FileSink :=
  match file with
  | some outcomes => { isOpen := true, good := true, outcomes }
  | none => { isOpen := false, good := false }

/-- `FileSink::is_valid`. -/
def isValid (sink : FileSink) : Bool := sink.isOpen && sink.good

/-- `FileSink::write`. -/
def write (message : Bytes) (sink : FileSink) : FileSink :=
  if not sink.isValid then sink
  else
    let text := message ++ ['\n'.toUInt8]
    match sink.outcomes with
    | [] => { sink with appended := sink.appended ++ text }
    | .ok :: outcomes => { sink with appended := sink.appended ++ text, outcomes }
    | .fails written :: outcomes =>
      { sink with appended := sink.appended ++ text.take written, good := false, outcomes }

instance : ILogSink FileSink := ⟨write, isValid⟩

/-- A write that leaves the sink valid put the whole line in the file, and the
sink was valid before. -/
theorem write_valid {message : Bytes} {sink : FileSink}
    (h : (sink.write message).isValid = true) :
    sink.isValid = true
      ∧ (sink.write message).appended = sink.appended ++ (message ++ ['\n'.toUInt8]) := by
  have hvalid : sink.isValid = true := by
    cases hv : sink.isValid with
    | true => rfl
    | false =>
      rw [write, hv] at h
      exact absurd h (by simp [hv])
  refine ⟨hvalid, ?_⟩
  rw [write, hvalid] at h ⊢
  simp only [Bool.not_true, Bool.false_eq_true, if_false] at h ⊢
  split at h
  · rfl
  · rfl
  · exact absurd h (by simp [isValid])

end FileSink

end LogMetrics.Logger
