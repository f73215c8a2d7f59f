import LogMetrics.Base.Progress
import LogMetrics.TestApplication.Delivery

/-!
# The test application always comes to its end

`stop` joins the worker, and the worker may be asleep in `pop`: the program
ends only if the queue's `stop` wakes it, if the worker never goes back to
sleep behind it, and if nothing the main thread waits for waits for the main
thread. None of the schedules goes wrong: every run makes a bounded number of
steps, by the number of lines and of spurious wakeups (`rank`), and a run that
can go no further has ended, with the worker done (`terminates`).

The two flags do not change together: `is_running_` falls before the queue is
stopped, so the worker can be in its second loop while the queue still runs,
and sleep there. What holds is one-sided (`EndInv`): a stopped queue means a
fallen flag, and nobody asleep.
-/

set_option linter.dupNamespace false

namespace LogMetrics.TestApplication

open LogMetrics.Base
open LogMetrics.Logger (LogLevel ILogSink FileSink)
open TestApplication (processCommand afterStop afterEntry)

/-! ## What a step can do -/

/-- Where a line takes the main thread. -/
def afterLine (defaultLevel : LogLevel) (line : Bytes) : MainPc :=
  match parseCommand line with
  | none => .prompt
  | some command => processCommand defaultLevel command

variable {σ : Type}

/-- The steps of the main thread that only move it. -/
inductive MainMove (s : TestApplication σ) : MainPc → Prop
  | enter (hpc : s.main = .loop) (hrun : s.isRunning = true) : MainMove s .getline
  | leave (hpc : s.main = .loop) (hrun : s.isRunning = false) : MainMove s (.stopLoad true)
  | endOfInput (hpc : s.main = .getline) : MainMove s (.stopLoad true)
  | prompt (hpc : s.main = .prompt) : MainMove s .loop
  | stop (final : Bool) (hpc : s.main = .stopLoad final) (hrun : s.isRunning = true) :
      MainMove s (.stopStore final)
  | stopped (final : Bool) (hpc : s.main = .stopLoad final) (hrun : s.isRunning = false) :
      MainMove s (afterStop final)
  | join (final : Bool) (hpc : s.main = .join final) (hworker : s.worker = .done) :
      MainMove s (afterStop final)

/-- The steps of the worker that only move it. -/
inductive WorkerMove (s : TestApplication σ) : WorkerPc → Prop
  | running (hpc : s.worker = .load) (hrun : s.isRunning = true) : WorkerMove s (.pop false)
  | stopped (hpc : s.worker = .load) (hrun : s.isRunning = false) : WorkerMove s (.pop true)
  | valid (entry : LogEntry) (drain : Bool) (hpc : s.worker = .isValid entry drain) :
      WorkerMove s (.log entry drain)
  | invalid (entry : LogEntry) (drain : Bool) (hpc : s.worker = .isValid entry drain) :
      WorkerMove s (afterEntry drain)

/-- The steps, by what they touch. -/
inductive AppStep (s : TestApplication σ) : AppAction → TestApplication σ → Prop
  | mainMove (notified : Option Unit) (pc : MainPc) (hmove : MainMove s pc) :
      AppStep s (.main notified) { s with main := pc }
  | storeRunning (notified : Option Unit) (hpc : s.main = .storeRunning) :
      AppStep s (.main notified) { s with isRunning := true, main := .spawn }
  | spawn (notified : Option Unit) (hpc : s.main = .spawn) :
      AppStep s (.main notified) { s with worker := .load, main := .loop }
  | read (notified : Option Unit) (line : Bytes) (input : List Bytes) (hpc : s.main = .getline)
      (hinput : s.input = line :: input) :
      AppStep s (.main notified) { s with input, main := afterLine s.defaultLevel line }
  | push (notified : Option Unit) (entry : LogEntry) (logQueue : ThreadSafeQueue LogEntry Unit)
      (hpc : s.main = .push entry) (hpush : s.logQueue.push entry notified = some logQueue) :
      AppStep s (.main notified) { s with logQueue, main := .prompt }
  | stopStore (notified : Option Unit) (final : Bool) (hpc : s.main = .stopStore final) :
      AppStep s (.main notified) { s with isRunning := false, main := .stopQueue final }
  | stopQueue (notified : Option Unit) (final : Bool) (hpc : s.main = .stopQueue final) :
      AppStep s (.main notified) { s with logQueue := s.logQueue.stop, main := .join final }
  | workerMove (pc : WorkerPc) (hmove : WorkerMove s pc) : AppStep s .worker { s with worker := pc }
  | sleep (drain : Bool) (hpc : s.worker = .pop drain) (hawake : () ∉ s.logQueue.asleep)
      (hrun : s.logQueue.isRunning = true) :
      AppStep s .worker { s with logQueue := { s.logQueue with
        woken := s.logQueue.woken.erase (), asleep := () :: s.logQueue.asleep } }
  | item (entry : LogEntry) (rest : List LogEntry) (drain : Bool) (hpc : s.worker = .pop drain)
      (hawake : () ∉ s.logQueue.asleep) (hqueue : s.logQueue.queue = entry :: rest) :
      AppStep s .worker { s with
        logQueue := { s.logQueue with woken := s.logQueue.woken.erase (), queue := rest }
        worker := .isValid entry drain }
  | drained (drain : Bool) (hpc : s.worker = .pop drain) (hawake : () ∉ s.logQueue.asleep)
      (hqueue : s.logQueue.queue = []) (hrun : s.logQueue.isRunning = false) :
      AppStep s .worker { s with
        logQueue := { s.logQueue with woken := s.logQueue.woken.erase () }
        worker := if drain then .done else .load }
  | log (entry : LogEntry) (drain : Bool) (hpc : s.worker = .log entry drain)
      (logger : Logger.Logger σ) (formatted : Nat) :
      AppStep s .worker { s with logger, formatted, worker := afterEntry drain }
  | wake (logQueue : ThreadSafeQueue LogEntry Unit) (hwake : s.logQueue.wake () = some logQueue) :
      AppStep s .wake { s with logQueue }

theorem stepMain_inv {s s' : TestApplication σ} {notified : Option Unit}
    (h : s.stepMain notified = some s') : AppStep s (.main notified) s' := by
  unfold TestApplication.stepMain at h
  split at h
  next hpc => cases h; exact .storeRunning _ hpc
  next hpc => cases h; exact .spawn _ hpc
  next hpc =>
    split at h
    next hrun => cases h; exact .mainMove _ _ (.enter hpc hrun)
    next hrun => cases h; exact .mainMove _ _ (.leave hpc (by simpa using hrun))
  next hpc =>
    split at h
    next => cases h; exact .mainMove _ _ (.endOfInput hpc)
    next line input hinput =>
      have hread := AppStep.read notified line input hpc hinput
      unfold afterLine at hread
      split at h
      next hparse => cases h; rw [hparse] at hread; exact hread
      next command hparse => cases h; rw [hparse] at hread; exact hread
  next entry hpc =>
    split at h
    next => exact absurd h (by simp)
    next logQueue hpush => cases h; exact .push _ entry logQueue hpc hpush
  next hpc => cases h; exact .mainMove _ _ (.prompt hpc)
  next final hpc =>
    split at h
    next hrun => cases h; exact .mainMove _ _ (.stop final hpc hrun)
    next hrun => cases h; exact .mainMove _ _ (.stopped final hpc (by simpa using hrun))
  next final hpc => cases h; exact .stopStore _ final hpc
  next final hpc => cases h; exact .stopQueue _ final hpc
  next final hpc =>
    split at h
    next hworker => cases h; exact .mainMove _ _ (.join final hpc hworker)
    next => exact absurd h (by simp)
  next => exact absurd h (by simp)

theorem stepWorker_inv [ILogSink σ] {s s' : TestApplication σ} {timestamp : Bytes}
    (h : s.stepWorker timestamp = some s') : AppStep s .worker s' := by
  unfold TestApplication.stepWorker at h
  split at h
  next => exact absurd h (by simp)
  next hpc =>
    split at h
    next hrun => cases h; exact .workerMove _ (.running hpc hrun)
    next hrun => cases h; exact .workerMove _ (.stopped hpc (by simpa using hrun))
  next drain hpc =>
    split at h
    next => exact absurd h (by simp)
    next hawake =>
      rcases s.logQueue.pop_cases () with ⟨entry, rest, hqueue, hpop⟩ | ⟨-, hrun, hpop⟩ |
        ⟨hqueue, hrun, hpop⟩
      · rw [hpop] at h
        cases h
        exact .item entry rest drain hpc hawake hqueue
      · rw [hpop] at h
        cases h
        exact .sleep drain hpc hawake hrun
      · rw [hpop] at h
        cases h
        exact .drained drain hpc hawake hqueue hrun
  next entry drain hpc =>
    split at h
    next => cases h; exact .workerMove _ (.valid entry drain hpc)
    next => cases h; exact .workerMove _ (.invalid entry drain hpc)
  next entry drain hpc => cases h; exact .log entry drain hpc _ _
  next => exact absurd h (by simp)

theorem appStep_inv [ILogSink σ] {timestamps : Nat → Bytes} {s s' : TestApplication σ} {a : AppAction}
    {es : List Empty} (h : (appMachine timestamps).step s a = some (s', es)) : AppStep s a s' := by
  obtain ⟨t, hstep, heq⟩ := Option.map_eq_some_iff.mp h
  cases heq
  cases a with
  | main notified => exact stepMain_inv hstep
  | worker => exact stepWorker_inv hstep
  | wake =>
    simp only [TestApplication.step] at hstep
    split at hstep
    next => exact absurd hstep (by simp)
    next logQueue hwake => cases hstep; exact .wake logQueue hwake

/-! ## The invariant -/

/-- The main thread is neither before the worker's start nor between the stop
of the queue and the join. -/
def MainPc.outsideStop : MainPc → Bool
  | .storeRunning => false
  | .stopQueue _ => false
  | .join _ => false
  | _ => true

structure EndInv (s : TestApplication σ) : Prop where
  asleep : () ∈ s.logQueue.asleep → ∃ drain, s.worker = .pop drain
  stopped : s.logQueue.isRunning = false → s.isRunning = false ∧ s.logQueue.asleep = []
  joined : s.main.outsideStop = true → s.isRunning = false → s.worker = .done
  started : s.worker = .notStarted → s.main = .storeRunning ∨ s.main = .spawn
  ended : s.main = .ended → s.isRunning = false

variable {s s' : TestApplication σ}

/-- A line takes the main thread to a place in the middle. -/
theorem afterLine_spec (d : LogLevel) (line : Bytes) :
    afterLine d line = .prompt ∨ (∃ entry, afterLine d line = .push entry)
      ∨ afterLine d line = .stopLoad false := by
  unfold afterLine
  cases parseCommand line with
  | none => exact .inl rfl
  | some command =>
    dsimp only
    unfold processCommand
    cases command.type with
    | logMessage => exact .inr (.inl ⟨_, rfl⟩)
    | help => exact .inl rfl
    | exit => exact .inr (.inr rfl)

/-- A push wakes at most one thread, and puts none to sleep. -/
theorem push_asleep {entry : LogEntry} {t : Option Unit}
    {q q' : ThreadSafeQueue LogEntry Unit} (h : q.push entry t = some q') :
    q'.asleep ⊆ q.asleep := by
  unfold ThreadSafeQueue.push ThreadSafeQueue.notifyOne at h
  split at h
  next => cases h; exact List.Subset.refl _
  next =>
    split at h
    next =>
      split at h
      next => cases h; exact List.Subset.refl _
      next => exact absurd h (by simp)
    next =>
      split at h
      next => cases h; exact List.erase_subset
      next => exact absurd h (by simp)

theorem wake_asleep {q q' : ThreadSafeQueue LogEntry Unit} (h : q.wake () = some q') :
    q'.asleep ⊆ q.asleep := by
  unfold ThreadSafeQueue.wake at h
  split at h
  next => cases h; exact List.erase_subset
  next => exact absurd h (by simp)

theorem afterEntry_started (drain : Bool) : afterEntry drain ≠ .notStarted := by
  cases drain with
  | true => simp [afterEntry]
  | false => simp [afterEntry]

/-- A worker that is not in `pop` is awake. -/
theorem EndInv.awake (h : EndInv s) (hpc : ∀ drain, s.worker ≠ .pop drain) :
    () ∉ s.logQueue.asleep := by
  intro hasleep
  obtain ⟨drain, hpop⟩ := h.asleep hasleep
  exact hpc drain hpop

/-- A step of the worker that leaves it awake. -/
theorem EndInv.worker (h : EndInv s) (hawake : () ∉ s.logQueue.asleep)
    (hbusy : s.worker ≠ .notStarted ∧ s.worker ≠ .done) {pc : WorkerPc} (hpc : pc ≠ .notStarted)
    (hmain : s'.main = s.main) (hrun : s'.isRunning = s.isRunning)
    (hqueue : s'.logQueue.isRunning = s.logQueue.isRunning)
    (hasleep : s'.logQueue.asleep = s.logQueue.asleep) (hworker : s'.worker = pc) : EndInv s' := by
  refine ⟨fun ha => ?_, fun hstop => ?_, fun hout hfell => ?_, fun hnew => ?_, fun hend => ?_⟩
  · rw [hasleep] at ha
    exact absurd ha hawake
  · rw [hrun, hasleep]
    exact h.stopped (hqueue.symm.trans hstop)
  · rw [hmain] at hout
    exact absurd (h.joined hout (hrun.symm.trans hfell)) hbusy.2
  · exact absurd (hworker.symm.trans hnew) hpc
  · rw [hrun]
    exact h.ended (hmain.symm.trans hend)

/-- A step of the main thread between two places of its own. -/
theorem EndInv.main (h : EndInv s) {pc : MainPc}
    (hpc : s.main ≠ .storeRunning ∧ s.main ≠ .spawn)
    (hjoined : pc.outsideStop = true → s.isRunning = false → s.worker = .done)
    (hended : pc = .ended → s.isRunning = false) : EndInv { s with main := pc } := by
  refine ⟨h.asleep, h.stopped, hjoined, fun hnew => ?_, hended⟩
  rcases h.started hnew with hstore | hspawn
  · exact absurd hstore hpc.1
  · exact absurd hspawn hpc.2

theorem step_endInv {a : AppAction} (hok : MainOk s) (h : EndInv s) (hstep : AppStep s a s') :
    EndInv s' := by
  unfold MainOk at hok
  cases hstep with
  | mainMove notified pc hmove =>
    cases hmove with
    | enter hpc hrun =>
      refine h.main (by simp [hpc]) (fun _ hfell => ?_) (by simp)
      exact absurd (hrun.symm.trans hfell) (by simp)
    | leave hpc hrun =>
      refine h.main (by simp [hpc]) (fun _ => h.joined (by rw [hpc]; rfl)) (by simp)
    | endOfInput hpc =>
      rw [hpc] at hok
      refine h.main (by simp [hpc]) (fun _ hfell => ?_) (by simp)
      exact absurd (hok.1.symm.trans hfell) (by simp)
    | prompt hpc => exact h.main (by simp [hpc]) (fun _ => h.joined (by rw [hpc]; rfl)) (by simp)
    | stop final hpc hrun =>
      refine h.main (by simp [hpc]) (fun _ hfell => ?_) (by simp)
      exact absurd (hrun.symm.trans hfell) (by simp)
    | stopped final hpc hrun =>
      exact h.main (by simp [hpc]) (fun _ => h.joined (by rw [hpc]; rfl)) fun _ => hrun
    | join final hpc hworker =>
      rw [hpc] at hok
      exact h.main (by simp [hpc]) (fun _ _ => hworker) fun _ => hok.1
  | storeRunning notified hpc =>
    rw [hpc] at hok
    refine ⟨h.asleep, fun hstop => ?_, fun _ hfell => ?_, fun _ => .inr rfl, by simp⟩
    · exact absurd (hok.1.symm.trans hstop) (by simp)
    · exact absurd hfell (by simp)
  | spawn notified hpc =>
    rw [hpc] at hok
    refine ⟨fun hasleep => ?_, h.stopped, fun _ hfell => ?_, by simp, by simp⟩
    · exact absurd hasleep (h.awake (by simp [hok.2.2]))
    · exact absurd (hok.1.symm.trans hfell) (by simp)
  | read notified line input hpc hinput =>
    rw [hpc] at hok
    have hinv : EndInv { s with main := afterLine s.defaultLevel line } := by
      refine h.main (by simp [hpc]) (fun _ hfell => ?_) (fun hend => ?_)
      · exact absurd (hok.1.symm.trans hfell) (by simp)
      · rcases afterLine_spec s.defaultLevel line with heq | ⟨entry, heq⟩ | heq
        · exact absurd (heq.symm.trans hend) (by simp)
        · exact absurd (heq.symm.trans hend) (by simp)
        · exact absurd (heq.symm.trans hend) (by simp)
    exact ⟨hinv.asleep, hinv.stopped, hinv.joined, hinv.started, hinv.ended⟩
  | push notified entry logQueue hpc hpush =>
    rw [hpc] at hok
    obtain ⟨-, hrun⟩ := ThreadSafeQueue.push_spec hpush hok.2
    have hinv : EndInv { s with main := .prompt } := by
      refine h.main (by simp [hpc]) (fun _ hfell => ?_) (by simp)
      exact absurd (hok.1.symm.trans hfell) (by simp)
    refine ⟨fun hasleep => h.asleep (push_asleep hpush hasleep), fun hstop => ?_, hinv.joined,
      hinv.started, hinv.ended⟩
    exact absurd (hrun.symm.trans hstop) (by simp)
  | stopStore notified final hpc =>
    refine ⟨h.asleep, fun hstop => ⟨rfl, (h.stopped hstop).2⟩, by simp [MainPc.outsideStop],
      fun hnew => ?_, by simp⟩
    exact absurd (h.started hnew) (by simp [hpc])
  | stopQueue notified final hpc =>
    rw [hpc] at hok
    refine ⟨by simp [ThreadSafeQueue.stop], fun _ => ⟨hok, rfl⟩, by simp [MainPc.outsideStop],
      fun hnew => ?_, by simp⟩
    exact absurd (h.started hnew) (by simp [hpc])
  | workerMove pc hmove =>
    cases hmove with
    | running hpc hrun =>
      exact h.worker (h.awake (by simp [hpc])) (by simp [hpc]) (by simp) rfl rfl rfl rfl rfl
    | stopped hpc hrun =>
      exact h.worker (h.awake (by simp [hpc])) (by simp [hpc]) (by simp) rfl rfl rfl rfl rfl
    | valid entry drain hpc =>
      exact h.worker (h.awake (by simp [hpc])) (by simp [hpc]) (by simp) rfl rfl rfl rfl rfl
    | invalid entry drain hpc =>
      exact h.worker (h.awake (by simp [hpc])) (by simp [hpc]) (afterEntry_started drain) rfl rfl
        rfl rfl rfl
  | sleep drain hpc hawake hrun =>
    refine ⟨fun _ => ⟨drain, hpc⟩, fun hstop => ?_, h.joined, h.started, h.ended⟩
    exact absurd (hrun.symm.trans hstop) (by simp)
  | item entry rest drain hpc hawake hqueue =>
    exact h.worker hawake (by simp [hpc]) (by simp) rfl rfl rfl rfl rfl
  | drained drain hpc hawake hqueue hrun =>
    refine h.worker hawake (by simp [hpc]) ?_ rfl rfl rfl rfl rfl
    cases drain with
    | true => simp
    | false => simp
  | log entry drain hpc logger formatted =>
    exact h.worker (h.awake (by simp [hpc])) (by simp [hpc]) (afterEntry_started drain) rfl rfl rfl
      rfl rfl
  | wake logQueue hwake =>
    obtain ⟨-, hrun⟩ := ThreadSafeQueue.wake_spec hwake
    refine ⟨fun hasleep => h.asleep (wake_asleep hwake hasleep), fun hstop => ?_, h.joined,
      h.started, h.ended⟩
    obtain ⟨hfell, hnobody⟩ := h.stopped (hrun.symm.trans hstop)
    exact ⟨hfell, List.eq_nil_of_subset_nil (hnobody ▸ wake_asleep hwake)⟩

/-! ## The rank -/

/-- What the main thread has still to do, with `n` lines left to read: nine
steps' worth for each line, which pays for the worker's part of it too. -/
def MainPc.rank (n : Nat) : MainPc → Nat
  | .storeRunning => 9 + 9 * n
  | .spawn => 8 + 9 * n
  | .loop => 7 + 9 * n
  | .getline => 6 + 9 * n
  | .push _ => 14 + 9 * n
  | .prompt => 8 + 9 * n
  | .stopLoad final => if final then 5 else 13 + 9 * n
  | .stopStore final => if final then 4 else 12 + 9 * n
  | .stopQueue final => if final then 3 else 11 + 9 * n
  | .join final => if final then 1 else 9 + 9 * n
  | .ended => 0

/-- What the worker has still to do once the queue is empty. A worker that
goes to sleep has to be woken, which the thread that wakes it pays for. -/
def WorkerPc.rank (isRunning asleep : Bool) : WorkerPc → Nat
  | .notStarted => 7
  | .load => if isRunning then 6 else 3
  | .pop drain => (if drain then 1 else 4) + if asleep then 0 else 1
  | .isValid _ drain => if drain then 4 else 8
  | .log _ drain => if drain then 3 else 7
  | .done => 0

/-- What is left to do; an entry in the queue is four steps of the worker. -/
def rank (s : TestApplication σ) : Nat :=
  s.main.rank s.input.length + 4 * s.logQueue.queue.length
    + s.worker.rank s.isRunning (decide (() ∈ s.logQueue.asleep))

/-- Waking the worker up costs at most one step. -/
theorem rank_asleep_le (pc : WorkerPc) (running a b : Bool) :
    pc.rank running a ≤ pc.rank running b + 1 := by
  cases pc with
  | pop drain =>
    simp only [WorkerPc.rank]
    cases a <;> cases b <;> simp only [Bool.false_eq_true, if_false, if_true] <;> omega
  | _ => exact Nat.le_succ _

/-- The store to `is_running_` gives the worker no more to do. -/
theorem rank_stopped_le (pc : WorkerPc) (running asleep : Bool) :
    pc.rank false asleep ≤ pc.rank running asleep := by
  cases pc with
  | load => cases running <;> simp [WorkerPc.rank]
  | _ => exact Nat.le_refl _

theorem afterStop_rank (n : Nat) (final : Bool) :
    (afterStop final).rank n < (MainPc.join final).rank n := by
  cases final with
  | true => simp [afterStop, MainPc.rank]
  | false => simp only [afterStop, MainPc.rank, Bool.false_eq_true, if_false]; omega

/-- Reading a line pays for all that comes of it. -/
theorem afterLine_rank (d : LogLevel) (line : Bytes) (n : Nat) :
    (afterLine d line).rank n < MainPc.getline.rank (n + 1) := by
  rcases afterLine_spec d line with heq | ⟨entry, heq⟩ | heq
  · rw [heq]
    simp only [MainPc.rank]
    omega
  · rw [heq]
    simp only [MainPc.rank]
    omega
  · rw [heq]
    simp only [MainPc.rank, Bool.false_eq_true, if_false]
    omega

/-- Behind an entry, whichever loop the worker is in. -/
theorem afterEntry_rank (drain running : Bool) :
    (afterEntry drain).rank running false < (if drain then 3 else 7) := by
  cases drain with
  | true => simp [afterEntry, WorkerPc.rank]
  | false => cases running <;> simp [afterEntry, WorkerPc.rank]

theorem push_length {entry : LogEntry} {t : Option Unit}
    {q q' : ThreadSafeQueue LogEntry Unit} (h : q.push entry t = some q') :
    q'.queue.length ≤ q.queue.length + 1 := by
  by_cases hrun : q.isRunning = true
  · rw [(ThreadSafeQueue.push_spec h hrun).1, List.length_append]
    exact Nat.le_refl _
  · rw [ThreadSafeQueue.push, if_pos (by simpa using hrun)] at h
    cases h
    exact Nat.le_succ _

/-- Every step but a spurious wakeup lowers the rank. -/
theorem step_rank {a : AppAction} (hok : MainOk s) (h : EndInv s) (hstep : AppStep s a s') :
    if a = .wake then rank s' ≤ rank s + 1 else rank s' < rank s := by
  unfold MainOk at hok
  cases hstep with
  | mainMove notified pc hmove =>
    rw [if_neg (by simp)]
    have hpc : pc.rank s.input.length < s.main.rank s.input.length := by
      cases hmove with
      | enter hpc hrun => rw [hpc]; simp only [MainPc.rank]; omega
      | leave hpc hrun => rw [hpc]; simp only [MainPc.rank, if_true]; omega
      | endOfInput hpc => rw [hpc]; simp only [MainPc.rank, if_true]; omega
      | prompt hpc => rw [hpc]; simp only [MainPc.rank]; omega
      | stop final hpc hrun =>
        rw [hpc]
        cases final <;> simp only [MainPc.rank, Bool.false_eq_true, if_false, if_true] <;> omega
      | stopped final hpc hrun =>
        have hle := afterStop_rank s.input.length final
        rw [hpc]
        refine Nat.lt_trans hle ?_
        cases final <;> simp only [MainPc.rank, Bool.false_eq_true, if_false, if_true] <;> omega
      | join final hpc hworker =>
        rw [hpc]
        exact afterStop_rank s.input.length final
    simp only [rank]
    omega
  | storeRunning notified hpc =>
    rw [hpc] at hok
    rw [if_neg (by simp)]
    simp only [rank, hpc, hok.2, MainPc.rank, WorkerPc.rank]
    omega
  | spawn notified hpc =>
    rw [hpc] at hok
    rw [if_neg (by simp)]
    simp only [rank, hpc, hok.1, hok.2.2, MainPc.rank, WorkerPc.rank, if_true]
    omega
  | read notified line input hpc hinput =>
    rw [if_neg (by simp)]
    have hlt := afterLine_rank s.defaultLevel line input.length
    simp only [rank, hpc, hinput, List.length_cons]
    omega
  | push notified entry logQueue hpc hpush =>
    rw [hpc] at hok
    rw [if_neg (by simp)]
    have hlen := push_length hpush
    have hwake := rank_asleep_le s.worker s.isRunning (decide (() ∈ logQueue.asleep))
      (decide (() ∈ s.logQueue.asleep))
    simp only [rank, hpc, MainPc.rank]
    omega
  | stopStore notified final hpc =>
    rw [if_neg (by simp)]
    have hle := rank_stopped_le s.worker s.isRunning (decide (() ∈ s.logQueue.asleep))
    simp only [rank, hpc]
    cases final <;> simp only [MainPc.rank, Bool.false_eq_true, if_false, if_true] <;> omega
  | stopQueue notified final hpc =>
    rw [if_neg (by simp)]
    have hwake := rank_asleep_le s.worker s.isRunning (decide (() ∈ s.logQueue.stop.asleep))
      (decide (() ∈ s.logQueue.asleep))
    simp only [rank, hpc, show s.logQueue.stop.queue = s.logQueue.queue from rfl]
    cases final <;> simp only [MainPc.rank, Bool.false_eq_true, if_false, if_true] <;> omega
  | workerMove pc hmove =>
    rw [if_neg (by simp)]
    cases hmove with
    | running hpc hrun =>
      have hawake := h.awake (by simp [hpc])
      simp [rank, hpc, hrun, WorkerPc.rank, hawake]
    | stopped hpc hrun =>
      have hawake := h.awake (by simp [hpc])
      simp [rank, hpc, hrun, WorkerPc.rank, hawake]
    | valid entry drain hpc => cases drain <;> simp [rank, hpc, WorkerPc.rank]
    | invalid entry drain hpc =>
      have hawake := h.awake (by simp [hpc])
      have hlt := afterEntry_rank drain s.isRunning
      have hrank : (WorkerPc.isValid entry drain).rank s.isRunning false
        = if drain then 4 else 8 := rfl
      simp only [rank, hpc, hawake, decide_false, hrank]
      cases drain <;> simp only [Bool.false_eq_true, if_false, if_true] at hlt ⊢ <;> omega
  | sleep drain hpc hawake hrun =>
    rw [if_neg (by simp)]
    simp [rank, hpc, WorkerPc.rank, hawake]
  | item entry rest drain hpc hawake hqueue =>
    rw [if_neg (by simp)]
    simp only [rank, hpc, hqueue, WorkerPc.rank, hawake, decide_false, List.length_cons]
    cases drain <;> simp only [Bool.false_eq_true, if_false, if_true] <;> omega
  | drained drain hpc hawake hqueue hrun =>
    rw [if_neg (by simp)]
    -- the queue is stopped, so the flag has fallen, and the worker goes to its second loop
    have hfell := (h.stopped hrun).1
    cases drain <;> simp [rank, hpc, hfell, WorkerPc.rank, hawake]
  | log entry drain hpc logger formatted =>
    rw [if_neg (by simp)]
    have hawake := h.awake (by simp [hpc])
    have hlt := afterEntry_rank drain s.isRunning
    have hrank : (WorkerPc.log entry drain).rank s.isRunning false
      = if drain then 3 else 7 := rfl
    simp only [rank, hpc, hawake, decide_false, hrank]
    omega
  | wake logQueue hwake =>
    rw [if_pos rfl]
    obtain ⟨hqueue, -⟩ := ThreadSafeQueue.wake_spec hwake
    have hle := rank_asleep_le s.worker s.isRunning (decide (() ∈ logQueue.asleep))
      (decide (() ∈ s.logQueue.asleep))
    simp only [rank, hqueue]
    omega

/-! ## Every run ends -/

/-- The destructor has returned, and the worker with it. -/
def Ended (s : TestApplication σ) : Prop := s.main = .ended ∧ s.worker = .done

variable [ILogSink σ] {timestamps : Nat → Bytes} {d : LogLevel} {sink₀ : σ} {lines : List Bytes}

/-- What holds along every run of the application. -/
def Running (timestamps : Nat → Bytes) (d : LogLevel) (sink₀ : σ) (lines : List Bytes)
    (s : TestApplication σ) : Prop :=
  (∃ done, Delivery timestamps d sink₀ lines done s) ∧ EndInv s

theorem running_ranked :
    (appMachine timestamps).Ranked (Running timestamps d sink₀ lines) rank (· == .wake) 1 := by
  refine ⟨?_, ?_, ?_⟩
  · intro s a s' es h hstep
    obtain ⟨⟨done, hdelivery⟩, hend⟩ := h
    refine ⟨?_, step_endInv hdelivery.main hend (appStep_inv hstep)⟩
    obtain ⟨t, hstep', heq⟩ := Option.map_eq_some_iff.mp hstep
    cases heq
    exact step_delivery hdelivery hstep'
  · intro s a s' es h hstep hown
    obtain ⟨⟨done, hdelivery⟩, hend⟩ := h
    have hrank := step_rank hdelivery.main hend (appStep_inv hstep)
    rwa [if_neg (by simpa using hown)] at hrank
  · intro s a s' es h hstep hfree
    obtain ⟨⟨done, hdelivery⟩, hend⟩ := h
    have hrank := step_rank hdelivery.main hend (appStep_inv hstep)
    rwa [if_pos (by simpa using hfree)] at hrank

/-- A worker that is awake can take a step. -/
theorem worker_enabled (timestamp : Bytes) (hawake : () ∉ s.logQueue.asleep)
    (hstarted : s.worker ≠ .notStarted) (hbusy : s.worker ≠ .done) :
    ∃ s', s.stepWorker timestamp = some s' := by
  unfold TestApplication.stepWorker
  cases hpc : s.worker with
  | notStarted => exact absurd hpc hstarted
  | load => by_cases hrun : s.isRunning = true <;> simp [hrun]
  | pop drain =>
    dsimp only
    rw [if_neg hawake]
    rcases s.logQueue.pop_cases () with ⟨entry, rest, -, hpop⟩ | ⟨-, -, hpop⟩ | ⟨-, -, hpop⟩
    · exact ⟨_, by rw [hpop]⟩
    · exact ⟨_, by rw [hpop]⟩
    · exact ⟨_, by rw [hpop]⟩
  | isValid entry drain => by_cases hvalid : s.logger.isValid = true <;> simp [hvalid]
  | log entry drain => exact ⟨_, rfl⟩
  | done => exact absurd hpc hbusy

/-- Whoever sleeps, somebody can be notified. -/
theorem push_enabled (entry : LogEntry) (q : ThreadSafeQueue LogEntry Unit) :
    ∃ t q', q.push entry t = some q' := by
  by_cases hrun : q.isRunning = true
  · by_cases hasleep : () ∈ q.asleep
    · refine ⟨some (), ?_⟩
      simp [ThreadSafeQueue.push, ThreadSafeQueue.notifyOne, hrun, hasleep]
    · have hnobody : q.asleep = [] := List.eq_nil_iff_forall_not_mem.mpr fun _ => hasleep
      refine ⟨none, ?_⟩
      simp [ThreadSafeQueue.push, ThreadSafeQueue.notifyOne, hrun, hnobody]
  · exact ⟨none, q, by simp [ThreadSafeQueue.push, hrun]⟩

omit [ILogSink σ] in
/-- The main thread waits for nobody but, in the join, the worker. -/
theorem main_enabled (hend : s.main ≠ .ended)
    (hjoin : ∀ final, s.main = .join final → s.worker = .done) :
    ∃ notified s', s.stepMain notified = some s' := by
  unfold TestApplication.stepMain
  cases hpc : s.main with
  | storeRunning => exact ⟨none, _, rfl⟩
  | spawn => exact ⟨none, _, rfl⟩
  | loop => by_cases hrun : s.isRunning = true <;> simp [hrun]
  | getline =>
    cases hinput : s.input with
    | nil => exact ⟨none, _, rfl⟩
    | cons line input =>
      cases hparse : parseCommand line with
      | none => exact ⟨none, _, by simp [hparse]; rfl⟩
      | some command => exact ⟨none, _, by simp [hparse]; rfl⟩
  | push entry =>
    obtain ⟨t, q, hpush⟩ := push_enabled entry s.logQueue
    exact ⟨t, _, by simp [hpush]; rfl⟩
  | prompt => exact ⟨none, _, rfl⟩
  | stopLoad final => by_cases hrun : s.isRunning = true <;> simp [hrun]
  | stopStore final => exact ⟨none, _, rfl⟩
  | stopQueue final => exact ⟨none, _, rfl⟩
  | join final => exact ⟨none, _, by simp [hjoin final hpc]; rfl⟩
  | ended => exact absurd hpc hend

/-- **No deadlock.** Before the end a thread can move that no spurious wakeup
has to help. -/
theorem running_progress (h : Running timestamps d sink₀ lines s) (hend : ¬Ended s) :
    ∃ a s' es, (a == AppAction.wake) = false
      ∧ (appMachine timestamps).step s a = some (s', es) := by
  obtain ⟨⟨done, hdelivery⟩, hinv⟩ := h
  have hok := hdelivery.main
  by_cases hmain : s.main ≠ .ended ∧ ∀ final, s.main = .join final → s.worker = .done
  · obtain ⟨notified, s', hstep⟩ := main_enabled hmain.1 hmain.2
    exact ⟨.main notified, s', [], rfl, by simp [appMachine, TestApplication.step, hstep]⟩
  · have hstarted : s.worker ≠ .notStarted := by
      intro hnew
      rcases hinv.started hnew with hpc | hpc
      · exact hmain (by simp [hpc])
      · exact hmain (by simp [hpc])
    have hbusy : s.worker ≠ .done := by
      intro hdone
      by_cases hpc : s.main = .ended
      · exact hend ⟨hpc, hdone⟩
      · exact hmain ⟨hpc, fun _ _ => hdone⟩
    -- the main thread is in the join, behind the stop of the queue, so nobody sleeps
    have hpc : ∃ final, s.main = .join final := by
      by_contra hno
      refine hmain ⟨fun hpc => hbusy (hinv.joined (by rw [hpc]; rfl) (hinv.ended hpc)), ?_⟩
      exact fun final hpc => absurd ⟨final, hpc⟩ hno
    obtain ⟨final, hpc⟩ := hpc
    unfold MainOk at hok
    rw [hpc] at hok
    have hawake : () ∉ s.logQueue.asleep := by simp [(hinv.stopped hok.2).2]
    obtain ⟨s', hstep⟩ := worker_enabled (timestamps s.formatted) hawake hstarted hbusy
    exact ⟨.worker, s', [], rfl, by simp [appMachine, TestApplication.step, hstep]⟩

/-- At the end nothing moves. -/
theorem ended_stuck (hinv : EndInv s) (hend : Ended s) (a : AppAction) :
    (appMachine timestamps).step s a = none := by
  obtain ⟨hmain, hworker⟩ := hend
  have hawake : () ∉ s.logQueue.asleep := hinv.awake (by simp [hworker])
  cases a with
  | main notified => simp [appMachine, TestApplication.step, TestApplication.stepMain, hmain]
  | worker => simp [appMachine, TestApplication.step, TestApplication.stepWorker, hworker]
  | wake => simp [appMachine, TestApplication.step, ThreadSafeQueue.wake, hawake]

theorem created_running (timestamps : Nat → Bytes) (d : LogLevel) (sink₀ : σ)
    (lines : List Bytes) : Running timestamps d sink₀ lines (.created d sink₀ lines) :=
  ⟨⟨[], created_delivery timestamps d sink₀ lines⟩, by simp [TestApplication.created,
    TestApplication.construct], by simp [TestApplication.created, TestApplication.construct],
    by simp [TestApplication.created, TestApplication.construct, MainPc.outsideStop],
    fun _ => .inl rfl, by simp [TestApplication.created, TestApplication.construct]⟩

omit [ILogSink σ] in
theorem created_rank (d : LogLevel) (sink₀ : σ) (lines : List Bytes) :
    rank (.created d sink₀ lines) = 16 + 9 * lines.length := by
  simp only [rank, TestApplication.created, TestApplication.construct, MainPc.rank, WorkerPc.rank,
    List.length_nil]
  omega

section Runs

variable {as : List AppAction} {es : List Empty}

theorem run_running
    (hrun : (appMachine timestamps).run (.created d sink₀ lines) as = some (s, es)) :
    Running timestamps d sink₀ lines s :=
  (appMachine timestamps).run_invariant (P := Running timestamps d sink₀ lines)
    (fun _ _ _ _ hs hstep => running_ranked.keeps hs hstep) hrun
    (created_running timestamps d sink₀ lines)

/-- The steps of a run are bounded by the lines and the spurious wakeups. -/
theorem run_bounded
    (hrun : (appMachine timestamps).run (.created d sink₀ lines) as = some (s, es)) :
    as.countP (· != .wake) ≤ 16 + 9 * lines.length + as.countP (· == .wake) := by
  have hle := running_ranked.bounded (created_running timestamps d sink₀ lines) hrun
  rw [created_rank] at hle
  have hcount : as.countP (fun a => !(a == AppAction.wake)) = as.countP (· != .wake) := rfl
  omega

/-- A run that can go no further has ended. -/
theorem ended_of_stuck (hinv : Running timestamps d sink₀ lines s)
    (hstuck : ∀ a, (appMachine timestamps).step s a = none) : Ended s := by
  by_contra hend
  obtain ⟨a, s', fs, -, hstep⟩ := running_progress hinv hend
  exact absurd (hstuck a) (by simp [hstep])

/-- Every run can be continued to the end by the threads alone. -/
theorem Running.reaches_ended (hinv : Running timestamps d sink₀ lines s) :
    ∃ bs s' es', AppAction.wake ∉ bs
      ∧ (appMachine timestamps).run s bs = some (s', es') ∧ Ended s'
      ∧ ∀ a, (appMachine timestamps).step s' a = none := by
  obtain ⟨s', bs, fs, hrun', hend, hinv', hfree⟩ :=
    running_ranked.reaches_final (fun _ hs hend => running_progress hs hend) hinv
  refine ⟨bs, s', fs, fun hmem => ?_, hrun', hend, ended_stuck hinv'.2 hend⟩
  exact absurd (List.countP_eq_zero.mp hfree _ hmem) (by simp)

end Runs

/-- **The program ends.** Whatever the sink does, the two threads take at most
nine steps for each line, sixteen more, and one for each spurious wakeup. A
run that can go no further has joined the worker and ended, and so does every
run that is only continued. -/
theorem terminates {σ : Type} [ILogSink σ] (timestamps : Nat → Bytes) (d : LogLevel) (sink : σ)
    (lines : List Bytes) (as : List AppAction) (s : TestApplication σ) (es : List Empty)
    (hrun : (appMachine timestamps).run (.created d sink lines) as = some (s, es)) :
    as.countP (· != .wake) ≤ 16 + 9 * lines.length + as.countP (· == .wake)
      ∧ (Ended s ↔ ∀ a, (appMachine timestamps).step s a = none)
      ∧ ∃ bs s' es', AppAction.wake ∉ bs
        ∧ (appMachine timestamps).run s bs = some (s', es') ∧ Ended s' := by
  have hinv : Running timestamps d sink lines s := run_running hrun
  refine ⟨run_bounded hrun, ⟨fun hend a => ended_stuck hinv.2 hend a, ended_of_stuck hinv⟩, ?_⟩
  obtain ⟨bs, s', es', hown, hrun', hend, -⟩ := hinv.reaches_ended
  exact ⟨bs, s', es', hown, hrun', hend⟩

/-- The worker asleep in `pop`, behind the start of the program. -/
theorem terminates_asleep :
    ∃ (s : TestApplication FileSink) (es : List Empty), (appMachine fun _ => ascii "t").run
        (.created .info { isOpen := true, good := false } [ascii "hi"])
        [.main none, .main none, .worker, .worker, .wake] = some (s, es)
      ∧ ∃ bs s' es', AppAction.wake ∉ bs
        ∧ (appMachine fun _ => ascii "t").run s bs = some (s', es') ∧ Ended s' :=
  ⟨_, _, rfl, (terminates (fun _ => ascii "t") .info
    ({ isOpen := true, good := false } : FileSink) [ascii "hi"]
    [.main none, .main none, .worker, .worker, .wake] _ _ rfl).2.2⟩

end LogMetrics.TestApplication
