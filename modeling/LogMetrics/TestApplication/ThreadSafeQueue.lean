import LogMetrics.Bytes

/-!
# `ThreadSafeQueue`

`src/test_application/thread_safe_queue.hpp`, for items `α` and threads `ι`.
The part of each method between taking and releasing `mutex_` is one function
here. `pop` has such a part from its call, or from its waking up, to its
return or its going to sleep in `condition_.wait`; while asleep it holds
nothing. A sleeper is in `asleep` until `notify_one`, `notify_all` or a
spurious wakeup moves it to `woken`.
-/

namespace LogMetrics.TestApplication

/-- `ThreadSafeQueue`. -/
structure ThreadSafeQueue (α ι : Type) where
  queue : List α := []
  isRunning : Bool := true
  asleep : List ι := []
  woken : List ι := []

/-- How the locked part of `pop` ends: the thread sleeps, or `pop` returns
true with an item or false. -/
inductive PopResult (α : Type) where
  | sleeps
  | item (item : α)
  | stopped

namespace ThreadSafeQueue

variable {α ι : Type} [DecidableEq ι]

/-- `condition_.notify_one` when the scheduler picks `t` (nobody, when nobody
sleeps). -/
def notifyOne (t : Option ι) (q : ThreadSafeQueue α ι) : Option (ThreadSafeQueue α ι) :=
  match t with
  | none => if q.asleep.isEmpty then some q else none
  | some t =>
    if t ∈ q.asleep then some { q with asleep := q.asleep.erase t, woken := t :: q.woken }
    else none

/-- `push`. -/
def push (item : α) (t : Option ι) (q : ThreadSafeQueue α ι) : Option (ThreadSafeQueue α ι) :=
  if not q.isRunning then some q
  else notifyOne t { q with queue := q.queue ++ [item] }

/-- The locked part of `pop` in thread `t`. -/
def pop (t : ι) (q : ThreadSafeQueue α ι) : PopResult α × ThreadSafeQueue α ι :=
  let q := { q with woken := q.woken.erase t }
  match q.queue with
  | [] => if q.isRunning then (.sleeps, { q with asleep := t :: q.asleep }) else (.stopped, q)
  | item :: queue => (.item item, { q with queue })

/-- `stop`. -/
def stop (q : ThreadSafeQueue α ι) : ThreadSafeQueue α ι :=
  { q with isRunning := false, asleep := [], woken := q.asleep ++ q.woken }

/-- `size`. -/
def size (q : ThreadSafeQueue α ι) : Nat := q.queue.length

/-- `empty`. -/
def empty (q : ThreadSafeQueue α ι) : Bool := q.queue.isEmpty

/-- A spurious wakeup of `t`. -/
def wake (t : ι) (q : ThreadSafeQueue α ι) : Option (ThreadSafeQueue α ι) :=
  if t ∈ q.asleep then some { q with asleep := q.asleep.erase t, woken := t :: q.woken } else none

/-- Waking somebody moves no item. -/
theorem notifyOne_spec {t : Option ι} {q q' : ThreadSafeQueue α ι}
    (h : notifyOne t q = some q') : q'.queue = q.queue ∧ q'.isRunning = q.isRunning := by
  unfold notifyOne at h
  split at h
  · split at h
    · cases h
      exact ⟨rfl, rfl⟩
    · exact absurd h (by simp)
  · split at h
    · cases h
      exact ⟨rfl, rfl⟩
    · exact absurd h (by simp)

/-- A push on a running queue appends the item. -/
theorem push_spec {item : α} {t : Option ι} {q q' : ThreadSafeQueue α ι}
    (h : push item t q = some q') (hrunning : q.isRunning = true) :
    q'.queue = q.queue ++ [item] ∧ q'.isRunning = true := by
  rw [push, hrunning] at h
  obtain ⟨hqueue, hrun⟩ := notifyOne_spec h
  exact ⟨hqueue, hrun.trans rfl⟩

theorem wake_spec {t : ι} {q q' : ThreadSafeQueue α ι} (h : wake t q = some q') :
    q'.queue = q.queue ∧ q'.isRunning = q.isRunning := by
  unfold wake at h
  split at h
  · cases h
    exact ⟨rfl, rfl⟩
  · exact absurd h (by simp)

/-- `pop` takes the front item, or finds the queue empty: then it sleeps while
the queue runs and gives up when it does not. -/
theorem pop_spec (t : ι) (q : ThreadSafeQueue α ι) :
    (pop t q).2.isRunning = q.isRunning
      ∧ match (pop t q).1 with
        | .item item => q.queue = item :: (pop t q).2.queue
        | .sleeps => q.queue = [] ∧ (pop t q).2.queue = []
        | .stopped => q.queue = [] ∧ (pop t q).2.queue = [] ∧ q.isRunning = false := by
  unfold pop
  cases hqueue : q.queue with
  | cons item queue => simp
  | nil =>
    by_cases hrunning : q.isRunning = true
    · simp [hrunning]
    · simp [hrunning]

/-- The three ends of `pop`, with the queue each of them leaves. -/
theorem pop_cases (t : ι) (q : ThreadSafeQueue α ι) :
    (∃ item rest, q.queue = item :: rest
        ∧ pop t q = (.item item, { q with woken := q.woken.erase t, queue := rest }))
      ∨ (q.queue = [] ∧ q.isRunning = true ∧ pop t q
        = (.sleeps, { q with woken := q.woken.erase t, asleep := t :: q.asleep }))
      ∨ (q.queue = [] ∧ q.isRunning = false
        ∧ pop t q = (.stopped, { q with woken := q.woken.erase t })) := by
  unfold pop
  dsimp only
  cases hqueue : q.queue with
  | cons item rest => exact .inl ⟨item, rest, rfl, rfl⟩
  | nil =>
    right
    by_cases hrun : q.isRunning = true
    · rw [if_pos hrun]
      exact .inl ⟨rfl, hrun, rfl⟩
    · rw [if_neg hrun]
      exact .inr ⟨rfl, by simpa using hrun, rfl⟩

end ThreadSafeQueue

end LogMetrics.TestApplication
