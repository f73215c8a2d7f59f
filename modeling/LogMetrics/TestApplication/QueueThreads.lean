import Mathlib.Data.List.Nodup
import LogMetrics.Base.Machine
import LogMetrics.TestApplication.ThreadSafeQueue

/-!
# Producers and consumers of a `ThreadSafeQueue`

Any number of threads call `push`, `pop` and `stop`; each locked section is a
step, and a `pop` that found nothing continues with another step once its
thread has been woken. A notification can come to nothing: the thread it
wakes may find that a consumer who came later has taken the item, and sleeps
again.

`QueueInv` ties the sleepers to the items: while the queue runs and somebody
sleeps, every item has its own woken thread that has yet to look
(`covered`). Each operation keeps it (`push_inv`, `pop_inv`, `wake_inv`,
`stop_inv`), and the items accepted are always those handed out followed by
those still queued (`step_items`).
-/

namespace LogMetrics.TestApplication

open LogMetrics.Base

variable {α ι : Type} [DecidableEq ι]

/-- A call of thread `t`; `pop` also stands for the thread's going on with its
call after it was woken. `notified` is whom `notify_one` picks. -/
inductive QueueAction (α ι : Type) where
  | push (t : ι) (item : α) (notified : Option ι)
  | pop (t : ι)
  | wake (t : ι)
  | stop (t : ι)

/-- A push of a running queue; the two ways `pop` returns. -/
inductive QueueEvent (α ι : Type) where
  | accepted (item : α)
  | returned (t : ι) (item : α)
  | gaveUp (t : ι)

namespace ThreadSafeQueue

/-- The thread is inside `pop`. -/
def Waits (q : ThreadSafeQueue α ι) (t : ι) : Prop := t ∈ q.asleep ∨ t ∈ q.woken

instance (q : ThreadSafeQueue α ι) (t : ι) : Decidable (q.Waits t) :=
  inferInstanceAs (Decidable (_ ∨ _))

def step (q : ThreadSafeQueue α ι) :
    QueueAction α ι → Option (ThreadSafeQueue α ι × List (QueueEvent α ι))
  | .push t item notified =>
    if q.Waits t then none
    else (q.push item notified).map (·, if q.isRunning then [.accepted item] else [])
  | .pop t =>
    if t ∈ q.asleep then none
    else
      match q.pop t with
      | (.sleeps, q') => some (q', [])
      | (.item item, q') => some (q', [.returned t item])
      | (.stopped, q') => some (q', [.gaveUp t])
  | .wake t => (q.wake t).map (·, [])
  | .stop t => if q.Waits t then none else some (q.stop, [])

end ThreadSafeQueue

/-- The threads around a queue as a machine. -/
def queueMachine (α ι : Type) [DecidableEq ι] :
    Machine (ThreadSafeQueue α ι) (QueueAction α ι) (QueueEvent α ι) :=
  ⟨ThreadSafeQueue.step⟩

/-! ## Items -/

/-- The items pushed, in order. -/
def acceptedItems (es : List (QueueEvent α ι)) : List α :=
  es.filterMap fun
    | .accepted item => some item
    | _ => none

/-- The items popped, in order. -/
def returnedItems (es : List (QueueEvent α ι)) : List α :=
  es.filterMap fun
    | .returned _ item => some item
    | _ => none

variable {q q' : ThreadSafeQueue α ι} {es fs : List (QueueEvent α ι)}

omit [DecidableEq ι] in
theorem acceptedItems_append (es fs : List (QueueEvent α ι)) :
    acceptedItems (es ++ fs) = acceptedItems es ++ acceptedItems fs := List.filterMap_append

omit [DecidableEq ι] in
theorem returnedItems_append (es fs : List (QueueEvent α ι)) :
    returnedItems (es ++ fs) = returnedItems es ++ returnedItems fs := List.filterMap_append

/-- What a step takes from the queue's front it returns, and what it accepts
it puts at the end. -/
theorem step_items {a : QueueAction α ι} (h : q.step a = some (q', fs)) :
    q.queue ++ acceptedItems fs = returnedItems fs ++ q'.queue := by
  unfold ThreadSafeQueue.step at h
  split at h
  next t item notified =>
    split at h
    next => exact absurd h (by simp)
    next =>
      obtain ⟨q₁, hpush, heq⟩ := Option.map_eq_some_iff.mp h
      cases heq
      cases hrun : q.isRunning with
      | true =>
        rw [(ThreadSafeQueue.push_spec hpush hrun).1]
        rfl
      | false =>
        obtain rfl : q = q' := by
          rw [ThreadSafeQueue.push, hrun] at hpush
          exact Option.some.inj hpush
        exact List.append_nil _
  next t =>
    split at h
    next => exact absurd h (by simp)
    next =>
      obtain ⟨-, hpop⟩ := ThreadSafeQueue.pop_spec t q
      split at h
      next q₁ hresult =>
        cases h
        rw [hresult] at hpop
        rw [hpop.1, hpop.2]
        rfl
      next item q₁ hresult =>
        cases h
        rw [hresult] at hpop
        exact (List.append_nil _).trans hpop
      next q₁ hresult =>
        cases h
        rw [hresult] at hpop
        rw [hpop.1, hpop.2.1]
        rfl
  next t =>
    obtain ⟨q₁, hwake, heq⟩ := Option.map_eq_some_iff.mp h
    cases heq
    rw [(ThreadSafeQueue.wake_spec hwake).1]
    exact List.append_nil _
  next t =>
    split at h
    next => exact absurd h (by simp)
    next =>
      cases h
      exact List.append_nil _

/-! ## Sleepers -/

/-- No thread is counted twice, nobody sleeps behind `stop`, and while
somebody sleeps each item has a woken thread that has yet to look. -/
structure QueueInv (q : ThreadSafeQueue α ι) : Prop where
  nodup : (q.asleep ++ q.woken).Nodup
  stopped : q.isRunning = false → q.asleep = []
  covered : q.asleep ≠ [] → q.queue.length ≤ q.woken.length

/-- A sleeper becomes a woken thread. -/
theorem wake_inv {t : ι} (h : QueueInv q) (ht : t ∈ q.asleep) :
    QueueInv { q with asleep := q.asleep.erase t, woken := t :: q.woken } := by
  have hperm : (q.asleep.erase t ++ t :: q.woken).Perm (q.asleep ++ q.woken) :=
    List.perm_middle.trans ((List.perm_cons_erase ht).symm.append_right q.woken)
  have hsleeps : q.asleep ≠ [] := List.ne_nil_of_mem ht
  refine ⟨hperm.nodup_iff.mpr h.nodup, fun hstopped => ?_, fun _ => ?_⟩
  · exact absurd (h.stopped hstopped) hsleeps
  · exact Nat.le_succ_of_le (h.covered hsleeps)

/-- `push`: the new item's notification wakes a thread for it. -/
theorem push_inv {item : α} {notified : Option ι} (h : QueueInv q)
    (hpush : q.push item notified = some q') : QueueInv q' := by
  unfold ThreadSafeQueue.push at hpush
  split at hpush
  next =>
    cases hpush
    exact h
  next hrun =>
    unfold ThreadSafeQueue.notifyOne at hpush
    split at hpush
    next =>
      split at hpush
      next hempty =>
        -- nobody to wake
        cases hpush
        exact ⟨h.nodup, h.stopped, fun hne => absurd (List.isEmpty_iff.mp hempty) hne⟩
      next => exact absurd hpush (by simp)
    next t =>
      split at hpush
      next ht =>
        cases hpush
        have hwoken := wake_inv h ht
        refine ⟨hwoken.nodup, hwoken.stopped, fun _ => ?_⟩
        have hcovered := h.covered (List.ne_nil_of_mem ht)
        rw [List.length_append, List.length_cons]
        exact Nat.succ_le_succ hcovered
      next => exact absurd hpush (by simp)

/-- `pop`: a thread that takes an item was woken for one or leaves all the
others theirs; one that finds none sleeps with nothing to take. -/
theorem pop_inv {t : ι} (h : QueueInv q) (ht : t ∉ q.asleep) : QueueInv (q.pop t).2 := by
  have hsub : (q.woken.erase t).Sublist q.woken := List.erase_sublist
  have hnodup : (q.asleep ++ q.woken.erase t).Nodup := h.nodup.sublist (hsub.append_left _)
  unfold ThreadSafeQueue.pop
  cases hqueue : q.queue with
  | cons item queue =>
    refine ⟨hnodup, h.stopped, fun hsleeps => ?_⟩
    have hcovered := h.covered hsleeps
    rw [hqueue, List.length_cons] at hcovered
    show queue.length ≤ (q.woken.erase t).length
    have hlen : q.woken.length - 1 ≤ (q.woken.erase t).length := List.le_length_erase
    omega
  | nil =>
    dsimp only
    split
    next hrun =>
      refine ⟨?_, fun hstopped => absurd hstopped (by simp [hrun]), fun _ => ?_⟩
      · have hnot : t ∉ q.woken.erase t := (List.nodup_append.mp h.nodup).2.1.not_mem_erase
        exact List.nodup_cons.mpr ⟨by simp [ht, hnot], hnodup⟩
      · exact Nat.zero_le _
    next hrun =>
      refine ⟨hnodup, h.stopped, fun hsleeps => ?_⟩
      exact absurd (h.stopped (by simpa using hrun)) hsleeps

omit [DecidableEq ι] in
theorem new_inv : QueueInv ({} : ThreadSafeQueue α ι) :=
  ⟨List.nodup_nil, fun _ => rfl, fun hne => absurd rfl hne⟩

omit [DecidableEq ι] in
/-- `stop` wakes everybody. -/
theorem stop_inv (h : QueueInv q) : QueueInv q.stop :=
  ⟨h.nodup, fun _ => rfl, fun hne => absurd rfl hne⟩

theorem step_queueInv {a : QueueAction α ι} (h : QueueInv q) (hstep : q.step a = some (q', fs)) :
    QueueInv q' := by
  unfold ThreadSafeQueue.step at hstep
  split at hstep
  next t item notified =>
    split at hstep
    next => exact absurd hstep (by simp)
    next =>
      obtain ⟨q₁, hpush, heq⟩ := Option.map_eq_some_iff.mp hstep
      cases heq
      exact push_inv h hpush
  next t =>
    split at hstep
    next => exact absurd hstep (by simp)
    next ht =>
      have hpop := pop_inv h ht
      split at hstep
      next q₁ hresult =>
        cases hstep
        rwa [hresult] at hpop
      next item q₁ hresult =>
        cases hstep
        rwa [hresult] at hpop
      next q₁ hresult =>
        cases hstep
        rwa [hresult] at hpop
  next t =>
    obtain ⟨q₁, hwake, heq⟩ := Option.map_eq_some_iff.mp hstep
    cases heq
    unfold ThreadSafeQueue.wake at hwake
    split at hwake
    next ht =>
      cases hwake
      exact wake_inv h ht
    next => exact absurd hwake (by simp)
  next t =>
    split at hstep
    next => exact absurd hstep (by simp)
    next =>
      cases hstep
      exact stop_inv h

/-- `pop` gives up on a queue that is stopped and empty. -/
theorem step_gaveUp {a : QueueAction α ι} {t : ι} (hstep : q.step a = some (q', fs))
    (hgave : .gaveUp t ∈ fs) :
    q.isRunning = false ∧ q.queue = [] ∧ q'.isRunning = false ∧ q'.queue = [] := by
  unfold ThreadSafeQueue.step at hstep
  split at hstep
  next =>
    split at hstep
    next => exact absurd hstep (by simp)
    next =>
      obtain ⟨q₁, -, heq⟩ := Option.map_eq_some_iff.mp hstep
      cases heq
      split at hgave <;> exact absurd hgave (by simp)
  next t' =>
    split at hstep
    next => exact absurd hstep (by simp)
    next =>
      obtain ⟨hrunning, hpop⟩ := ThreadSafeQueue.pop_spec t' q
      split at hstep
      next => cases hstep; exact absurd hgave (by simp)
      next => cases hstep; exact absurd hgave (by simp)
      next q₁ hresult =>
        cases hstep
        rw [hresult] at hrunning hpop
        exact ⟨hpop.2.2, hpop.1, hrunning.trans hpop.2.2, hpop.2.1⟩
  next =>
    obtain ⟨q₁, -, heq⟩ := Option.map_eq_some_iff.mp hstep
    cases heq
    exact absurd hgave (by simp)
  next =>
    split at hstep
    next => exact absurd hstep (by simp)
    next =>
      cases hstep
      exact absurd hgave (by simp)

/-! ## Runs -/

theorem run_queue {as : List (QueueAction α ι)}
    (hrun : (queueMachine α ι).run {} as = some (q, es)) :
    acceptedItems es = returnedItems es ++ q.queue ∧ QueueInv q := by
  refine (queueMachine α ι).run_induction
    (P := fun _ q es => acceptedItems es = returnedItems es ++ q.queue ∧ QueueInv q)
    ⟨rfl, new_inv⟩ ?_ hrun
  rintro as a q es q' fs - ⟨hitems, hinv⟩ hstep
  refine ⟨?_, step_queueInv hinv hstep⟩
  calc acceptedItems (es ++ fs)
      = returnedItems es ++ (q.queue ++ acceptedItems fs) := by
        rw [acceptedItems_append, hitems, List.append_assoc]
    _ = returnedItems es ++ (returnedItems fs ++ q'.queue) := by rw [step_items hstep]
    _ = returnedItems (es ++ fs) ++ q'.queue := by
        rw [returnedItems_append, List.append_assoc]

/-- **No lost item, no lost wakeup.** In every state that threads can bring a
new queue to: the items accepted are the items returned, in order, and those
queued; `pop` gives up only when the queue is stopped and empty; behind `stop`
nobody sleeps; and before it, while somebody sleeps, there are not more items
than woken threads (each counted once) that have yet to look. -/
theorem queue_sound (as : List (QueueAction α ι))
    (hrun : (queueMachine α ι).run {} as = some (q, es)) :
    acceptedItems es = returnedItems es ++ q.queue
      ∧ (∀ a q' fs t, (queueMachine α ι).step q a = some (q', fs) → .gaveUp t ∈ fs →
          q.isRunning = false ∧ q.queue = [] ∧ q'.isRunning = false ∧ q'.queue = [])
      ∧ (q.isRunning = false → q.asleep = [])
      ∧ (q.isRunning = true → q.asleep ≠ [] → q.queue.length ≤ q.woken.length)
      ∧ (q.asleep ++ q.woken).Nodup
      ∧ (q.queue ≠ [] → q.asleep ≠ [] → q.woken ≠ []) := by
  obtain ⟨hitems, hinv⟩ := run_queue hrun
  refine ⟨hitems, fun a q' fs t hstep hgave => step_gaveUp hstep hgave, hinv.stopped,
    fun _ => hinv.covered, hinv.nodup, fun hqueue hsleeps hwoken => ?_⟩
  have hcovered := hinv.covered hsleeps
  rw [hwoken, List.length_nil] at hcovered
  exact hqueue (List.length_eq_zero_iff.mp (Nat.le_zero.mp hcovered))

/-- Consumers 1 and 2 sleep; the item that 1 is woken for goes to 3, who comes
later. Two items are queued again when `stop` comes. -/
def lateConsumer : List (QueueAction Nat Nat) :=
  [.pop 1, .pop 2, .push 0 10 (some 1), .pop 3, .pop 1, .wake 2, .push 0 11 (some 1),
    .push 4 12 none, .stop 0, .pop 2, .push 0 13 none]

theorem queue_sound_lateConsumer : ∃ q es, (queueMachine Nat Nat).run {} lateConsumer = some (q, es)
    ∧ acceptedItems es = [10, 11, 12] ∧ returnedItems es = [10, 11] ∧ q.queue = [12]
    ∧ (q.isRunning = false → q.asleep = []) :=
  ⟨_, _, rfl, by decide, by decide, by decide, (queue_sound lateConsumer rfl).2.2.1⟩

/-! ## Serving -/

/-- A woken thread goes on: it returns with the front item, if there is one,
or it is out of the way, asleep again or, behind `stop`, gone. -/
theorem pop_woken {t : ι} (hinv : QueueInv q) (ht : t ∈ q.woken) :
    ∃ q₁ fs, (queueMachine α ι).step q (.pop t) = some (q₁, fs)
      ∧ q₁.woken = q.woken.erase t ∧ q₁.isRunning = q.isRunning ∧ acceptedItems fs = []
      ∧ (returnedItems fs).length = min 1 q.size := by
  have hawake : t ∉ q.asleep := fun hasleep =>
    (List.nodup_append.mp hinv.nodup).2.2 t hasleep t ht rfl
  rcases q.pop_cases t with ⟨item, rest, hqueue, hpop⟩ | ⟨hqueue, hrun, hpop⟩ | ⟨hqueue, hrun, hpop⟩
  · have hstep : (queueMachine α ι).step q (.pop t)
        = some ({ q with woken := q.woken.erase t, queue := rest }, [.returned t item]) := by
      show (if t ∈ q.asleep then none else _) = _
      rw [if_neg hawake, hpop]
    refine ⟨_, _, hstep, rfl, rfl, rfl, ?_⟩
    rw [ThreadSafeQueue.size, hqueue, List.length_cons, Nat.min_eq_left (by omega)]
    rfl
  · have hstep : (queueMachine α ι).step q (.pop t)
        = some ({ q with woken := q.woken.erase t, asleep := t :: q.asleep }, []) := by
      show (if t ∈ q.asleep then none else _) = _
      rw [if_neg hawake, hpop]
    refine ⟨_, _, hstep, rfl, rfl, rfl, ?_⟩
    rw [ThreadSafeQueue.size, hqueue]
    rfl
  · have hstep : (queueMachine α ι).step q (.pop t)
        = some ({ q with woken := q.woken.erase t }, [.gaveUp t]) := by
      show (if t ∈ q.asleep then none else _) = _
      rw [if_neg hawake, hpop]
    refine ⟨_, _, hstep, rfl, rfl, rfl, ?_⟩
    rw [ThreadSafeQueue.size, hqueue]
    rfl

/-- Each woken thread has its turn, in any order. -/
theorem run_woken {ts : List ι} (hinv : QueueInv q) (hts : ts.Perm q.woken) :
    ∃ q' fs, (queueMachine α ι).run q (ts.map .pop) = some (q', fs) ∧ QueueInv q'
      ∧ q'.woken = [] ∧ q'.isRunning = q.isRunning ∧ returnedItems fs ++ q'.queue = q.queue
      ∧ (returnedItems fs).length = min ts.length q.size := by
  induction ts generalizing q with
  | nil =>
    refine ⟨q, [], rfl, hinv, List.nil_perm.mp hts, rfl, rfl, ?_⟩
    rw [List.length_nil, Nat.zero_min]
    rfl
  | cons t ts ih =>
    have ht : t ∈ q.woken := hts.subset (List.mem_cons_self ..)
    obtain ⟨q₁, fs₁, hstep, hwoken, hrunning, haccepted, hserved⟩ := pop_woken hinv ht
    have hitems : q.queue ++ acceptedItems fs₁ = returnedItems fs₁ ++ q₁.queue 
        := step_items (a := .pop t) hstep
    rw [haccepted, List.append_nil] at hitems
    have hrest : ts.Perm q₁.woken := by
      rw [hwoken]
      exact List.Perm.cons_inv (hts.trans (List.perm_cons_erase ht))
    obtain ⟨q', fs, hrun, hinv', hnone, hrunning', hreturned, hlength⟩ :=
      ih (step_queueInv (a := .pop t) hinv hstep) hrest
    refine ⟨q', fs₁ ++ fs, (queueMachine α ι).run_cons hstep hrun, hinv', hnone,
      hrunning'.trans hrunning, ?_, ?_⟩
    · rw [returnedItems_append, List.append_assoc, hreturned, ← hitems]
    · have hsize : q.size = (returnedItems fs₁).length + q₁.size := by
        rw [ThreadSafeQueue.size, hitems, List.length_append]
        rfl
      rw [returnedItems_append, List.length_append, hlength, List.length_cons]
      omega

/-- **Nobody waits beside an item.** Whatever the threads have done with a new
queue, no further call, notification or wakeup is needed: when each woken
thread has had one turn, in whatever order, the first items have gone out, one
to each of them as long as there are items; then whoever still waits waits for
an item, and behind `stop` nobody does. -/
theorem queue_serves (as : List (QueueAction α ι)) (ts : List ι)
    (hrun : (queueMachine α ι).run {} as = some (q, es)) (hts : ts.Perm q.woken) :
    ∃ q' fs, (queueMachine α ι).run q (ts.map .pop) = some (q', fs)
      ∧ returnedItems fs ++ q'.queue = q.queue
      ∧ (returnedItems fs).length = min q.woken.length q.size
      ∧ (∀ t, q'.Waits t → q'.empty = true ∧ q'.isRunning = true) := by
  obtain ⟨-, hinv⟩ := run_queue hrun
  obtain ⟨q', fs, hrun', hinv', hnone, -, hreturned, hlength⟩ := run_woken hinv hts
  rw [hts.length_eq] at hlength
  refine ⟨q', fs, hrun', hreturned, hlength, fun t ht => ?_⟩
  have hasleep : t ∈ q'.asleep := by
    rcases ht with ht | ht
    · exact ht
    · rw [hnone] at ht
      exact absurd ht List.not_mem_nil
  have hcovered := hinv'.covered (List.ne_nil_of_mem hasleep)
  rw [hnone, List.length_nil] at hcovered
  refine ⟨List.isEmpty_iff.mpr (List.length_eq_zero_iff.mp (Nat.le_zero.mp hcovered)), ?_⟩
  by_contra hstopped
  rw [hinv'.stopped (by simpa using hstopped)] at hasleep
  exact absurd hasleep List.not_mem_nil

/-- Consumers 1 and 2 have been woken for two items, and 3 comes first. -/
theorem queue_serves_three :
    ∃ q q' es fs, (queueMachine Nat Nat).run {} [.pop 1, .pop 2, .push 0 10 (some 1),
        .push 0 11 (some 2), .pop 3] = some (q, es)
      ∧ (queueMachine Nat Nat).run q [.pop 1, .pop 2] = some (q', fs)
      ∧ (returnedItems fs).length = 1 := by
  obtain ⟨q, es, hrun, hwoken, hsize⟩ : ∃ q es,
      (queueMachine Nat Nat).run {} [.pop 1, .pop 2, .push 0 10 (some 1), .push 0 11 (some 2),
          .pop 3] = some (q, es) ∧ q.woken = [2, 1] ∧ q.size = 1 :=
    ⟨_, _, rfl, rfl, rfl⟩
  obtain ⟨q', fs, hrun', -, hlength, -⟩ := queue_serves [.pop 1, .pop 2, .push 0 10 (some 1),
    .push 0 11 (some 2), .pop 3] [1, 2] hrun (by rw [hwoken]; decide)
  refine ⟨q, q', es, fs, hrun, hrun', ?_⟩
  rw [hlength, hwoken, hsize]
  rfl

end LogMetrics.TestApplication
