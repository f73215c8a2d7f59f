import Mathlib.Data.Int.Order.Basic
import LogMetrics.MetricsApplication.MetricsCollector

/-!
# The last-hour window is exact

`update_messages_last_hour` only looks at the front of the deque and what it
pops is gone, so a count taken now depends on every prune before. Two facts
make it exact when the clock never goes back: the deque is the history of add
times less a prefix that is *already* out of the window (`run_retains`), and
that history is sorted, so popping while the front is old pops exactly what
is old (`Base.Retains.prune_eq_filter`). The boundary belongs to the window:
a message added exactly one hour ago counts.
-/

namespace LogMetrics.MetricsApplication

open LogMetrics.Base
open MetricsCollector

/-- The clock readings of the calls, in lock order. -/
def readings (calls : List CollectorCall) : List TimePoint :=
  calls.filterMap CollectorCall.reading?

theorem readings_snoc (calls : List CollectorCall) (call : CollectorCall) :
    readings (calls ++ [call]) = readings calls ++ call.reading?.toList := by
  cases call <;> simp [readings, CollectorCall.reading?]

/-- The add times are among the readings. -/
theorem addTimes_sublist (calls : List CollectorCall) :
    (addTimes calls).Sublist (readings calls) := by
  induction calls with
  | nil => exact List.Sublist.slnil
  | cons call calls ih =>
    cases call with
    | addMessage message level now => exact ih.cons_cons now
    | printStats now => exact ih.cons now
    | getStats now => exact ih.cons now
    | shouldPrintStats n => exact ih
    | hasStatsChangedSinceLastPrint => exact ih

/-- A prune keeps the deque a retained history at any later bound. -/
theorem updateMessagesLastHour_retains {hist : List TimePoint} {stats : MessageStats}
    {now : TimePoint} (h : Retains (now - oneHour) hist stats.messageTimestamps) :
    Retains (now - oneHour) hist (updateMessagesLastHour now stats).messageTimestamps :=
  h.prune

/-- One call keeps the deque a retained history, for every bound no earlier
than an hour before the readings so far. -/
theorem exec_retains {calls : List CollectorCall} {call : CollectorCall} {now : TimePoint}
    (hnow : ∀ t ∈ readings (calls ++ [call]), t ≤ now)
    (ih : ∀ now, (∀ t ∈ readings calls, t ≤ now) →
      Retains (now - oneHour) (addTimes calls) (runCalls calls).messageTimestamps)
    (hsorted : (readings (calls ++ [call])).Pairwise (· ≤ ·)) :
    Retains (now - oneHour) (addTimes (calls ++ [call]))
      (runCalls (calls ++ [call])).messageTimestamps := by
  rw [readings_snoc] at hnow hsorted
  have hpast : ∀ t ∈ readings calls, t ≤ now := fun t ht => hnow t (List.mem_append_left _ ht)
  -- a prune at `s` is a prune at a bound the readings before it already allow
  have hprune : ∀ s, (∀ t ∈ readings calls, t ≤ s) → s ≤ now →
      Retains (now - oneHour) (addTimes calls)
        (updateMessagesLastHour s (runCalls calls)).messageTimestamps := by
    intro s hs hle
    exact (updateMessagesLastHour_retains (ih s hs)).mono (Int.sub_le_sub_right hle _)
  have hlast := (List.pairwise_append.mp hsorted).2.2
  rw [addTimes_snoc, runCalls_snoc]
  cases call with
  | addMessage message level s => exact (ih now hpast).push s
  | printStats s =>
    show Retains _ (addTimes calls ++ []) (updateMessagesLastHour s (runCalls calls)).messageTimestamps
    rw [List.append_nil]
    exact hprune s (fun t ht => hlast t ht s (List.mem_singleton_self s)) (hnow s (by
      simp [CollectorCall.reading?]))
  | getStats s =>
    show Retains _ (addTimes calls ++ []) (updateMessagesLastHour s (runCalls calls)).messageTimestamps
    rw [List.append_nil]
    exact hprune s (fun t ht => hlast t ht s (List.mem_singleton_self s)) (hnow s (by
      simp [CollectorCall.reading?]))
  | shouldPrintStats n =>
    show Retains _ (addTimes calls ++ []) (runCalls calls).messageTimestamps
    rw [List.append_nil]
    exact ih now hpast
  | hasStatsChangedSinceLastPrint =>
    show Retains _ (addTimes calls ++ []) (runCalls calls).messageTimestamps
    rw [List.append_nil]
    exact ih now hpast

/-- After every run under a clock that never goes back, the deque is the
history of add times less times that are older than an hour at every instant
from now on. -/
theorem run_retains (calls : List CollectorCall)
    (hsorted : (readings calls).Pairwise (· ≤ ·)) :
    ∀ now, (∀ t ∈ readings calls, t ≤ now) →
      Retains (now - oneHour) (addTimes calls) (runCalls calls).messageTimestamps := by
  induction calls using List.reverseRecOn with
  | nil => exact fun now _ => Retains.refl (now - oneHour) []
  | append_singleton calls call ih =>
    intro now hnow
    have hsorted' := hsorted
    rw [readings_snoc] at hsorted'
    exact exec_retains hnow (ih (List.pairwise_append.mp hsorted').1) hsorted

/-- How many of the earlier messages are at most an hour old at `t`. -/
def addedInLastHour (calls : List CollectorCall) (t : TimePoint) : Nat :=
  ((addTimes calls).filter fun s => decide (t - oneHour ≤ s)).length

/-- The value `update_messages_last_hour` stores at `t`. -/
theorem updateMessagesLastHour_exact (calls : List CollectorCall) {t : TimePoint}
    (hsorted : (readings calls).Pairwise (· ≤ ·)) (ht : ∀ s ∈ readings calls, s ≤ t) :
    (updateMessagesLastHour t (runCalls calls)).messagesLastHour = addedInLastHour calls t := by
  have hret := run_retains calls hsorted t ht
  exact congrArg List.length (hret.prune_eq_filter (hsorted.sublist (addTimes_sublist calls)))

/-- **The last-hour window is exact.** In a run whose clock never goes back,
each `get_stats` and each `print_stats` taken at `t` reports the number of
earlier messages with `s ≥ t - 1h`; and the deque before the call is a
non-decreasing suffix of the add times that still has every time inside any
window from `t` on. -/
theorem run_last_hour (pre post : List CollectorCall) (call : CollectorCall) (t : TimePoint)
    (hsorted : (readings (pre ++ call :: post)).Pairwise (· ≤ ·))
    (hcall : call = .getStats t ∨ call = .printStats t) :
    (call = .getStats t →
        (getStats t (runCalls pre)).1.messagesLastHour = addedInLastHour pre t)
      ∧ (call = .printStats t →
        (printStats t (runCalls pre)).1.messagesLastHour = addedInLastHour pre t)
      ∧ (runCalls pre).messageTimestamps <:+ addTimes pre
      ∧ (runCalls pre).messageTimestamps.Pairwise (· ≤ ·)
      ∧ ∀ now, t ≤ now → ((addTimes pre).filter fun s => decide (now - oneHour ≤ s))
          <:+ (runCalls pre).messageTimestamps := by
  have hreading : call.reading? = some t := by
    rcases hcall with rfl | rfl <;> rfl
  have hsplit : readings (pre ++ call :: post) = readings pre ++ t :: readings post := by
    simp [readings, hreading]
  rw [hsplit] at hsorted
  obtain ⟨hpre, -, hle⟩ := List.pairwise_append.mp hsorted
  have ht : ∀ s ∈ readings pre, s ≤ t := fun s hs => hle s hs t (List.mem_cons_self ..)
  have htimes := hpre.sublist (addTimes_sublist pre)
  have hcount := updateMessagesLastHour_exact pre hpre ht
  have hret := run_retains pre hpre t ht
  refine ⟨fun _ => hcount, fun _ => hcount, hret.suffix, htimes.sublist hret.suffix.sublist, ?_⟩
  intro now hnow
  have hlater := (hret.mono (Int.sub_le_sub_right hnow oneHour)).prune_eq_filter htimes
  rw [← hlater]
  exact List.dropWhile_suffix _

/-- A message exactly one hour old still counts, one a nanosecond older does
not, after a prune between them. -/
theorem run_last_hour_boundary :
    (getStats (oneHour + 1) (runCalls [.addMessage [] .info 0, .addMessage [] .info 1,
      .printStats 2])).1.messagesLastHour = 1 :=
  (run_last_hour [.addMessage [] .info 0, .addMessage [] .info 1, .printStats 2] []
    (.getStats (oneHour + 1)) (oneHour + 1) (by decide) (.inl rfl)).1 rfl

end LogMetrics.MetricsApplication
