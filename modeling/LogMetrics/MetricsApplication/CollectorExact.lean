import Mathlib.Algebra.Order.BigOperators.Group.List
import Mathlib.Algebra.GroupWithZero.Nat
import Mathlib.Algebra.Order.Group.Nat
import Mathlib.Data.List.Perm.Basic
import LogMetrics.MetricsApplication.MetricsCollector

/-!
# The collector's statistics are exact

`Exact` states every field of `MessageStats` as a function of the list of
past calls: the counters as the number of messages added (modulo `2 ^ 64`,
where they wrap), the length figures as folds over their lengths, the printed
total as the number added up to the latest `print_stats`. One call preserves
it (`exec_exact`), so every run from a fresh collector has it (`run_exact`).

Below `2 ^ 64` messages and bytes nothing wraps and the figures are the ones
a reader expects (`figures_exact`): counts, sum, maximum, minimum, and the
change flag raised exactly by a message after the latest print. All of them
but the last two are functions of the *multiset* of messages
(`Exact.perm`).
-/

namespace LogMetrics.MetricsApplication

open LogMetrics.Logger (LogLevel levelToString)
open MetricsCollector

/-- The lengths of the messages added. -/
def addedLengths (calls : List CollectorCall) : List Nat :=
  (added calls).map fun m => m.1.length

/-- How many messages of level `l` were added. -/
def addedAt (l : LogLevel) (calls : List CollectorCall) : Nat :=
  (added calls).countP fun m => m.2 = l

/-- Every figure, as a function of the calls made. -/
structure Exact (calls : List CollectorCall) (stats : MessageStats) : Prop where
  total : stats.totalMessages = (added calls).length % sizeMod
  level : ∀ l, stats.messagesByLevel l = addedAt l calls % sizeMod
  sum : stats.totalLength = (addedLengths calls).sum % sizeMod
  min : stats.minLength = (addedLengths calls).foldl min sizeMax
  max : stats.maxLength = (addedLengths calls).foldl max 0
  average : stats.averageLength =
    if added calls = [] then 0.0
    else sizeToDouble stats.totalLength / sizeToDouble stats.totalMessages
  printed : stats.lastPrintedTotalMessages = (added (upToLastPrint calls)).length % sizeMod

theorem exact_nil : Exact [] {} := by
  constructor <;> first | rfl | intro l; rfl

/-- A call that neither adds nor prints leaves every figure as it was. -/
theorem Exact.of_figures_eq {calls : List CollectorCall} {call : CollectorCall}
    {stats stats' : MessageStats} (h : Exact calls stats) (hadd : call.added? = none)
    (hprint : call.isPrint = false) (htotal : stats'.totalMessages = stats.totalMessages)
    (hlevel : stats'.messagesByLevel = stats.messagesByLevel)
    (hsum : stats'.totalLength = stats.totalLength) (hmin : stats'.minLength = stats.minLength)
    (hmax : stats'.maxLength = stats.maxLength)
    (haverage : stats'.averageLength = stats.averageLength)
    (hprinted : stats'.lastPrintedTotalMessages = stats.lastPrintedTotalMessages) :
    Exact (calls ++ [call]) stats' := by
  have hadded : added (calls ++ [call]) = added calls := by
    rw [added_snoc, hadd]
    exact List.append_nil _
  have hupto : upToLastPrint (calls ++ [call]) = upToLastPrint calls :=
    List.rdropWhile_concat_pos _ _ _ (by simp [hprint])
  constructor
  · rw [htotal, hadded]; exact h.total
  · intro l
    rw [hlevel, addedAt, hadded]; exact h.level l
  · rw [hsum, addedLengths, hadded]; exact h.sum
  · rw [hmin, addedLengths, hadded]; exact h.min
  · rw [hmax, addedLengths, hadded]; exact h.max
  · rw [haverage, hadded, hsum, htotal]; exact h.average
  · rw [hprinted, hupto]; exact h.printed

theorem addMessage_exact {calls : List CollectorCall} {stats : MessageStats}
    (h : Exact calls stats) (message : Bytes) (level : LogLevel) (now : TimePoint) :
    Exact (calls ++ [.addMessage message level now]) (addMessage message level now stats) := by
  have hadded : added (calls ++ [.addMessage message level now])
      = added calls ++ [(message, level)] := added_snoc _ _
  have hlengths : addedLengths (calls ++ [.addMessage message level now])
      = addedLengths calls ++ [message.length] := by
    simp [addedLengths, hadded]
  constructor
  · show sizeAdd stats.totalMessages 1 = _
    rw [hadded, h.total, sizeAdd, Nat.mod_add_mod, List.length_append]
    rfl
  · intro l
    show (if l = level then sizeAdd (stats.messagesByLevel l) 1 else stats.messagesByLevel l) = _
    rw [addedAt, hadded, List.countP_append, h.level l]
    by_cases hl : l = level
    · subst hl
      rw [if_pos rfl, sizeAdd, Nat.mod_add_mod]
      simp [addedAt]
    · rw [if_neg hl]
      simp [addedAt, Ne.symm hl]
  · show sizeAdd stats.totalLength message.length = _
    rw [hlengths, h.sum, sizeAdd, Nat.mod_add_mod, List.sum_append]
    simp
  · show min stats.minLength message.length = _
    rw [hlengths, List.foldl_append, h.min]
    rfl
  · show max stats.maxLength message.length = _
    rw [hlengths, List.foldl_append, h.max]
    rfl
  · rw [hadded, if_neg (by simp)]
    rfl
  · have hupto : upToLastPrint (calls ++ [.addMessage message level now])
        = upToLastPrint calls := List.rdropWhile_concat_pos _ _ _ rfl
    rw [hupto]
    exact h.printed

theorem printStats_exact {calls : List CollectorCall} {stats : MessageStats}
    (h : Exact calls stats) (now : TimePoint) :
    Exact (calls ++ [.printStats now]) (printStats now stats).2 := by
  have hadded : added (calls ++ [.printStats now]) = added calls := by
    rw [added_snoc]
    exact List.append_nil _
  have hupto : upToLastPrint (calls ++ [.printStats now]) = calls ++ [.printStats now] :=
    List.rdropWhile_concat_neg _ _ _ (by simp [CollectorCall.isPrint])
  constructor
  · rw [hadded]; exact h.total
  · intro l
    rw [addedAt, hadded]; exact h.level l
  · rw [addedLengths, hadded]; exact h.sum
  · rw [addedLengths, hadded]; exact h.min
  · rw [addedLengths, hadded]; exact h.max
  · rw [hadded]; exact h.average
  · -- `last_printed_total_messages` takes the total of this moment
    rw [hupto, hadded]; exact h.total

/-- One call preserves exactness. -/
theorem exec_exact {calls : List CollectorCall} {stats : MessageStats} (h : Exact calls stats)
    (call : CollectorCall) : Exact (calls ++ [call]) (call.exec stats) := by
  cases call with
  | addMessage message level now => exact addMessage_exact h message level now
  | printStats now => exact printStats_exact h now
  | getStats now => exact h.of_figures_eq rfl rfl rfl rfl rfl rfl rfl rfl rfl
  | shouldPrintStats n => exact h.of_figures_eq rfl rfl rfl rfl rfl rfl rfl rfl rfl
  | hasStatsChangedSinceLastPrint => exact h.of_figures_eq rfl rfl rfl rfl rfl rfl rfl rfl rfl

/-- Every run of a fresh collector is exact. -/
theorem run_exact (calls : List CollectorCall) : Exact calls (runCalls calls) := by
  induction calls using List.reverseRecOn with
  | nil => exact exact_nil
  | append_singleton calls call ih =>
    rw [runCalls_snoc]
    exact exec_exact ih call

section Few

variable {calls : List CollectorCall} {stats : MessageStats}

/-- Below `2 ^ 64` messages no count has wrapped. -/
theorem Exact.total_eq (h : Exact calls stats) (hmessages : (added calls).length < sizeMod) :
    stats.totalMessages = (added calls).length := by
  rw [h.total, Nat.mod_eq_of_lt hmessages]

theorem Exact.level_eq (h : Exact calls stats) (hmessages : (added calls).length < sizeMod)
    (l : LogLevel) : stats.messagesByLevel l = addedAt l calls := by
  have hle : addedAt l calls ≤ (added calls).length := List.countP_le_length
  rw [h.level l, Nat.mod_eq_of_lt (by omega)]

end Few

/-! ## Reading the folds -/

/-- A minimum fold from an upper bound is the minimum, or the bound. -/
theorem foldl_min_eq {c : Nat} {xs : List Nat} (h : ∀ x ∈ xs, x ≤ c) :
    xs.foldl min c = xs.min?.getD c := by
  cases xs with
  | nil => rfl
  | cons x xs =>
    rw [List.min?_cons', List.foldl_cons, Nat.min_eq_right (h x (List.mem_cons_self ..))]
    rfl

theorem foldl_max_eq (xs : List Nat) : xs.foldl max 0 = xs.max?.getD 0 := by
  cases xs with
  | nil => rfl
  | cons x xs =>
    rw [List.max?_cons', List.foldl_cons, Nat.max_eq_right (Nat.zero_le x)]
    rfl

/-- Each message has one of the five levels. -/
theorem sum_countP_level (ms : List (Bytes × LogLevel)) :
    (LogLevel.all.map fun l => ms.countP fun m => m.2 = l).sum = ms.length := by
  induction ms with
  | nil => rfl
  | cons m ms ih =>
    obtain ⟨message, level⟩ := m
    simp only [LogLevel.all, List.map_cons, List.map_nil, List.sum_cons, List.sum_nil,
      List.countP_cons, List.length_cons] at ih ⊢
    cases level <;> simp <;> omega

/-! ## Order does not matter -/

/-- Two statistics with the same counts and length figures. -/
structure SameFigures (stats stats' : MessageStats) : Prop where
  total : stats.totalMessages = stats'.totalMessages
  level : stats.messagesByLevel = stats'.messagesByLevel
  sum : stats.totalLength = stats'.totalLength
  min : stats.minLength = stats'.minLength
  max : stats.maxLength = stats'.maxLength
  average : stats.averageLength = stats'.averageLength

/-- The figures are functions of the multiset of messages. -/
theorem Exact.perm {calls calls' : List CollectorCall} {stats stats' : MessageStats}
    (h : Exact calls stats) (h' : Exact calls' stats') (hperm : (added calls).Perm (added calls')) :
    SameFigures stats stats' := by
  have hlengths : (addedLengths calls).Perm (addedLengths calls') := hperm.map _
  have htotal : stats.totalMessages = stats'.totalMessages := by
    rw [h.total, h'.total, hperm.length_eq]
  have hsum : stats.totalLength = stats'.totalLength := by
    rw [h.sum, h'.sum, hlengths.sum_nat]
  refine ⟨htotal, ?_, hsum, ?_, ?_, ?_⟩
  · funext l
    rw [h.level l, h'.level l, addedAt, addedAt, hperm.countP_eq]
  · rw [h.min, h'.min, hlengths.foldl_eq]
  · rw [h.max, h'.max, hlengths.foldl_eq]
  · have hnil : added calls = [] ↔ added calls' = [] :=
      ⟨fun e => (e ▸ hperm.symm).eq_nil, fun e => (e ▸ hperm).eq_nil⟩
    rw [h.average, h'.average, htotal, hsum]
    by_cases e : added calls = []
    · rw [if_pos e, if_pos (hnil.mp e)]
    · rw [if_neg e, if_neg (fun e' => e (hnil.mpr e'))]

/-- The figures leave the collector as they are: `get_stats` returns them, and
`print_stats` reports the total, the count of each level that has any, and the
lengths when there is a message. -/
theorem figures_returned (calls : List CollectorCall) (now : TimePoint)
    (hmessages : (added calls).length < sizeMod) :
    SameFigures (getStats now (runCalls calls)).1 (runCalls calls)
      ∧ (printStats now (runCalls calls)).1.totalMessages = (added calls).length
      ∧ (printStats now (runCalls calls)).1.messagesByLevel
        = (LogLevel.all.filter fun l => addedAt l calls > 0).map
          (fun l => (levelToString l, addedAt l calls))
      ∧ (printStats now (runCalls calls)).1.lengths
        = if added calls = [] then none
          else some ((runCalls calls).minLength, (runCalls calls).maxLength,
            (runCalls calls).averageLength) := by
  have htotal := (run_exact calls).total_eq hmessages
  have hlevel := funext ((run_exact calls).level_eq hmessages)
  refine ⟨⟨rfl, rfl, rfl, rfl, rfl, rfl⟩, htotal, ?_, ?_⟩
  · show (LogLevel.all.filter fun l => (runCalls calls).messagesByLevel l > 0).map
      (fun l => (levelToString l, (runCalls calls).messagesByLevel l)) = _
    rw [hlevel]
  · show (if (runCalls calls).totalMessages > 0
      then some ((runCalls calls).minLength, (runCalls calls).maxLength,
        (runCalls calls).averageLength) else none) = _
    rw [htotal]
    by_cases hnone : added calls = []
    · rw [if_pos hnone, if_neg (by simp [hnone])]
    · rw [if_neg hnone, if_pos (List.length_pos_iff.mpr hnone)]

/-- **The statistics are exact over whole runs** of fewer than `2 ^ 64`
messages and bytes. -/
theorem figures_exact (calls : List CollectorCall) (hmessages : (added calls).length < sizeMod)
    (hbytes : (addedLengths calls).sum < sizeMod) :
    (runCalls calls).totalMessages = (added calls).length
      ∧ (∀ l, (runCalls calls).messagesByLevel l = addedAt l calls)
      ∧ (LogLevel.all.map (runCalls calls).messagesByLevel).sum = (runCalls calls).totalMessages
      ∧ (runCalls calls).totalLength = (addedLengths calls).sum
      ∧ (runCalls calls).maxLength = (addedLengths calls).max?.getD 0
      ∧ (runCalls calls).minLength = (addedLengths calls).min?.getD sizeMax
      ∧ (runCalls calls).lastPrintedTotalMessages = (added (upToLastPrint calls)).length
      ∧ (hasStatsChangedSinceLastPrint (runCalls calls) = true
          ↔ added (sinceLastPrint calls) ≠ [])
      ∧ (∀ calls', (added calls').Perm (added calls) →
          SameFigures (runCalls calls') (runCalls calls)) := by
  have h := run_exact calls
  have htotal := h.total_eq hmessages
  have hlevel := h.level_eq hmessages
  have hsplit := congrArg List.length (added_split calls)
  rw [List.length_append] at hsplit
  have hprinted : (runCalls calls).lastPrintedTotalMessages
      = (added (upToLastPrint calls)).length := by
    rw [h.printed, Nat.mod_eq_of_lt (by omega)]
  refine ⟨htotal, hlevel, ?_, ?_, ?_, ?_, hprinted, ?_, fun calls' hperm => ?_⟩
  · rw [htotal, funext hlevel]
    exact sum_countP_level (added calls)
  · rw [h.sum, Nat.mod_eq_of_lt hbytes]
  · rw [h.max, foldl_max_eq]
  · -- no single length exceeds the sum of all of them
    rw [h.min, foldl_min_eq]
    intro x hx
    have := List.single_le_sum (fun y _ => Nat.zero_le y) x hx
    exact Nat.le_sub_one_of_lt (Nat.lt_of_le_of_lt this hbytes)
  · rw [hasStatsChangedSinceLastPrint, htotal, hprinted, bne_iff_ne, ← List.length_pos_iff_ne_nil]
    omega
  · exact (run_exact calls').perm h hperm

theorem figures_exact_two :
    (runCalls [.addMessage (ascii "ab") .info 0, .printStats 1,
      .addMessage (ascii "abc") .error 2]).maxLength = 3 :=
  (figures_exact [.addMessage (ascii "ab") .info 0, .printStats 1,
    .addMessage (ascii "abc") .error 2] (by decide) (by decide)).2.2.2.2.1

end LogMetrics.MetricsApplication
