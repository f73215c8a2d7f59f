import LogMetrics.Base.Machine

/-!
# Machines that come to an end

A *rank* bounds the work a machine has left. A step of its own lowers it; a
step that is *free*, one the environment takes (a spurious wakeup, say), may
raise it by at most `c`. So the steps of its own in a run are bounded by the
rank at its start and what the environment grants along it
(`Ranked.bounded`). When moreover only a final state has no step of its own
to offer, a final state can be reached from everywhere without the
environment (`Ranked.reaches_final`): no schedule goes on forever, and none
gets stuck.

A machine need not come to an end to get something done: `LeadsTo` is the rule
for one that is in `P` and has at most as many turns of some thread to go to
`Q` as the rank says, whatever else is allowed in between.
-/

namespace LogMetrics.Base.Machine

universe u v w

variable {σ : Type u} {α : Type v} {ε : Type w}

/-- Under the invariant `P`, each step lowers the rank, or is free and raises
it by `c` at most. -/
structure Ranked (M : Machine σ α ε) (P : σ → Prop) (rank : σ → Nat) (free : α → Bool)
    (c : Nat) : Prop where
  keeps : ∀ {s a s' es}, P s → M.step s a = some (s', es) → P s'
  works : ∀ {s a s' es}, P s → M.step s a = some (s', es) → free a = false → rank s' < rank s
  grants : ∀ {s a s' es}, P s → M.step s a = some (s', es) → free a = true →
    rank s' ≤ rank s + c

namespace Ranked

variable {M : Machine σ α ε} {P : σ → Prop} {rank : σ → Nat} {free : α → Bool} {c : Nat}

/-- **A run does no more work than there is.** -/
theorem bounded (h : M.Ranked P rank free c) {s s' : σ} {as : List α} {es : List ε} (hs : P s)
    (hrun : M.run s as = some (s', es)) :
    rank s' + as.countP (fun a => !free a) ≤ rank s + c * as.countP free := by
  induction as generalizing s es with
  | nil =>
    simp only [run_nil, Option.some.injEq, Prod.mk.injEq] at hrun
    obtain ⟨rfl, -⟩ := hrun
    simp
  | cons a as ih =>
    obtain ⟨t, es₁, es₂, hstep, hrest, -⟩ := M.run_cons_inv hrun
    have hle := ih (h.keeps hs hstep) hrest
    by_cases ha : free a = true
    · have hgrant := h.grants hs hstep ha
      rw [List.countP_cons_of_neg (by simp [ha]), List.countP_cons_of_pos ha, Nat.mul_add]
      omega
    · replace ha : free a = false := Bool.eq_false_iff.mpr ha
      have hwork := h.works hs hstep ha
      rw [List.countP_cons_of_pos (by simp [ha]), List.countP_cons_of_neg (by simp [ha])]
      omega

/-- A machine that is stuck only in final states reaches one from everywhere,
by steps of its own. -/
theorem reaches_final (h : M.Ranked P rank free c) {Final : σ → Prop}
    (hprogress : ∀ s, P s → ¬Final s → ∃ a s' es, free a = false ∧ M.step s a = some (s', es)) :
    ∀ {s}, P s → ∃ s' as es, M.run s as = some (s', es) ∧ Final s' ∧ P s'
      ∧ as.countP free = 0 := by
  intro s hs
  induction hn : rank s using Nat.strongRecOn generalizing s with
  | ind n ih =>
    by_cases hfinal : Final s
    · exact ⟨s, [], [], rfl, hfinal, hs, rfl⟩
    · obtain ⟨a, t, es, ha, hstep⟩ := hprogress s hs hfinal
      have hlt := h.works hs hstep ha
      obtain ⟨s', as, fs, hrun, hfinal', hs', hfree⟩ :=
        ih (rank t) (by omega) (h.keeps hs hstep) rfl
      refine ⟨s', a :: as, _, M.run_cons hstep hrun, hfinal', hs', ?_⟩
      rw [List.countP_cons_of_neg (by simp [ha]), hfree]

end Ranked

/-- An allowed step out of `P` leads to `Q`, or stays in `P` and does not raise
the rank, and lowers it if the step is a turn. Out of `Q` no allowed step
leads. -/
structure LeadsTo (M : Machine σ α ε) (P Q : σ → Prop) (rank : σ → Nat)
    (allowed turn : α → Bool) : Prop where
  works : ∀ {s a s' es}, P s → M.step s a = some (s', es) → allowed a = true →
    P s' ∧ rank s' + (if turn a = true then 1 else 0) ≤ rank s ∨ Q s'
  stays : ∀ {s a s' es}, Q s → M.step s a = some (s', es) → allowed a = true → Q s'

namespace LeadsTo

variable {M : Machine σ α ε} {P Q : σ → Prop} {rank : σ → Nat} {allowed turn : α → Bool}

theorem run_stays (h : M.LeadsTo P Q rank allowed turn) {s s' : σ} {as : List α} {es : List ε}
    (hs : Q s) (hallowed : as.all allowed = true) (hrun : M.run s as = some (s', es)) : Q s' := by
  induction as generalizing s es with
  | nil =>
    simp only [run_nil, Option.some.injEq, Prod.mk.injEq] at hrun
    obtain ⟨rfl, -⟩ := hrun
    exact hs
  | cons a as ih =>
    obtain ⟨t, es₁, es₂, hstep, hrest, -⟩ := M.run_cons_inv hrun
    rw [List.all_cons, Bool.and_eq_true] at hallowed
    exact ih (h.stays hs hstep hallowed.1) hallowed.2 hrest

theorem run_works (h : M.LeadsTo P Q rank allowed turn) {s s' : σ} {as : List α} {es : List ε}
    (hs : P s) (hallowed : as.all allowed = true) (hrun : M.run s as = some (s', es)) :
    P s' ∧ rank s' + as.countP turn ≤ rank s ∨ Q s' := by
  induction as generalizing s es with
  | nil =>
    simp only [run_nil, Option.some.injEq, Prod.mk.injEq] at hrun
    obtain ⟨rfl, -⟩ := hrun
    exact .inl ⟨hs, Nat.le_refl _⟩
  | cons a as ih =>
    obtain ⟨t, es₁, es₂, hstep, hrest, -⟩ := M.run_cons_inv hrun
    rw [List.all_cons, Bool.and_eq_true] at hallowed
    rcases h.works hs hstep hallowed.1 with ⟨ht, hrank⟩ | ht
    · rcases ih ht hallowed.2 hrest with ⟨hs', hle⟩ | hs'
      · refine .inl ⟨hs', ?_⟩
        rw [List.countP_cons]
        omega
      · exact .inr hs'
    · exact .inr (h.run_stays ht hallowed.2 hrest)

/-- **Enough turns lead to `Q`.** -/
theorem reaches (h : M.LeadsTo P Q rank allowed turn) {s s' : σ} {as : List α} {es : List ε}
    (hs : P s) (hallowed : as.all allowed = true) (hturns : rank s < as.countP turn)
    (hrun : M.run s as = some (s', es)) : Q s' := by
  rcases h.run_works hs hallowed hrun with ⟨-, hle⟩ | hs'
  · omega
  · exact hs'

end LeadsTo

end LogMetrics.Base.Machine
