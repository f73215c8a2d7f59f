import Mathlib.Data.List.Induction

/-!
# Guarded machines with observable events

A concurrent program is modelled here as a *guarded, executable* step
function: `step s a` is `some (s', es)` when action `a` is enabled in state
`s`, takes the machine to `s'` and makes the events `es` observable (a line
printed, a byte sent, a call made); it is `none` when `a` is disabled. An
action names the thread that moves, so a list of actions is a schedule, and a
law "for every interleaving" is a law for every list of actions.

Three facts carry every proof about a machine:

* `run_snoc_inv`: a run is a shorter run and one step;
* `run_induction`: a relation between schedule, state and trace that survives
  every step holds after every run;
* `StepsMeet`: the runs *all of whose steps* meet a condition on the state
  before the step, with its two projections, so that a law that holds only
  under a scheduling condition is the same induction with one more premise.
-/

namespace LogMetrics.Base

universe u v w

/-- A guarded step function with observable events. -/
structure Machine (σ : Type u) (α : Type v) (ε : Type w) where
  step : σ → α → Option (σ × List ε)

namespace Machine

variable {σ : Type u} {α : Type v} {ε : Type w} (M : Machine σ α ε)

/-- Play a schedule from `s`: the state it ends in and the events of its
steps, in order. `none` if one of its actions is disabled when its turn
comes. -/
def run : σ → List α → Option (σ × List ε)
  | s, [] => some (s, [])
  | s, a :: as =>
    match M.step s a with
    | none => none
    | some (s₁, es₁) =>
      match run s₁ as with
      | none => none
      | some (s₂, es₂) => some (s₂, es₁ ++ es₂)

@[simp] theorem run_nil (s : σ) : M.run s [] = some (s, []) := rfl

/-- A run that starts with `a` is a step and the rest of the run. -/
theorem run_cons_inv {s s₂ : σ} {a : α} {as : List α} {es : List ε}
    (h : M.run s (a :: as) = some (s₂, es)) :
    ∃ s₁ es₁ es₂, M.step s a = some (s₁, es₁) ∧ M.run s₁ as = some (s₂, es₂)
      ∧ es = es₁ ++ es₂ := by
  simp only [run] at h
  split at h
  next => exact absurd h (by simp)
  next s₁ es₁ hstep =>
    split at h
    next => exact absurd h (by simp)
    next t es₂ hrun =>
      simp only [Option.some.injEq, Prod.mk.injEq] at h
      obtain ⟨rfl, rfl⟩ := h
      exact ⟨s₁, es₁, es₂, hstep, hrun, rfl⟩

theorem run_cons {s s₁ s₂ : σ} {a : α} {as : List α} {es₁ es₂ : List ε}
    (hstep : M.step s a = some (s₁, es₁)) (hrun : M.run s₁ as = some (s₂, es₂)) :
    M.run s (a :: as) = some (s₂, es₁ ++ es₂) := by
  simp only [run, hstep, hrun]

/-- Runs compose. -/
theorem run_append {s s₁ s₂ : σ} {as bs : List α} {es₁ es₂ : List ε}
    (h₁ : M.run s as = some (s₁, es₁)) (h₂ : M.run s₁ bs = some (s₂, es₂)) :
    M.run s (as ++ bs) = some (s₂, es₁ ++ es₂) := by
  induction as generalizing s es₁ with
  | nil =>
    simp only [run_nil, Option.some.injEq, Prod.mk.injEq] at h₁
    obtain ⟨rfl, rfl⟩ := h₁
    simpa using h₂
  | cons a as ih =>
    obtain ⟨t, fs₁, fs₂, hstep, hrun, rfl⟩ := M.run_cons_inv h₁
    rw [List.cons_append, List.append_assoc]
    exact M.run_cons hstep (ih hrun)

/-- A run over a concatenation passes through a state between its parts. -/
theorem run_append_inv {s s₂ : σ} {as bs : List α} {es : List ε}
    (h : M.run s (as ++ bs) = some (s₂, es)) :
    ∃ s₁ es₁ es₂, M.run s as = some (s₁, es₁) ∧ M.run s₁ bs = some (s₂, es₂)
      ∧ es = es₁ ++ es₂ := by
  induction as generalizing s es with
  | nil => exact ⟨s, [], es, rfl, h, rfl⟩
  | cons a as ih =>
    rw [List.cons_append] at h
    obtain ⟨t, fs₁, fs₂, hstep, hrun, rfl⟩ := M.run_cons_inv h
    obtain ⟨s₁, es₁, es₂, h₁, h₂, rfl⟩ := ih hrun
    exact ⟨s₁, fs₁ ++ es₁, es₂, M.run_cons hstep h₁, h₂, by rw [List.append_assoc]⟩

/-- A run is a shorter run and one last step. -/
theorem run_snoc_inv {s s₂ : σ} {a : α} {as : List α} {es : List ε}
    (h : M.run s (as ++ [a]) = some (s₂, es)) :
    ∃ s₁ es₁ es₂, M.run s as = some (s₁, es₁) ∧ M.step s₁ a = some (s₂, es₂)
      ∧ es = es₁ ++ es₂ := by
  obtain ⟨s₁, es₁, es₂, h₁, h₂, rfl⟩ := M.run_append_inv h
  obtain ⟨t, fs₁, fs₂, hstep, hrun, rfl⟩ := M.run_cons_inv h₂
  simp only [run_nil, Option.some.injEq, Prod.mk.injEq] at hrun
  obtain ⟨rfl, rfl⟩ := hrun
  exact ⟨s₁, es₁, fs₁, h₁, hstep, by rw [List.append_nil]⟩

/-- **Run induction.** A relation between the schedule played, the state
reached and the trace that holds at the start and survives each step of a run
holds after every run. The step premise also gives the run up to the step. -/
theorem run_induction {s₀ : σ} {P : List α → σ → List ε → Prop} (hnil : P [] s₀ [])
    (hsnoc : ∀ as a s es s' es', M.run s₀ as = some (s, es) → P as s es →
      M.step s a = some (s', es') → P (as ++ [a]) s' (es ++ es'))
    {as : List α} {s : σ} {es : List ε} (h : M.run s₀ as = some (s, es)) : P as s es := by
  induction as using List.reverseRecOn generalizing s es with
  | nil =>
    simp only [run_nil, Option.some.injEq, Prod.mk.injEq] at h
    obtain ⟨rfl, rfl⟩ := h
    exact hnil
  | append_singleton as a ih =>
    obtain ⟨s₁, es₁, es₂, hrun, hstep, rfl⟩ := M.run_snoc_inv h
    exact hsnoc as a s₁ es₁ s es₂ hrun (ih hrun) hstep

/-- A state predicate that every step preserves holds along every run. -/
theorem run_invariant {P : σ → Prop}
    (hstep : ∀ s a s' es, P s → M.step s a = some (s', es) → P s')
    {s₀ s : σ} {as : List α} {es : List ε} (h : M.run s₀ as = some (s, es)) (h₀ : P s₀) :
    P s :=
  M.run_induction (P := fun _ s _ => P s) h₀
    (fun _ a s _ s' es' _ hs hst => hstep s a s' es' hs hst) h

/-! ## Notes -/

section Notes

variable {β : Type*} (note : σ → α → List ε → List β)

/-- What `note` makes of each step of a run: of the state before it, the
action, and the events. -/
def notes : σ → List α → List β
  | _, [] => []
  | s, a :: as =>
    match M.step s a with
    | none => []
    | some (s', es) => note s a es ++ notes s' as

/-- A run with one more step has its note behind the others. -/
theorem notes_snoc {s s₁ s₂ : σ} {as : List α} {a : α} {es fs : List ε}
    (hrun : M.run s as = some (s₁, es)) (hstep : M.step s₁ a = some (s₂, fs)) :
    M.notes note s (as ++ [a]) = M.notes note s as ++ note s₁ a fs := by
  induction as generalizing s es with
  | nil =>
    simp only [run_nil, Option.some.injEq, Prod.mk.injEq] at hrun
    obtain ⟨rfl, rfl⟩ := hrun
    simp [notes, hstep]
  | cons b as ih =>
    obtain ⟨t, fs₁, fs₂, hfirst, hrest, rfl⟩ := M.run_cons_inv hrun
    rw [List.cons_append, notes, hfirst, notes, hfirst]
    show note s b fs₁ ++ M.notes note t (as ++ [a]) = note s b fs₁ ++ M.notes note t as ++ note s₁ a fs
    rw [ih hrest, List.append_assoc]

/-- What each step notes is what it takes away from `rest`: then the notes of
a run and the rest behind it are the rest before it. -/
theorem notes_append_rest {note : σ → α → List ε → List β} {P : σ → Prop} (rest : σ → List β)
    (hstep : ∀ s a s' es, P s → M.step s a = some (s', es) →
      P s' ∧ rest s = note s a es ++ rest s')
    {s s' : σ} {as : List α} {es : List ε} (hrun : M.run s as = some (s', es)) (hs : P s) :
    M.notes note s as ++ rest s' = rest s := by
  induction as generalizing s es with
  | nil =>
    simp only [run_nil, Option.some.injEq, Prod.mk.injEq] at hrun
    obtain ⟨rfl, -⟩ := hrun
    rfl
  | cons a as ih =>
    obtain ⟨t, fs₁, fs₂, hfirst, hrest, rfl⟩ := M.run_cons_inv hrun
    obtain ⟨ht, htaken⟩ := hstep s a t fs₁ hs hfirst
    rw [notes, hfirst, htaken, ← ih hrest ht]
    exact List.append_assoc _ _ _

end Notes

/-! ## Reachability -/

/-- Some schedule leads from `s` to `s'`. -/
def Reaches (s s' : σ) : Prop := ∃ as es, M.run s as = some (s', es)

theorem Reaches.refl (s : σ) : M.Reaches s s := ⟨[], [], rfl⟩

theorem Reaches.step {s s' : σ} (a : α) (es : List ε) (h : M.step s a = some (s', es)) :
    M.Reaches s s' := ⟨[a], es ++ [], M.run_cons h rfl⟩

theorem Reaches.trans {s s' s'' : σ} (h : M.Reaches s s') (h' : M.Reaches s' s'') :
    M.Reaches s s'' := by
  obtain ⟨as, es, hrun⟩ := h
  obtain ⟨bs, fs, hrun'⟩ := h'
  exact ⟨as ++ bs, es ++ fs, M.run_append hrun hrun'⟩

/-! ## Runs whose steps meet a condition -/

/-- Every step of the schedule `as`, played from `s₀`, meets the condition
`C`, which speaks of the trace and the state before the step and of the
action about to be taken. -/
def StepsMeet (C : List ε → σ → α → Prop) (s₀ : σ) (as : List α) : Prop :=
  ∀ pre a post, as = pre ++ a :: post →
    ∀ s es, M.run s₀ pre = some (s, es) → C es s a

theorem StepsMeet.init {C : List ε → σ → α → Prop} {s₀ : σ} {as : List α} {a : α}
    (h : M.StepsMeet C s₀ (as ++ [a])) : M.StepsMeet C s₀ as := by
  intro pre b post hsplit s es hrun
  exact h pre b (post ++ [a]) (by rw [hsplit]; simp) s es hrun

theorem StepsMeet.last {C : List ε → σ → α → Prop} {s₀ s : σ} {as : List α} {a : α}
    {es : List ε} (h : M.StepsMeet C s₀ (as ++ [a])) (hrun : M.run s₀ as = some (s, es)) :
    C es s a :=
  h as a [] rfl s es hrun

theorem stepsMeet_nil (C : List ε → σ → α → Prop) (s₀ : σ) : M.StepsMeet C s₀ [] := by
  intro pre a post hsplit
  exact absurd hsplit (by simp)

theorem StepsMeet.snoc {C : List ε → σ → α → Prop} {s₀ s : σ} {as : List α} {a : α} {es : List ε}
    (h : M.StepsMeet C s₀ as) (hrun : M.run s₀ as = some (s, es)) (ha : C es s a) :
    M.StepsMeet C s₀ (as ++ [a]) := by
  intro pre b post hsplit s' es' hrun'
  rcases List.eq_nil_or_concat post with rfl | ⟨post, c, rfl⟩
  · obtain ⟨rfl, hlast⟩ := List.append_inj' hsplit rfl
    obtain ⟨rfl, -⟩ := List.cons.inj hlast
    rw [hrun] at hrun'
    cases hrun'
    exact ha
  · rw [List.concat_eq_append, ← List.cons_append, ← List.append_assoc] at hsplit
    obtain ⟨rfl, -⟩ := List.append_inj' hsplit rfl
    exact h pre b post rfl s' es' hrun'

/-- A run with a step that does not meet the condition has a first one. -/
theorem exists_first {C : List ε → σ → α → Prop} {s₀ s : σ} {as : List α} {es : List ε}
    (hrun : M.run s₀ as = some (s, es)) (h : ¬M.StepsMeet C s₀ as) :
    ∃ pre a post s₁ es₁ s₂ fs, as = pre ++ a :: post ∧ M.run s₀ pre = some (s₁, es₁)
      ∧ M.StepsMeet C s₀ pre ∧ ¬C es₁ s₁ a ∧ M.step s₁ a = some (s₂, fs) := by
  induction as using List.reverseRecOn generalizing s es with
  | nil => exact absurd (M.stepsMeet_nil C s₀) h
  | append_singleton as a ih =>
    obtain ⟨s₁, es₁, fs, hinit, hstep, -⟩ := M.run_snoc_inv hrun
    by_cases hmeet : M.StepsMeet C s₀ as
    · refine ⟨as, a, [], s₁, es₁, s, fs, rfl, hinit, hmeet, fun ha => ?_, hstep⟩
      exact h (hmeet.snoc M hinit ha)
    · obtain ⟨pre, b, post, s₂, es₂, s₃, gs, rfl, hpre⟩ := ih hinit hmeet
      exact ⟨pre, b, post ++ [a], s₂, es₂, s₃, gs, by simp, hpre⟩

/-- Play a schedule and test a decidable condition at each step. -/
def checkSteps (C : List ε → σ → α → Bool) : List ε → σ → List α → Bool
  | _, _, [] => true
  | es, s, a :: as =>
    C es s a &&
      match M.step s a with
      | none => true
      | some (s₁, es₁) => checkSteps C (es ++ es₁) s₁ as

theorem checkSteps_sound {C : List ε → σ → α → Bool} {as : List α} :
    ∀ {es₀ : List ε} {s₀ : σ}, M.checkSteps C es₀ s₀ as = true →
      M.StepsMeet (fun es s a => C (es₀ ++ es) s a = true) s₀ as := by
  induction as with
  | nil =>
    intro es₀ s₀ _ pre a post hsplit
    exact absurd hsplit (by simp)
  | cons b as ih =>
    intro es₀ s₀ h pre a post hsplit s es hrun
    rw [checkSteps, Bool.and_eq_true] at h
    cases pre with
    | nil =>
      obtain ⟨rfl, -⟩ := List.cons.inj hsplit
      cases hrun
      rw [List.append_nil]
      exact h.1
    | cons c pre =>
      obtain ⟨rfl, htail⟩ := List.cons.inj hsplit
      obtain ⟨s₁, es₁, es₂, hstep, hrest, rfl⟩ := M.run_cons_inv hrun
      have hcheck := h.2
      rw [hstep] at hcheck
      have hC : C (es₀ ++ es₁ ++ es₂) s a = true := ih hcheck pre a post htail s es₂ hrest
      rwa [List.append_assoc] at hC

theorem stepsMeet_of_checkSteps (C : List ε → σ → α → Bool) {s₀ : σ} {as : List α}
    (h : M.checkSteps C [] s₀ as = true) : M.StepsMeet (fun es s a => C es s a = true) s₀ as :=
  M.checkSteps_sound h

end Machine

end LogMetrics.Base
