import Mathlib.Logic.Function.Basic
import LogMetrics.Base.Machine

/-!
# Linearizability by linearization points

An object shared by threads `ι` is described by what its calls do one at a
time (`apply`). A history records when a thread made a call and when it got
its reply. Operations `ops`, one after another, *linearize* a history
(`Linearizes`) when

* each reply is the one `apply` gives at its turn (`legal`);
* each thread has made the calls of its operations, in this order, and been
  given their replies, except perhaps the last one (`Fits`);
* at every instant of the history the operations up to some point of `ops`
  are those that had returned, and of the others only some that had been
  called (`instants`). So an operation that had returned before another was
  called comes before it (`Linearizes.before`).

The *atomic object* is the abstract machine on which this is evident: a call
waits, is carried out at one instant, and its reply waits for the thread
(`AtomicStep`). A machine whose steps are steps of the atomic object, seen
through an abstraction function, has only histories that linearize
(`linearizes_run`). What is left to do for a program is to name, for each
call, the step at which it takes effect.
-/

namespace LogMetrics.Base

universe u v w x

/-- What the threads see of an object. -/
inductive HistoryEvent (ι : Type u) (κ : Type v) (ρ : Type w) where
  | called (t : ι) (call : κ)
  | returned (t : ι) (reply : ρ)
  deriving DecidableEq, Repr

/-- One operation of a sequential history. -/
structure Op (ι : Type u) (κ : Type v) (ρ : Type w) where
  thread : ι
  call : κ
  reply : ρ
  deriving DecidableEq, Repr

variable {ι : Type u} {κ : Type v} {ρ : Type w} {σ : Type x} [DecidableEq ι]

/-- The calls a thread has made. -/
def callsOf (t : ι) (history : List (HistoryEvent ι κ ρ)) : List κ :=
  history.filterMap fun
    | .called u call => if u = t then some call else none
    | .returned _ _ => none

/-- The replies a thread has got. -/
def repliesOf (t : ι) (history : List (HistoryEvent ι κ ρ)) : List ρ :=
  history.filterMap fun
    | .called _ _ => none
    | .returned u reply => if u = t then some reply else none

/-- The operations of a thread. -/
def opsOf (t : ι) (ops : List (Op ι κ ρ)) : List (Op ι κ ρ) := ops.filter (·.thread = t)

/-- The object behind the operations. -/
def objectAfter (apply : κ → σ → ρ × σ) (s : σ) (ops : List (Op ι κ ρ)) : σ :=
  ops.foldl (fun s op => (apply op.call s).2) s

/-- Each reply is the one the object gives. -/
def Replays (apply : κ → σ → ρ × σ) (s : σ) (ops : List (Op ι κ ρ)) : Prop :=
  ∀ pre op post, ops = pre ++ op :: post → op.reply = (apply op.call (objectAfter apply s pre)).1

/-- The operations are those that have returned in the history, and some that
have been called. -/
def Fits (history : List (HistoryEvent ι κ ρ)) (ops : List (Op ι κ ρ)) : Prop :=
  ∀ t, repliesOf t history <+: (opsOf t ops).map Op.reply
    ∧ (opsOf t ops).map Op.call <+: callsOf t history

/-- The operations, in this order, explain the history. -/
structure Linearizes (apply : κ → σ → ρ × σ) (s : σ) (history : List (HistoryEvent ι κ ρ))
    (ops : List (Op ι κ ρ)) : Prop where
  legal : Replays apply s ops
  fits : Fits history ops
  instants : ∀ past, past <+: history → ∃ done, done <+: ops ∧ Fits past done

/-- Each operation has been called. -/
theorem Fits.called {history : List (HistoryEvent ι κ ρ)} {ops : List (Op ι κ ρ)}
    (h : Fits history ops) {op : Op ι κ ρ} (hop : op ∈ ops) :
    .called op.thread op.call ∈ history := by
  have hmine : op ∈ opsOf op.thread ops := List.mem_filter.mpr ⟨hop, by simp⟩
  have hcall := (h op.thread).2.subset (List.mem_map_of_mem hmine)
  obtain ⟨event, hevent, hthis⟩ := List.mem_filterMap.mp hcall
  cases event with
  | called u call =>
    by_cases hu : u = op.thread
    · subst hu
      simp only [if_pos, Option.some.injEq] at hthis
      rw [← hthis]
      exact hevent
    · exact absurd hthis (by simp [hu])
  | returned u reply => exact absurd hthis (by simp)

/-! ## Histories and operations one longer -/

section Snoc

variable (t : ι) (history : List (HistoryEvent ι κ ρ)) (ops : List (Op ι κ ρ))

@[simp] theorem callsOf_snoc_called (u : ι) (call : κ) :
    callsOf t (history ++ [.called u call])
      = callsOf t history ++ if u = t then [call] else [] := by
  by_cases h : u = t <;> simp [callsOf, h]

@[simp] theorem callsOf_snoc_returned (u : ι) (reply : ρ) :
    callsOf t (history ++ [.returned u reply]) = callsOf t history := by
  simp [callsOf]

@[simp] theorem repliesOf_snoc_called (u : ι) (call : κ) :
    repliesOf t (history ++ [.called u call]) = repliesOf t history := by
  simp [repliesOf]

@[simp] theorem repliesOf_snoc_returned (u : ι) (reply : ρ) :
    repliesOf t (history ++ [.returned u reply])
      = repliesOf t history ++ if u = t then [reply] else [] := by
  by_cases h : u = t <;> simp [repliesOf, h]

@[simp] theorem opsOf_snoc (op : Op ι κ ρ) :
    opsOf t (ops ++ [op]) = opsOf t ops ++ if op.thread = t then [op] else [] := by
  by_cases h : op.thread = t <;> simp [opsOf, h]

omit [DecidableEq ι] in
theorem objectAfter_snoc (apply : κ → σ → ρ × σ) (s : σ) (op : Op ι κ ρ) :
    objectAfter apply s (ops ++ [op]) = (apply op.call (objectAfter apply s ops)).2 := by
  simp [objectAfter]

end Snoc

omit [DecidableEq ι] in
theorem Replays.snoc {apply : κ → σ → ρ × σ} {s : σ} {ops : List (Op ι κ ρ)} {op : Op ι κ ρ}
    (h : Replays apply s ops) (hreply : op.reply = (apply op.call (objectAfter apply s ops)).1) :
    Replays apply s (ops ++ [op]) := by
  intro pre op' post hsplit
  rcases List.eq_nil_or_concat post with rfl | ⟨post', last, rfl⟩
  · obtain ⟨rfl, hop⟩ := List.append_inj' hsplit rfl
    obtain rfl := (List.cons.inj hop).1
    exact hreply
  · rw [List.concat_eq_append, ← List.cons_append, ← List.append_assoc] at hsplit
    exact h pre op' post' (List.append_inj' hsplit rfl).1

/-- **Real time.** At an instant at which the `n`-th operation of `t` had
returned and the `m`-th of `u` had not been called, the former comes first. -/
theorem Linearizes.before {apply : κ → σ → ρ × σ} {s : σ} {history : List (HistoryEvent ι κ ρ)}
    {ops : List (Op ι κ ρ)} (h : Linearizes apply s history ops)
    {past : List (HistoryEvent ι κ ρ)} (hpast : past <+: history) {t u : ι} {n : Nat}
    (hn : n < (repliesOf t past).length) {pre post : List (Op ι κ ρ)} {op : Op ι κ ρ}
    (hsplit : ops = pre ++ op :: post) (hu : op.thread = u)
    (hm : (callsOf u past).length ≤ (opsOf u pre).length) : n < (opsOf t pre).length := by
  obtain ⟨done, hdone, hfits⟩ := h.instants past hpast
  have hdone' : done <+: pre := by
    rcases List.prefix_or_prefix_of_prefix hdone
      (show pre ++ [op] <+: ops from ⟨post, by simp [hsplit]⟩) with hle | hge
    · rcases List.prefix_concat_iff.mp hle with heq | hle
      · -- then the `m`-th operation of `u` would have been called
        have hlen := (hfits u).2.length_le
        rw [heq] at hlen
        simp only [opsOf_snoc, hu, if_true, List.map_append, List.length_append, List.length_map,
          List.length_cons, List.length_nil] at hlen
        omega
      · exact hle
    · have hlen := (hfits u).2.length_le
      have hsub := (hge.filter (p := fun o : Op ι κ ρ => decide (o.thread = u))).length_le
      rw [show List.filter _ (pre ++ [op]) = opsOf u (pre ++ [op]) from rfl] at hsub
      rw [show List.filter _ done = opsOf u done from rfl] at hsub
      simp only [opsOf_snoc, hu, if_true, List.length_append, List.length_map, List.length_cons,
        List.length_nil] at hlen hsub
      omega
  have hreplies := (hfits t).1.length_le
  have hle : (opsOf t done).length ≤ (opsOf t pre).length := (hdone'.filter _).length_le
  rw [List.length_map] at hreplies
  omega

/-! ## The atomic object -/

/-- What a thread is waiting for. -/
inductive Status (κ : Type v) (ρ : Type w) where
  | idle
  | pending (call : κ)
  | committed (reply : ρ)
  deriving DecidableEq, Repr

namespace Status

/-- The call the object has still to carry out. -/
def awaited : Status κ ρ → List κ
  | .pending call => [call]
  | _ => []

/-- The reply the thread has still to get. -/
def owed : Status κ ρ → List ρ
  | .committed reply => [reply]
  | _ => []

end Status

/-- The object and what each thread waits for. -/
structure Atomic (ι : Type u) (κ : Type v) (ρ : Type w) (σ : Type x) where
  object : σ
  status : ι → Status κ ρ

/-- The steps of the atomic object; `stay` is for what a program does between
them. -/
inductive AtomicStep (apply : κ → σ → ρ × σ) (p : Atomic ι κ ρ σ) :
    List (HistoryEvent ι κ ρ) → Atomic ι κ ρ σ → Prop
  | stay : AtomicStep apply p [] p
  | call (t : ι) (call : κ) (hidle : p.status t = .idle) :
      AtomicStep apply p [.called t call]
        { p with status := Function.update p.status t (.pending call) }
  | commit (t : ι) (call : κ) (hpending : p.status t = .pending call) :
      AtomicStep apply p []
        ⟨(apply call p.object).2,
          Function.update p.status t (.committed (apply call p.object).1)⟩
  | reply (t : ι) (reply : ρ) (hcommitted : p.status t = .committed reply) :
      AtomicStep apply p [.returned t reply]
        { p with status := Function.update p.status t .idle }

/-- The operations carried out so far, in the order in which they were. -/
structure Tracked (apply : κ → σ → ρ × σ) (s : σ) (history : List (HistoryEvent ι κ ρ))
    (ops : List (Op ι κ ρ)) (p : Atomic ι κ ρ σ) : Prop where
  legal : Replays apply s ops
  object : p.object = objectAfter apply s ops
  calls : ∀ t, callsOf t history = (opsOf t ops).map Op.call ++ (p.status t).awaited
  replies : ∀ t, (opsOf t ops).map Op.reply = repliesOf t history ++ (p.status t).owed
  instants : ∀ past, past <+: history → ∃ done, done <+: ops ∧ Fits past done

variable {apply : κ → σ → ρ × σ} {s : σ} {history es : List (HistoryEvent ι κ ρ)}
  {ops : List (Op ι κ ρ)} {p q : Atomic ι κ ρ σ}

theorem Tracked.fits (h : Tracked apply s history ops p) : Fits history ops := by
  intro t
  rw [h.replies, h.calls]
  exact ⟨List.prefix_append _ _, List.prefix_append _ _⟩

theorem Tracked.linearizes (h : Tracked apply s history ops p) :
    Linearizes apply s history ops :=
  ⟨h.legal, h.fits, h.instants⟩

/-- A new event is an instant more. -/
theorem instants_snoc (h : ∀ past, past <+: history → ∃ done, done <+: ops ∧ Fits past done)
    {e : HistoryEvent ι κ ρ} (hfits : Fits (history ++ [e]) ops) :
    ∀ past, past <+: history ++ [e] → ∃ done, done <+: ops ∧ Fits past done := by
  intro past hpast
  rcases List.prefix_concat_iff.mp hpast with rfl | hpast
  · exact ⟨ops, List.prefix_refl _, hfits⟩
  · exact h past hpast

/-- **One step.** Only a commit carries out an operation. -/
theorem AtomicStep.tracked (h : Tracked apply s history ops p) (hstep : AtomicStep apply p es q) :
    ∃ more, Tracked apply s (history ++ es) (ops ++ more) q := by
  cases hstep with
  | stay => exact ⟨[], by simpa using h⟩
  | call t call hidle =>
    refine ⟨[], ?_⟩
    rw [List.append_nil]
    have hcalls : ∀ u, callsOf u (history ++ [.called t call]) = (opsOf u ops).map Op.call
        ++ (Function.update p.status t (.pending call) u).awaited := by
      intro u
      have hu := h.calls u
      by_cases hut : u = t
      · subst hut
        simp_all [Status.awaited]
      · simp [hu, Function.update_of_ne hut, Ne.symm hut]
    have hreplies : ∀ u, (opsOf u ops).map Op.reply = repliesOf u (history ++ [.called t call])
        ++ (Function.update p.status t (.pending call) u).owed := by
      intro u
      have hu := h.replies u
      by_cases hut : u = t
      · subst hut
        simp_all [Status.owed]
      · simp [hu, Function.update_of_ne hut]
    refine ⟨h.legal, h.object, hcalls, hreplies, instants_snoc h.instants fun u => ?_⟩
    rw [hcalls, hreplies]
    exact ⟨List.prefix_append _ _, List.prefix_append _ _⟩
  | commit t call hpending =>
    refine ⟨[⟨t, call, (apply call p.object).1⟩], ?_⟩
    rw [List.append_nil]
    refine ⟨h.legal.snoc (by rw [h.object]), ?_, ?_, ?_, ?_⟩
    · rw [objectAfter_snoc, ← h.object]
    · intro u
      have hu := h.calls u
      by_cases hut : u = t
      · subst hut
        simp_all [Status.awaited]
      · simp [hu, Function.update_of_ne hut, Ne.symm hut]
    · intro u
      have hu := h.replies u
      by_cases hut : u = t
      · subst hut
        simp_all [Status.owed]
      · simp [hu, Function.update_of_ne hut, Ne.symm hut]
    · intro past hpast
      obtain ⟨done, hdone, hfits⟩ := h.instants past hpast
      exact ⟨done, hdone.trans (List.prefix_append _ _), hfits⟩
  | reply t reply hcommitted =>
    refine ⟨[], ?_⟩
    rw [List.append_nil]
    have hcalls : ∀ u, callsOf u (history ++ [.returned t reply]) = (opsOf u ops).map Op.call
        ++ (Function.update p.status t .idle u).awaited := by
      intro u
      have hu := h.calls u
      by_cases hut : u = t
      · subst hut
        simp_all [Status.awaited]
      · simp [hu, Function.update_of_ne hut]
    have hreplies : ∀ u, (opsOf u ops).map Op.reply = repliesOf u (history ++ [.returned t reply])
        ++ (Function.update p.status t .idle u).owed := by
      intro u
      have hu := h.replies u
      by_cases hut : u = t
      · subst hut
        simp_all [Status.owed]
      · simp [hu, Function.update_of_ne hut, Ne.symm hut]
    refine ⟨h.legal, h.object, hcalls, hreplies, instants_snoc h.instants fun u => ?_⟩
    rw [hcalls, hreplies]
    exact ⟨List.prefix_append _ _, List.prefix_append _ _⟩

/-! ## Machines -/

/-- Seen through `abs`, and as long as `P` holds, the machine is an atomic
object. -/
structure Machine.Refines {τ : Type*} {α : Type*} (M : Machine τ α (HistoryEvent ι κ ρ))
    (apply : κ → σ → ρ × σ) (P : τ → Prop) (abs : τ → Atomic ι κ ρ σ) : Prop where
  keeps : ∀ {s a s' es}, P s → M.step s a = some (s', es) → P s'
  atomic : ∀ {s a s' es}, P s → M.step s a = some (s', es) → AtomicStep apply (abs s) es (abs s')

/-- **Every history linearizes**, by operations that lead to the object the
run ends with. -/
theorem Machine.Refines.linearizes_run {τ : Type*} {α : Type*}
    {M : Machine τ α (HistoryEvent ι κ ρ)} {P : τ → Prop} {abs : τ → Atomic ι κ ρ σ}
    (h : M.Refines apply P abs) {c c' : τ} {as : List α} (hP : P c)
    (hidle : ∀ t, (abs c).status t = .idle) (hrun : M.run c as = some (c', es)) :
    P c' ∧ ∃ ops, Linearizes apply (abs c).object es ops
      ∧ (abs c').object = objectAfter apply (abs c).object ops := by
  have htracked : P c' ∧ ∃ ops, Tracked apply (abs c).object es ops (abs c') := by
    refine M.run_induction
      (P := fun _ c' es => P c' ∧ ∃ ops, Tracked apply (abs c).object es ops (abs c')) ?_ ?_ hrun
    · refine ⟨hP, [], fun pre op post hnil => absurd hnil (by simp), rfl, ?_, ?_, ?_⟩
      · intro t
        rw [hidle]
        rfl
      · intro t
        rw [hidle]
        rfl
      · intro past hpast
        obtain rfl := List.prefix_nil.mp hpast
        exact ⟨[], List.prefix_refl _, fun t => ⟨List.prefix_refl _, List.prefix_refl _⟩⟩
    · intro as a s es s' es' _ hs hstep
      obtain ⟨hs, ops, htracked⟩ := hs
      obtain ⟨more, hmore⟩ := (h.atomic hs hstep).tracked htracked
      exact ⟨h.keeps hs hstep, _, hmore⟩
  obtain ⟨hP', ops, htracked⟩ := htracked
  exact ⟨hP', ops, htracked.linearizes, htracked.object⟩

end LogMetrics.Base
