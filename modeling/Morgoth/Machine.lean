import Mathlib.Data.List.Infix

/-!
# Runs of a machine

Generic results about a deterministic machine whose events are not always
possible: `step s e` is `none` where `e` cannot happen in `s`.

* `run` takes a sequence of events; `run_invariant` carries a property that
  every step keeps to every state a run reaches, and `run_history` one that
  also speaks of the events so far;
* `Throughout` speaks about every state along a run, `EachStep` about every
  step it takes;
* `throughout_iff_eachStep`: where one step keeps a property exactly under a
  condition, a whole run keeps it exactly when each of its steps meets that
  condition; `throughout_iff_under`: the same among the steps of a kind.
-/

namespace Morgoth.Machine

universe u v
variable {σ : Type u} {ε : Type v}

section
variable (step : σ → ε → Option σ)

/-- The state after the events, or `none` if one of them cannot happen. -/
def run : σ → List ε → Option σ
  | s, [] => some s
  | s, e :: es => (step s e).bind fun u => run u es

/-- `I` holds of every state a prefix of the events reaches. -/
def Throughout (I : σ → Prop) (s : σ) (es : List ε) : Prop :=
  ∀ pre t, pre <+: es → run step s pre = some t → I t

/-- `C` holds of every step taken: of the state before it and its event. -/
def EachStep (C : σ → ε → Prop) (s : σ) (es : List ε) : Prop :=
  ∀ pre e t u, pre ++ [e] <+: es → run step s pre = some t → step t e = some u → C t e

end

variable {step : σ → ε → Option σ}

/-- A guarded step is taken only where its guard holds. -/
theorem some_of_ite {c : Prop} [Decidable c] {t u : σ} (h : (if c then some t else none) = some u) :
    c ∧ u = t := by
  by_cases hc : c
  · rw [if_pos hc] at h
    exact ⟨hc, (Option.some.inj h).symm⟩
  · rw [if_neg hc] at h
    cases h

theorem run_cons (s : σ) (e : ε) (es : List ε) :
    run step s (e :: es) = (step s e).bind fun u => run step u es := rfl

theorem run_cons_of_step {s u : σ} {e : ε} (h : step s e = some u) (es : List ε) :
    run step s (e :: es) = run step u es := by
  rw [run_cons, h, Option.bind_some]

theorem run_append (s : σ) (xs ys : List ε) :
    run step s (xs ++ ys) = (run step s xs).bind fun u => run step u ys := by
  induction xs generalizing s with
  | nil => rfl
  | cons e es ih =>
    rw [List.cons_append, run_cons, run_cons]
    cases h : step s e with
    | none => rfl
    | some u => exact ih u

theorem run_snoc {s t : σ} {es : List ε} (h : run step s es = some t) (e : ε) :
    run step s (es ++ [e]) = step t e := by
  rw [run_append, h, Option.bind_some, run_cons]
  cases step t e <;> rfl

/-- The last step of a run is taken from where the events before it lead. -/
theorem run_last {s u : σ} {es : List ε} {e : ε} (h : run step s (es ++ [e]) = some u) :
    ∃ t, run step s es = some t ∧ step t e = some u := by
  cases ht : run step s es with
  | none =>
    rw [run_append, ht] at h
    cases h
  | some t => exact ⟨t, rfl, (run_snoc ht e).symm.trans h⟩

/-- What every step carries on, with the events so far at hand, holds at the
end of a run. -/
theorem run_history {P : List ε → σ → Prop}
    (kept : ∀ es s e u, P es s → step s e = some u → P (es ++ [e]) u) {s t : σ} {es : List ε}
    (hs : P [] s) (h : run step s es = some t) : P es t := by
  induction es using List.reverseRecOn generalizing t with
  | nil =>
    obtain rfl : s = t := Option.some.inj h
    exact hs
  | append_singleton es e ih =>
    obtain ⟨u, hu, ht⟩ := run_last h
    exact kept es u e t (ih hu) ht

/-- What every step keeps holds of every state a run reaches. -/
theorem run_invariant {P : σ → Prop} (kept : ∀ s e u, P s → step s e = some u → P u)
    {s t : σ} {es : List ε} (hs : P s) (h : run step s es = some t) : P t :=
  run_history (P := fun _ => P) (fun _ => kept) hs h

theorem throughout_nil {I : σ → Prop} {s : σ} : Throughout step I s [] ↔ I s := by
  constructor
  · exact fun h => h [] s List.prefix_rfl rfl
  · intro h pre t hp ht
    obtain rfl := List.prefix_nil.mp hp
    obtain rfl : s = t := Option.some.inj ht
    exact h

theorem throughout_cons {I : σ → Prop} {s : σ} {e : ε} {es : List ε} :
    Throughout step I s (e :: es) ↔
      I s ∧ ∀ u, step s e = some u → Throughout step I u es := by
  constructor
  · intro h
    refine ⟨h [] s List.nil_prefix rfl, fun u hu pre t hp ht => ?_⟩
    exact h (e :: pre) t (List.cons_prefix_cons.mpr ⟨rfl, hp⟩) (by rw [run_cons_of_step hu, ht])
  · rintro ⟨hs, hrest⟩ pre t hp ht
    cases pre with
    | nil =>
      obtain rfl : s = t := Option.some.inj ht
      exact hs
    | cons a pre =>
      obtain ⟨rfl, hpre⟩ := List.cons_prefix_cons.mp hp
      obtain ⟨u, hu, ht⟩ := Option.bind_eq_some_iff.mp ht
      exact hrest u hu pre t hpre ht

theorem eachStep_nil {C : σ → ε → Prop} {s : σ} : EachStep step C s [] := by
  intro pre e t u hp
  have := List.prefix_nil.mp hp
  simp at this

theorem eachStep_cons {C : σ → ε → Prop} {s : σ} {e : ε} {es : List ε} :
    EachStep step C s (e :: es) ↔
      ∀ u, step s e = some u → C s e ∧ EachStep step C u es := by
  constructor
  · intro h u hu
    refine ⟨h [] e s u ?_ rfl hu, fun pre a t w hp ht hw => ?_⟩
    · simp [List.cons_prefix_cons]
    · exact h (e :: pre) a t w (List.cons_prefix_cons.mpr ⟨rfl, hp⟩)
        (by rw [run_cons_of_step hu, ht]) hw
  · intro h pre a t w hp ht hw
    cases pre with
    | nil =>
      obtain ⟨rfl, -⟩ := List.cons_prefix_cons.mp hp
      obtain rfl : s = t := Option.some.inj ht
      exact (h w hw).1
    | cons b pre =>
      obtain ⟨rfl, hpre⟩ := List.cons_prefix_cons.mp hp
      obtain ⟨u, hu, ht⟩ := Option.bind_eq_some_iff.mp ht
      exact (h u hu).2 pre a t w hpre ht hw

theorem EachStep.append {C : σ → ε → Prop} {s : σ} {xs ys : List ε} (first : EachStep step C s xs)
    (rest : ∀ t, run step s xs = some t → EachStep step C t ys) : EachStep step C s (xs ++ ys) := by
  induction xs generalizing s with
  | nil => exact rest s rfl
  | cons e es ih =>
    rw [eachStep_cons] at first
    rw [List.cons_append, eachStep_cons]
    refine fun u hu => ⟨(first u hu).1, ih (first u hu).2 fun t reached => rest t ?_⟩
    rw [run_cons_of_step hu, reached]

theorem EachStep.imp {C D : σ → ε → Prop} {s : σ} {es : List ε} (each : ∀ t e, C t e → D t e)
    (hc : EachStep step C s es) : EachStep step D s es :=
  fun pre e t u hp ht hu => each t e (hc pre e t u hp ht hu)

theorem EachStep.and {C D : σ → ε → Prop} {s : σ} {es : List ε} (hc : EachStep step C s es)
    (hd : EachStep step D s es) : EachStep step (fun t e => C t e ∧ D t e) s es :=
  fun pre e t u hp ht hu => ⟨hc pre e t u hp ht hu, hd pre e t u hp ht hu⟩

/-- Two conditions that agree on the steps from every state with `A` are met by
the same runs. `A` is what every step keeps. -/
theorem eachStep_congr {A : σ → Prop} {C D : σ → ε → Prop}
    (kept : ∀ s e u, A s → step s e = some u → A u)
    (same : ∀ s e u, A s → step s e = some u → (C s e ↔ D s e)) {s : σ} (hs : A s)
    {es : List ε} : EachStep step C s es ↔ EachStep step D s es := by
  constructor
  · intro h pre e t u hp ht hu
    exact (same t e u (run_invariant kept hs ht) hu).mp (h pre e t u hp ht hu)
  · intro h pre e t u hp ht hu
    exact (same t e u (run_invariant kept hs ht) hu).mpr (h pre e t u hp ht hu)

/-- What every step under `C` keeps holds throughout a run whose steps all meet
`C`. -/
theorem EachStep.throughout {I : σ → Prop} {C : σ → ε → Prop}
    (kept : ∀ s e u, I s → C s e → step s e = some u → I u) {s : σ} (hs : I s) {es : List ε}
    (h : EachStep step C s es) : Throughout step I s es := by
  induction es generalizing s with
  | nil => exact throughout_nil.mpr hs
  | cons e es ih =>
    rw [eachStep_cons] at h
    rw [throughout_cons]
    refine ⟨hs, fun u hu => ?_⟩
    obtain ⟨now, later⟩ := h u hu
    exact ih (kept s e u hs now hu) later

/-- **Exact conditions lift to runs.** Where a step from a state with `I`
leads to a state with `I` exactly under `C`, a run keeps `I` exactly when each
of its steps meets `C`. `A` is what every step of the run keeps anyway. -/
theorem throughout_iff_eachStep {A I : σ → Prop} {C : σ → ε → Prop} {es : List ε}
    (aux : ∀ s, ∀ e ∈ es, ∀ u, A s → step s e = some u → A u)
    (exact_step : ∀ s, ∀ e ∈ es, ∀ u, A s → I s → step s e = some u → (I u ↔ C s e))
    {s : σ} (ha : A s) (hi : I s) : Throughout step I s es ↔ EachStep step C s es := by
  induction es generalizing s with
  | nil => exact ⟨fun _ => eachStep_nil, fun _ => throughout_nil.mpr hi⟩
  | cons e es ih =>
    have tail := @ih (fun s e' he => aux s e' (List.mem_cons_of_mem _ he))
      (fun s e' he => exact_step s e' (List.mem_cons_of_mem _ he))
    have ae := aux s e List.mem_cons_self
    have ce := exact_step s e List.mem_cons_self
    rw [throughout_cons, eachStep_cons]
    constructor
    · rintro ⟨-, h⟩ u hu
      have hiu : I u := h u hu [] u List.nil_prefix rfl
      exact ⟨(ce u ha hi hu).mp hiu, (tail (ae u ha hu) hiu).mp (h u hu)⟩
    · refine fun h => ⟨hi, fun u hu => ?_⟩
      have hiu : I u := (ce u ha hi hu).mpr (h u hu).1
      exact (tail (ae u ha hu) hiu).mpr (h u hu).2

/-- Two conditions that agree on the steps with `D`, which keep `A`, are met by the same
runs of such steps. -/
theorem eachStep_congr_under {A : σ → Prop} {C D P : σ → ε → Prop}
    (aux : ∀ s e u, A s → D s e → step s e = some u → A u)
    (same : ∀ s e u, A s → D s e → step s e = some u → (P s e ↔ C s e)) {s : σ} (ha : A s)
    {es : List ε} (allowed : EachStep step D s es) : EachStep step P s es ↔ EachStep step C s es := by
  have each pre e t u (before : pre ++ [e] <+: es) (reached : run step s pre = some t)
      (hu : step t e = some u) : P t e ↔ C t e := by
    have here : pre <+: es := (List.prefix_append pre [e]).trans before
    have carried := allowed.throughout aux ha pre t here reached
    exact same t e u carried (allowed pre e t u before reached hu) hu
  constructor
  · intro all pre e t u before reached hu
    exact (each pre e t u before reached hu).mp (all pre e t u before reached hu)
  · intro all pre e t u before reached hu
    exact (each pre e t u before reached hu).mpr (all pre e t u before reached hu)

/-- `throughout_iff_eachStep` among the steps with `D`, which keep `A`. Without `D`, the
conditions are enough only. -/
theorem throughout_iff_under {A I : σ → Prop} {C D : σ → ε → Prop}
    (aux : ∀ s e u, A s → D s e → step s e = some u → A u)
    (exact_step : ∀ s e u, A s → D s e → I s → step s e = some u → (I u ↔ C s e)) {s : σ}
    (ha : A s) (hi : I s) (es : List ε) :
    (EachStep step (fun s e => D s e ∧ C s e) s es → Throughout step I s es) ∧
    (EachStep step D s es → Throughout step I s es →
      EachStep step (fun s e => D s e ∧ C s e) s es) := by
  constructor
  · intro conditions
    have both := conditions.throughout (I := fun s => A s ∧ I s)
      (fun s e u now condition hu => ⟨aux s e u now.1 condition.1 hu,
        (exact_step s e u now.1 condition.1 now.2 hu).mpr condition.2⟩) ⟨ha, hi⟩
    exact fun pre t before reached => (both pre t before reached).2
  · intro allowed kept pre e t u before reached hu
    have here : pre <+: es := (List.prefix_append pre [e]).trans before
    have carried := allowed.throughout aux ha pre t here reached
    have now := allowed pre e t u before reached hu
    have later := kept (pre ++ [e]) u before ((run_snoc reached e).trans hu)
    exact ⟨now, (exact_step t e u carried now (kept pre t here reached) hu).mp later⟩

end Morgoth.Machine
