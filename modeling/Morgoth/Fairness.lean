import Mathlib.Order.WellFounded
import Morgoth.Machine

/-!
# Executions that go on for ever

* `Execution.invariant`, `Execution.persists`: what every step keeps, and what
  every step from some moment on keeps;
* `Fair.leaves`: what lasts only until something happens that is bound to
  happen does not last;
* `Fair.happens`: what can be done for as long as it has not been done is done;
* `Fair.delivers`: a queue that is served goes on to everything in it;
* `Execution.ceases`: what uses something up comes to an end.
-/

namespace Morgoth.Machine

universe u v
variable {σ : Type u} {ε : Type v} {step : σ → ε → Option σ}

/-- The states that infinitely many events lead through. -/
structure Execution (step : σ → ε → Option σ) where
  state : Nat → σ
  event : Nat → ε
  moves : ∀ n, step (state n) (event n) = some (state (n + 1))

namespace Execution

variable {x : Execution step}

theorem persists {P : Nat → Prop} {n : Nat} (kept : ∀ k, n ≤ k → P k → P (k + 1)) (start : P n)
    {k : Nat} (later : n ≤ k) : P k := by
  induction k, later using Nat.le_induction with
  | base => exact start
  | succ k later ih => exact kept k later ih

theorem invariant {P : σ → Prop} (kept : ∀ s e u, P s → step s e = some u → P u)
    (start : P (x.state 0)) (n : Nat) : P (x.state n) :=
  persists (P := fun n => P (x.state n)) (fun k _ hk => kept _ _ _ hk (x.moves k)) start
    (Nat.zero_le n)

/-- What remains possible is done some time. -/
def Fair (x : Execution step) (enabled : σ → Prop) (taken : ε → Prop) : Prop :=
  ∀ n, (∀ k, n ≤ k → enabled (x.state k)) → ∃ k, n ≤ k ∧ taken (x.event k)

/-- A state in which something can be done that puts an end to it does not last. -/
theorem Fair.leaves {enabled : σ → Prop} {taken : ε → Prop} (fair : x.Fair enabled taken)
    {P : σ → Prop} (able : ∀ k, P (x.state k) → enabled (x.state k))
    (ends : ∀ k, P (x.state k) → taken (x.event k) → ¬ P (x.state (k + 1))) (n : Nat) :
    ∃ k, n ≤ k ∧ ¬ P (x.state k) := by
  by_contra! lasts
  obtain ⟨k, later, done⟩ := fair n fun k later => able k (lasts k later)
  exact ends k (lasts k later) done (lasts (k + 1) (Nat.le_succ_of_le later))

/-- What stays possible until it is done is done. -/
theorem Fair.happens {enabled : σ → Prop} {taken : ε → Prop} (fair : x.Fair enabled taken)
    {P : Nat → Prop} (able : ∀ k, P k → enabled (x.state k))
    (kept : ∀ k, P k → ¬ taken (x.event k) → P (k + 1)) {n : Nat} (start : P n) :
    ∃ k, n ≤ k ∧ P k ∧ taken (x.event k) := by
  by_contra! never
  have lasts {k : Nat} (later : n ≤ k) : P k :=
    persists (P := P) (fun k later holds => kept k holds (never k later holds)) start later
  obtain ⟨k, later, done⟩ := fair n fun k later => able k (lasts later)
  exact never k later (lasts later) done

/-- A queue that grows at its end and is taken from at its front comes to all that is in it. -/
theorem Fair.delivers {enabled : σ → Prop} {taken : ε → Prop} (fair : x.Fair enabled taken)
    {α : Type*} {q : σ → List α} {n : Nat}
    (able : ∀ k, n ≤ k → q (x.state k) ≠ [] → enabled (x.state k))
    (grows : ∀ k, n ≤ k → ¬ taken (x.event k) → q (x.state k) <+: q (x.state (k + 1)))
    (front : ∀ k, n ≤ k → taken (x.event k) → ∃ a, q (x.state k) = a :: q (x.state (k + 1)))
    {k : Nat} (later : n ≤ k) {a : α} (sent : a ∈ q (x.state k)) :
    ∃ j, n ≤ j ∧ taken (x.event j) ∧ (q (x.state j)).head? = some a := by
  -- whatever its place is, it keeps it until something is taken
  have takes (i k : Nat) (later : n ≤ k) (place : (q (x.state k))[i]? = some a) :
      ∃ j, n ≤ j ∧ (q (x.state j))[i]? = some a ∧ taken (x.event j) := by
    let Waits (k : Nat) : Prop := n ≤ k ∧ (q (x.state k))[i]? = some a
    have ready (k : Nat) (waits : Waits k) : enabled (x.state k) := by
      refine able k waits.1 fun none_left => ?_
      have place := waits.2
      rw [none_left] at place
      cases place
    have stays (k : Nat) (waits : Waits k) (other : ¬ taken (x.event k)) : Waits (k + 1) := by
      obtain ⟨later, place⟩ := waits
      obtain ⟨new, longer⟩ := grows k later other
      obtain ⟨bound, -⟩ := List.getElem?_eq_some_iff.mp place
      exact ⟨Nat.le_succ_of_le later, by rw [← longer, List.getElem?_append_left bound, place]⟩
    obtain ⟨j, -, ⟨after, there⟩, happens⟩ := fair.happens ready stays ⟨later, place⟩
    exact ⟨j, after, there, happens⟩
  -- by induction on how many are before it
  obtain ⟨i, place⟩ := List.mem_iff_getElem?.mp sent
  clear sent
  induction i generalizing k with
  | zero =>
    obtain ⟨j, after, there, happens⟩ := takes 0 k later place
    exact ⟨j, after, happens, by rw [List.head?_eq_getElem?, there]⟩
  | succ i ih =>
    obtain ⟨j, after, there, happens⟩ := takes (i + 1) k later place
    obtain ⟨first, queue⟩ := front j after happens
    rw [queue, List.getElem?_cons_succ] at there
    exact ih (Nat.le_succ_of_le after) there

/-- What uses something up is not done for ever. -/
theorem ceases (x : Execution step) {f : σ → Nat} (done : ε → Prop)
    (fewer : ∀ k, f (x.state (k + 1)) ≤ f (x.state k))
    (less : ∀ k, done (x.event k) → f (x.state (k + 1)) < f (x.state k)) :
    ∃ n, ∀ k, n ≤ k → ¬ done (x.event k) := by
  let n := Function.argmin fun k => f (x.state k)
  have least (k : Nat) : f (x.state n) ≤ f (x.state k) := Function.argmin_le (fun k => f (x.state k)) k
  refine ⟨n, fun k later happens => ?_⟩
  have bounded : f (x.state k) ≤ f (x.state n) :=
    persists (P := fun k => f (x.state k) ≤ f (x.state n))
      (fun k _ before => Nat.le_trans (fewer k) before) (Nat.le_refl _) later
  have below := less k happens
  have above := least (k + 1)
  omega

end Execution

end Morgoth.Machine
