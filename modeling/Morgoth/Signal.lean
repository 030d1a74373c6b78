import Mathlib.Data.List.Basic
import Mathlib.Logic.Function.Iterate

/-!
# Signals with directly connected slots

A slot is what it does to the state. Emitting a signal runs its slots one
after the other, in the order in which they were connected; a slot may itself
emit other signals, and those are finished before it returns.

* `emit_keeps`, `emit_frame`: what every slot keeps, the emission keeps;
* `emit_establishes`: what every slot establishes holds after an emission that
  runs at least one of them;
* `emit_same`: one slot connected several times runs several times.
-/

namespace Morgoth.Signal

universe u v
variable {σ : Type u} {α : Type v}

/-- Run the slots in the order of their connection. -/
def emit (slots : List (σ → σ)) (s : σ) : σ :=
  slots.foldl (fun s slot => slot s) s

@[simp] theorem emit_nil (s : σ) : emit [] s = s := rfl

@[simp] theorem emit_cons (slot : σ → σ) (slots : List (σ → σ)) (s : σ) :
    emit (slot :: slots) s = emit slots (slot s) := rfl

theorem emit_append (xs ys : List (σ → σ)) (s : σ) :
    emit (xs ++ ys) s = emit ys (emit xs s) := by
  simp only [emit, List.foldl_append]

/-- What every slot keeps, the emission keeps. -/
theorem emit_keeps {P : σ → Prop} {slots : List (σ → σ)}
    (keeps : ∀ slot ∈ slots, ∀ s, P s → P (slot s)) {s : σ} (hs : P s) : P (emit slots s) := by
  induction slots generalizing s with
  | nil => exact hs
  | cons slot slots ih =>
    exact ih (fun slot' h => keeps slot' (List.mem_cons_of_mem _ h))
      (keeps slot List.mem_cons_self s hs)

/-- A part of the state that no slot writes is as before. -/
theorem emit_frame {f : σ → α} {slots : List (σ → σ)}
    (frame : ∀ slot ∈ slots, ∀ s, f (slot s) = f s) (s : σ) :
    f (emit slots s) = f s :=
  emit_keeps (P := fun t => f t = f s) (fun slot h t ht => (frame slot h t).trans ht) rfl

/-- What every slot establishes holds after at least one of them ran. -/
theorem emit_establishes {P : σ → Prop} {slots : List (σ → σ)}
    (sets : ∀ slot ∈ slots, ∀ s, P (slot s)) (ne : slots ≠ []) (s : σ) : P (emit slots s) := by
  cases slots with
  | nil => exact absurd rfl ne
  | cons slot slots =>
    exact emit_keeps (fun slot' h t _ => sets slot' (List.mem_cons_of_mem _ h) t)
      (sets slot List.mem_cons_self s)

theorem emit_same (slots : List α) (slot : σ → σ) (s : σ) :
    emit (slots.map fun _ => slot) s = slot^[slots.length] s := by
  induction slots generalizing s with
  | nil => rfl
  | cons _ slots ih => exact ih (slot s)

end Morgoth.Signal
