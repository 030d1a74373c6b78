/-!
# Scripts that are killed

A script changes a store in single statements. Each is executed as a whole or not
at all, and the next one is chosen by what the store holds. A script that is killed
has executed as many as there was time for.

* `always_exec`, `always_bind`: what holds whenever a script is killed;
* `run_bind`: what a script does that is made of two.
-/

namespace Morgoth

universe u v w

inductive Script (σ : Type u) (α : Type v)
  | done (result : α)
  | exec (statement : σ → σ) (rest : σ → Script σ α)

namespace Script

variable {σ : Type u} {α : Type v} {β : Type w}

def bind : Script σ α → (α → Script σ β) → Script σ β
  | done a, next => next a
  | exec statement rest, next => exec statement fun s => (rest s).bind next

/-- The store at the end, with the result. -/
def run : Script σ α → σ → σ × α
  | done a, s => (s, a)
  | exec statement rest, s => (rest (statement s)).run (statement s)

/-- The store after the first statements, or at the end. -/
def killed : Nat → Script σ α → σ → σ
  | n + 1, exec statement rest, s => (rest (statement s)).killed n (statement s)
  | _, _, s => s

/-- A property of the store, whenever the script is killed. -/
def Always (P : σ → Prop) (script : Script σ α) (s : σ) : Prop := ∀ n, P (script.killed n s)

@[simp] theorem killed_zero (script : Script σ α) (s : σ) : script.killed 0 s = s := by
  cases script <;> rfl

@[simp] theorem killed_done (n : Nat) (a : α) (s : σ) : (done a).killed n s = s := by
  cases n <;> rfl

theorem run_bind (script : Script σ α) (next : α → Script σ β) (s : σ) :
    (script.bind next).run s = (next (script.run s).2).run (script.run s).1 := by
  induction script generalizing s with
  | done a => rfl
  | exec statement rest ih => exact ih _ _

section
variable {P : σ → Prop} {s : σ}

@[simp] theorem always_done (a : α) : Always P (done a) s ↔ P s := by
  simp [Always]

theorem always_exec (statement : σ → σ) (rest : σ → Script σ α) :
    Always P (exec statement rest) s ↔ P s ∧ Always P (rest (statement s)) (statement s) := by
  constructor
  · intro all
    exact ⟨by simpa using all 0, fun n => all (n + 1)⟩
  · rintro ⟨now, later⟩ n
    cases n with
    | zero => simpa using now
    | succ n => exact later n

/-- The first script may be killed, or the second one after it. -/
theorem always_bind (script : Script σ α) (next : α → Script σ β) :
    Always P (script.bind next) s ↔
      Always P script s ∧ Always P (next (script.run s).2) (script.run s).1 := by
  induction script generalizing s with
  | done a =>
    rw [always_done]
    exact ⟨fun all => ⟨by simpa using all 0, all⟩, And.right⟩
  | exec statement rest ih =>
    unfold bind
    rw [always_exec, always_exec, ih, and_assoc]
    rfl

theorem Always.mono {Q : σ → Prop} {script : Script σ α} (all : Always P script s)
    (implies : ∀ s, P s → Q s) : Always Q script s := fun n => implies _ (all n)

/-- It holds at the end. -/
theorem Always.run {script : Script σ α} (all : Always P script s) : P (script.run s).1 := by
  induction script generalizing s with
  | done a => simpa [Script.run] using all 0
  | exec statement rest ih => exact ih _ ((always_exec statement rest).mp all).2

end

/-- One script after the other. -/
def all : List (Script σ Unit) → Script σ Unit
  | [] => done ()
  | script :: scripts => script.bind fun _ => all scripts

theorem run_all_append (xs ys : List (Script σ Unit)) (s : σ) :
    ((all (xs ++ ys)).run s).1 = ((all ys).run ((all xs).run s).1).1 := by
  induction xs generalizing s with
  | nil => rfl
  | cons script xs ih => simp only [List.cons_append, all, run_bind, ih]

end Script

end Morgoth
