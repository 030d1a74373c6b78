import Mathlib.Data.Option.Basic
import Mathlib.Logic.Function.Basic

/-!
# Registries

Objects under keys. An object gets a key only where the key is valid and nobody
has it, and registering it elsewhere has no effect; an object that goes away
gives up all its keys.
-/

namespace Morgoth

universe u v

abbrev Registry (κ : Type u) (ω : Type v) := κ → Option ω

namespace Registry

variable {κ : Type u} {ω : Type v} {r : Registry κ ω}

def withdraw (gone : ω → Bool) (r : Registry κ ω) : Registry κ ω :=
  fun key => (r key).filter fun o => !gone o

theorem withdraw_some {gone : ω → Bool} {key : κ} {o : ω} :
    withdraw gone r key = some o ↔ r key = some o ∧ gone o = false := by
  unfold withdraw
  rw [Option.filter_eq_some_iff]
  simp

variable [DecidableEq κ] {valid : κ → Bool}

def register (valid : κ → Bool) (r : Registry κ ω) (new : κ × ω) : Registry κ ω :=
  if valid new.1 = true ∧ r new.1 = none then Function.update r new.1 (some new.2) else r

/-- One after the other. -/
def registerAll (valid : κ → Bool) (r : Registry κ ω) (new : List (κ × ω)) : Registry κ ω :=
  new.foldl (register valid) r

theorem register_some {new : κ × ω} {key : κ} {o : ω} :
    register valid r new key = some o ↔
      r key = some o ∨ (r key = none ∧ valid key = true ∧ new = (key, o)) := by
  unfold register
  split
  case isTrue free =>
    rw [Function.update_apply]
    by_cases here : key = new.1
    · subst here
      simp [free, Prod.ext_iff]
    · rw [if_neg here]
      refine ⟨Or.inl, ?_⟩
      rintro (old | ⟨-, -, rfl⟩)
      · exact old
      · exact absurd rfl here
  case isFalse taken =>
    refine ⟨Or.inl, ?_⟩
    rintro (old | ⟨free, good, rfl⟩)
    · exact old
    · exact absurd ⟨good, free⟩ taken

/-- What is there stays. -/
theorem registerAll_keeps {new : List (κ × ω)} {key : κ} {o : ω} (there : r key = some o) :
    registerAll valid r new key = some o := by
  induction new generalizing r with
  | nil => exact there
  | cons x new ih => exact ih (register_some.mpr (Or.inl there))

theorem registerAll_some {new : List (κ × ω)} {key : κ} {o : ω}
    (there : registerAll valid r new key = some o) :
    r key = some o ∨ (r key = none ∧ valid key = true ∧ (key, o) ∈ new) := by
  induction new generalizing r with
  | nil => exact Or.inl there
  | cons x new ih =>
    rcases ih there with old | ⟨free, good, later⟩
    · rcases register_some.mp old with old | ⟨free, good, rfl⟩
      · exact Or.inl old
      · exact Or.inr ⟨free, good, List.mem_cons_self⟩
    · refine Or.inr ⟨?_, good, List.mem_cons_of_mem _ later⟩
      cases old : r key with
      | none => rfl
      | some o' =>
        rw [register_some.mpr (Or.inl old)] at free
        cases free

/-- An object that is new gets its first key exactly if the key is valid and
free. -/
theorem registerAll_first {key : κ} {o : ω} (new : List (κ × ω)) (fresh : r key ≠ some o) :
    registerAll valid r ((key, o) :: new) key = some o ↔ valid key = true ∧ r key = none := by
  constructor
  · intro there
    rcases registerAll_some there with old | ⟨free, good, -⟩
    · exact absurd old fresh
    · exact ⟨good, free⟩
  · rintro ⟨good, free⟩
    have first : register valid r (key, o) key = some o :=
      register_some.mpr (Or.inr ⟨free, good, rfl⟩)
    have all : registerAll valid (register valid r (key, o)) new key = some o :=
      registerAll_keeps first
    exact all

/-- Objects with valid keys that are free, each another, all get theirs. -/
theorem registerAll_free {new : List (κ × ω)} (distinct : (new.map Prod.fst).Nodup)
    (free : ∀ x ∈ new, valid x.1 = true ∧ r x.1 = none) {x : κ × ω} (listed : x ∈ new) :
    registerAll valid r new x.1 = some x.2 := by
  induction new generalizing r with
  | nil => cases listed
  | cons y new ih =>
    obtain ⟨apart, distinct⟩ := List.nodup_cons.mp distinct
    obtain ⟨good, unused⟩ := free y List.mem_cons_self
    rcases List.mem_cons.mp listed with rfl | later
    · have first : register valid r x x.1 = some x.2 :=
        register_some.mpr (Or.inr ⟨unused, good, rfl⟩)
      have all : registerAll valid (register valid r x) new x.1 = some x.2 :=
        registerAll_keeps first
      exact all
    · refine ih distinct (fun z there => ?_) later
      obtain ⟨good', unused'⟩ := free z (List.mem_cons_of_mem _ there)
      have other : z.1 ≠ y.1 := fun same => apart (same ▸ List.mem_map_of_mem there)
      refine ⟨good', ?_⟩
      rw [register, if_pos ⟨good, unused⟩, Function.update_of_ne other, unused']

end Registry

end Morgoth
