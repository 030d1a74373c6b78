import Mathlib.Data.List.Basic

/-!
# Objects that keep a journal of what they show

An object shows something and writes an entry for every change of it. Whoever
has read what it shows once, and then applies the entries in their order, is
to know what it shows ever after.

* `Follows.trans`: an object that is followed step by step is followed.
-/

namespace Morgoth

universe u v w

/-- `entries` are what the object has written so far, `hear` is what a follower does
with an entry. -/
structure Journal (σ : Type u) (ι : Type v) (ν : Type w) where
  entries : σ → List ι
  view : σ → ν
  hear : ν → ι → ν

namespace Journal

variable {σ : Type u} {ι : Type v} {ν : Type w} {j : Journal σ ι ν} {s t u : σ}

/-- What `u` shows is what its new entries make of what `s` shows. -/
def Follows (j : Journal σ ι ν) (s u : σ) : Prop :=
  ∃ new, j.entries u = j.entries s ++ new ∧ j.view u = new.foldl j.hear (j.view s)

theorem Follows.refl (s : σ) : j.Follows s s := ⟨[], (List.append_nil _).symm, rfl⟩

theorem Follows.trans (first : j.Follows s t) (second : j.Follows t u) : j.Follows s u := by
  obtain ⟨new, entries, view⟩ := first
  obtain ⟨new', entries', view'⟩ := second
  refine ⟨new ++ new', ?_, ?_⟩
  · rw [entries', entries, List.append_assoc]
  · rw [view', view, List.foldl_append]

end Journal

end Morgoth
