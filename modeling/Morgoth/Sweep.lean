import Mathlib.Data.List.Sigma

/-!
# Loops that end early

A loop over a list that an element can end: the elements it comes to, and when
it leaves out one that was wanted.
-/

namespace Morgoth

universe u

variable {α : Type u}

/-- The element that ends the loop is the last one it comes to. -/
def reached (ends : α → Bool) : List α → List α
  | [] => []
  | x :: rest => x :: if ends x then [] else reached ends rest

theorem reached_sublist {ends : α → Bool} (xs : List α) : (reached ends xs).Sublist xs := by
  induction xs with
  | nil => exact .slnil
  | cons x rest ih =>
    unfold reached
    split
    · exact (List.nil_sublist rest).cons_cons x
    · exact ih.cons_cons x

theorem reached_nodup {ends : α → Bool} {xs : List α} (distinct : xs.Nodup) :
    (reached ends xs).Nodup :=
  distinct.sublist (reached_sublist xs)

/-- Nothing before it ends the loop. -/
theorem mem_reached {ends : α → Bool} {xs : List α} {e : α} :
    e ∈ reached ends xs ↔ ∃ before after, xs = before ++ e :: after ∧
      ∀ b ∈ before, ends b = false := by
  constructor
  · intro mem
    induction xs with
    | nil => exact absurd mem List.not_mem_nil
    | cons x rest ih =>
      rcases List.mem_cons.1 mem with rfl | later
      · exact ⟨[], rest, rfl, fun _ none => absurd none List.not_mem_nil⟩
      · split at later
        case isTrue => exact absurd later List.not_mem_nil
        case isFalse goes =>
          obtain ⟨before, after, rfl, free⟩ := ih later
          refine ⟨x :: before, after, rfl, fun b mem => ?_⟩
          rcases List.mem_cons.1 mem with rfl | mem
          · exact Bool.eq_false_iff.2 goes
          · exact free b mem
  · rintro ⟨before, after, rfl, free⟩
    induction before with
    | nil => exact List.mem_cons_self
    | cons b before ih =>
      have goes := free b List.mem_cons_self
      have later := ih fun b mem => free b (List.mem_cons_of_mem _ mem)
      simp only [List.cons_append, reached, goes]
      exact List.mem_cons_of_mem _ later

/-- Two reasons to end a loop, one after the other. -/
theorem reached_reached {p q : α → Bool} (xs : List α) :
    reached p (reached q xs) = reached (fun x => p x || q x) xs := by
  induction xs with
  | nil => rfl
  | cons x rest ih =>
    cases byQ : q x <;> cases byP : p x <;> simp [reached, byQ, byP, ih]

/-- A loop comes to all that is wanted exactly where nothing wanted stands
behind an element that ends it. -/
theorem wanted_reached_iff {ends : α → Bool} {wants : α → Prop} {xs : List α}
    (distinct : xs.Nodup) :
    (∀ x ∈ xs, wants x → x ∈ reached ends xs) ↔
      xs.Pairwise fun x y => ends x = true → ¬ wants y := by
  induction xs with
  | nil => simp
  | cons x rest ih =>
    obtain ⟨new, distinct⟩ := List.nodup_cons.1 distinct
    rw [List.pairwise_cons, ← ih distinct]
    have others : ∀ y ∈ rest, y ≠ x := fun y mem same => new (same ▸ mem)
    cases last : ends x with
    | true =>
      have only : reached ends (x :: rest) = [x] := by simp [reached, last]
      rw [only]
      constructor
      · intro all
        have unwanted : ∀ y ∈ rest, ¬ wants y := fun y mem want =>
          others y mem (List.mem_singleton.1 (all y (List.mem_cons_of_mem _ mem) want))
        exact ⟨fun y mem _ => unwanted y mem, fun y mem want => absurd want (unwanted y mem)⟩
      · rintro ⟨unwanted, -⟩ y mem want
        rcases List.mem_cons.1 mem with rfl | mem
        · exact List.mem_singleton_self y
        · exact absurd want (unwanted y mem rfl)
    | false =>
      have on : reached ends (x :: rest) = x :: reached ends rest := by simp [reached, last]
      rw [on]
      constructor
      · intro all
        refine ⟨fun _ _ stops => absurd stops Bool.false_ne_true, fun y mem want => ?_⟩
        exact List.mem_of_ne_of_mem (others y mem) (all y (List.mem_cons_of_mem _ mem) want)
      · rintro ⟨-, all⟩ y mem want
        rcases List.mem_cons.1 mem with rfl | mem
        · exact List.mem_cons_self
        · exact List.mem_cons_of_mem _ (all y mem want)

/-- A loop whose body acts on some of the elements it comes to. -/
theorem wanted_acted_iff {ends acts : α → Bool} {wants : α → Prop} {xs : List α}
    (distinct : xs.Nodup) :
    (∀ x ∈ xs, wants x → x ∈ (reached ends xs).filter acts) ↔
      (∀ x ∈ xs, wants x → acts x = true) ∧
        xs.Pairwise fun x y => ends x = true → ¬ wants y := by
  rw [← wanted_reached_iff distinct]
  constructor
  · intro all
    exact ⟨fun x mem want => (List.mem_filter.1 (all x mem want)).2,
      fun x mem want => (List.mem_filter.1 (all x mem want)).1⟩
  · rintro ⟨acted, come⟩ x mem want
    exact List.mem_filter.2 ⟨come x mem want, acted x mem want⟩

/-- All that is wanted is done, as long as nothing done before it has failed. -/
def DoneUntil (fails : α → Bool) (wants : α → Prop) (xs done : List α) : Prop :=
  ∀ before e after, xs = before ++ e :: after →
    (∀ b ∈ before, b ∈ done → fails b = false) → wants e → e ∈ done

/-- It is enough to look at the elements up to the first one that is acted on
and fails. -/
theorem doneUntil_iff {acts fails : α → Bool} {wants : α → Prop} {xs done : List α}
    (acted : ∀ x ∈ done, acts x = true) (wanted : ∀ x, acts x = true → wants x) :
    DoneUntil fails wants xs done ↔
      ∀ e ∈ reached (fun x => acts x && fails x) xs, wants e → e ∈ done := by
  constructor
  · intro all e mem want
    obtain ⟨before, after, split, free⟩ := mem_reached.1 mem
    refine all before e after split (fun b mem made => ?_) want
    simpa [acted b made] using free b mem
  · intro all before e after split unfailed want
    refine all e (mem_reached.2 ⟨before, after, split, ?_⟩) want
    by_contra some
    -- the first element that fails is done, so it may not fail
    obtain ⟨b, first⟩ := Option.isSome_iff_exists.1
      (List.find?_isSome.2 (by simpa using some :
        ∃ b ∈ before, (acts b && fails b) = true))
    obtain ⟨failing, l, r, rfl, free⟩ := List.find?_eq_some_iff_append.1 first
    obtain ⟨acting, fail⟩ := Bool.and_eq_true_iff.1 failing
    have come : b ∈ reached (fun x => acts x && fails x) xs :=
      mem_reached.2 ⟨l, r ++ e :: after, by simp [split],
        fun x mem => by simpa only [Bool.not_eq_true'] using free x mem⟩
    have made := all b come (wanted b acting)
    have not : fails b = false := unfailed b (by simp) made
    rw [fail] at not
    cases not

theorem zipIdx_nodup (xs : List α) : xs.zipIdx.Nodup :=
  List.Nodup.of_map Prod.snd (List.nodup_zipIdx_map_snd xs)

end Morgoth
