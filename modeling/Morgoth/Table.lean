import Mathlib.Data.List.Basic
import Mathlib.Data.List.Nodup

/-!
# Tables with automatic ids

A table hands out ids in increasing order and never reuses one, so its rows in
id order are its rows in the order of their insertion. That is part of the
type; no operation has to re-prove it.
-/

namespace Morgoth

universe u v

/-- Rows with the ids they were given, and the next id. -/
structure Table (α : Type u) where
  rows : List (Nat × α)
  next : Nat
  sorted : rows.Pairwise fun a b => a.1 < b.1
  below : ∀ row ∈ rows, row.1 < next

namespace Table

variable {α : Type u}

def empty : Table α where
  rows := []
  next := 1
  sorted := List.Pairwise.nil
  below := by simp

def insert (t : Table α) (a : α) : Table α where
  rows := t.rows ++ [(t.next, a)]
  next := t.next + 1
  sorted := by
    apply List.pairwise_append.mpr
    refine ⟨t.sorted, List.pairwise_singleton _ _, ?_⟩
    intro row hr new hn
    rw [List.mem_singleton.mp hn]
    exact t.below row hr
  below := by
    intro row hr
    rcases List.mem_append.mp hr with old | new
    · exact Nat.lt_succ_of_lt (t.below row old)
    · rw [List.mem_singleton.mp new]
      exact Nat.lt_succ_self _

def insertAll (t : Table α) (as : List α) : Table α := as.foldl insert t

def deleteWhere (t : Table α) (p : Nat × α → Bool) : Table α where
  rows := t.rows.filter fun row => !p row
  next := t.next
  sorted := t.sorted.filter _
  below row hr := t.below row (List.mem_of_mem_filter hr)

/-- Every row keeps its id. -/
def update (t : Table α) (f : Nat × α → α) : Table α where
  rows := t.rows.map fun row => (row.1, f row)
  next := t.next
  sorted := List.pairwise_map.mpr t.sorted
  below := by
    intro row hr
    obtain ⟨old, ho, rfl⟩ := List.mem_map.mp hr
    exact t.below old ho

/-- Insertion under a unique key: a row that has the key goes first. -/
def replace {κ : Type v} [DecidableEq κ] (key : α → κ) (t : Table α) (a : α) : Table α :=
  (t.deleteWhere fun old => key old.2 == key a).insert a

@[simp] theorem empty_rows : (empty : Table α).rows = [] := rfl

@[simp] theorem insert_rows (t : Table α) (a : α) : (t.insert a).rows = t.rows ++ [(t.next, a)] :=
  rfl

@[simp] theorem insert_next (t : Table α) (a : α) : (t.insert a).next = t.next + 1 := rfl

@[simp] theorem deleteWhere_rows (t : Table α) (p : Nat × α → Bool) :
    (t.deleteWhere p).rows = t.rows.filter fun row => !p row := rfl

@[simp] theorem deleteWhere_next (t : Table α) (p : Nat × α → Bool) :
    (t.deleteWhere p).next = t.next := rfl

@[simp] theorem insertAll_nil (t : Table α) : t.insertAll [] = t := rfl

@[simp] theorem insertAll_cons (t : Table α) (a : α) (as : List α) :
    t.insertAll (a :: as) = (t.insert a).insertAll as := rfl

theorem insertAll_append (t : Table α) (as bs : List α) :
    t.insertAll (as ++ bs) = (t.insertAll as).insertAll bs := List.foldl_append

theorem insertAll_rows (t : Table α) (as : List α) :
    (t.insertAll as).rows = t.rows ++ (as.zipIdx t.next).map Prod.swap := by
  induction as generalizing t with
  | nil => simp
  | cons a as ih =>
    rw [insertAll_cons, ih]
    simp

/-- The contents of an insertion, without the ids. -/
theorem insertAll_contents (t : Table α) (as : List α) :
    (t.insertAll as).rows.map Prod.snd = t.rows.map Prod.snd ++ as := by
  induction as generalizing t with
  | nil => simp
  | cons a as ih =>
    rw [insertAll_cons, ih]
    simp

theorem mem_insertAll {t : Table α} {as : List α} {row : Nat × α}
    (hr : row ∈ (t.insertAll as).rows) : row ∈ t.rows ∨ t.next ≤ row.1 ∧ row.2 ∈ as := by
  induction as generalizing t with
  | nil => exact Or.inl hr
  | cons a as ih =>
    rcases ih hr with old | ⟨later, new⟩
    · rcases List.mem_append.mp old with old | first
      · exact Or.inl old
      · rw [List.mem_singleton.mp first]
        exact Or.inr ⟨Nat.le_refl _, List.mem_cons_self⟩
    · exact Or.inr ⟨Nat.le_of_succ_le later, List.mem_cons_of_mem _ new⟩

theorem ext_rows {s t : Table α} (rows : s.rows = t.rows) (next : s.next = t.next) : s = t := by
  cases s
  cases t
  obtain rfl : _ = _ := rows
  obtain rfl : _ = _ := next
  rfl

theorem deleteWhere_none (t : Table α) : t.deleteWhere (fun _ => false) = t := by
  apply ext_rows
  · simp
  · rfl

/-! ## Frames -/

/-- The rows that are not of the given kind are the same in both tables. -/
def SameBut (mine : Nat × α → Prop) (t u : Table α) : Prop :=
  ∀ row, ¬ mine row → (row ∈ u.rows ↔ row ∈ t.rows)

theorem SameBut.rfl {mine : Nat × α → Prop} {t : Table α} : SameBut mine t t :=
  fun _ _ => Iff.rfl

theorem SameBut.trans {mine : Nat × α → Prop} {t u w : Table α} (h : SameBut mine t u)
    (h' : SameBut mine u w) : SameBut mine t w :=
  fun row other => (h' row other).trans (h row other)

theorem sameBut_of_sublist (mine : Nat × α → Prop) {t u : Table α}
    (sublist : u.rows.Sublist t.rows) :
    SameBut mine t u ↔ ∀ row ∈ t.rows, row ∉ u.rows → mine row := by
  constructor
  · intro same row there gone
    by_contra other
    exact gone ((same row other).mpr there)
  · intro only row other
    constructor
    · exact fun there => sublist.subset there
    · intro there
      by_contra gone
      exact other (only row there gone)

theorem sameBut_deleteWhere (mine : Nat × α → Prop) (t : Table α) (p : Nat × α → Bool) :
    SameBut mine t (t.deleteWhere p) ↔ ∀ row ∈ t.rows, p row = true → mine row := by
  rw [sameBut_of_sublist mine List.filter_sublist]
  apply forall₂_congr
  intro row there
  simp [there]

/-- Every row of an insertion is there afterwards, and was not before. -/
theorem sameBut_insertAll (mine : α → Prop) (t : Table α) (as : List α) :
    SameBut (fun row => mine row.2) t (t.insertAll as) ↔ ∀ a ∈ as, mine a := by
  constructor
  · intro same a ha
    rw [← List.zipIdx_map_fst t.next as] at ha
    obtain ⟨⟨b, id⟩, numbered, rfl⟩ := List.mem_map.mp ha
    by_contra other
    have there : (id, b) ∈ (t.insertAll as).rows := by
      rw [insertAll_rows]
      exact List.mem_append_right _ (List.mem_map.mpr ⟨(b, id), numbered, rfl⟩)
    have below := t.below _ ((same (id, b) other).mp there)
    exact Nat.not_lt.mpr (List.le_snd_of_mem_zipIdx numbered) below
  · intro only row other
    constructor
    · intro there
      rcases mem_insertAll there with old | ⟨-, new⟩
      · exact old
      · exact absurd (only row.2 new) other
    · intro there
      rw [insertAll_rows]
      exact List.mem_append_left _ there

section Replace
variable {κ : Type v} [DecidableEq κ] {key : α → κ} {k : κ}

/-- A key that is there, or is brought, ends in a row with a late id. -/
theorem replaceAll_late {as : List α} {t : Table α} {next : Nat} (late : next ≤ t.next)
    (some_row : (∃ row ∈ t.rows, next ≤ row.1 ∧ key row.2 = k) ∨ ∃ a ∈ as, key a = k) :
    ∃ row ∈ (as.foldl (replace key) t).rows, next ≤ row.1 ∧ key row.2 = k := by
  induction as generalizing t with
  | nil =>
    rcases some_row with there | ⟨a, ha, -⟩
    · exact there
    · cases ha
  | cons a as ih =>
    apply ih (t := t.replace key a) (Nat.le_succ_of_le late)
    by_cases here : key a = k
    · exact Or.inl ⟨(t.next, a), List.mem_append_right _ List.mem_cons_self, late, here⟩
    · rcases some_row with ⟨row, hr, later, same⟩ | ⟨b, hb, same⟩
      · refine Or.inl ⟨row, List.mem_append_left _ (List.mem_filter.mpr ⟨hr, ?_⟩), later, same⟩
        have other : key row.2 ≠ key a := fun eq => here (eq.symm.trans same)
        simpa using other
      · rcases List.mem_cons.mp hb with rfl | hb
        · exact absurd same here
        · exact Or.inr ⟨b, hb, same⟩

theorem sameBut_replaceAll (key : α → κ) (k : κ) (t : Table α) (as : List α) :
    SameBut (fun row => key row.2 = k) t (as.foldl (replace key) t) ↔ ∀ a ∈ as, key a = k := by
  constructor
  · intro same a ha
    by_contra other
    have last : ∃ row ∈ (as.foldl (replace key) t).rows, t.next ≤ row.1 ∧ key row.2 = key a :=
      replaceAll_late (Nat.le_refl t.next) (Or.inr ⟨a, ha, rfl⟩)
    obtain ⟨row, hr, late, named⟩ := last
    have below := t.below row ((same row fun eq => other (named.symm.trans eq)).mp hr)
    exact Nat.not_lt.mpr late below
  · intro only
    induction as generalizing t with
    | nil => exact SameBut.rfl
    | cons a as ih =>
      have first : SameBut (fun row => key row.2 = k) t (t.replace key a) := by
        have deleted := (sameBut_deleteWhere (fun row => key row.2 = k) t
          fun old => key old.2 == key a).mpr fun row _ taken =>
            (beq_iff_eq.mp taken).trans (only a List.mem_cons_self)
        have inserted := (sameBut_insertAll (fun b => key b = k)
          (t.deleteWhere fun old => key old.2 == key a) [a]).mpr (by
            simpa using only a List.mem_cons_self)
        exact deleted.trans inserted
      exact first.trans (ih _ fun b hb => only b (List.mem_cons_of_mem _ hb))

end Replace

/-- Two selections of rows that differ in their contents differ in a row. -/
theorem map_filter_inj {β : Type v} {f : Nat × α → β} {l : List (Nat × α)}
    (distinct : (l.map f).Nodup) (p q : Nat × α → Bool) :
    (l.filter p).map f = (l.filter q).map f ↔ ∀ row ∈ l, p row = q row := by
  constructor
  · intro same
    have only {p q : Nat × α → Bool} (same : (l.filter p).map f = (l.filter q).map f)
        {row : Nat × α} (hr : row ∈ l) (hp : p row = true) : q row = true := by
      have there : f row ∈ (l.filter q).map f := by
        rw [← same]
        exact List.mem_map_of_mem (List.mem_filter.mpr ⟨hr, hp⟩)
      obtain ⟨row', hr', content⟩ := List.mem_map.mp there
      obtain ⟨listed, hq⟩ := List.mem_filter.mp hr'
      obtain rfl := List.inj_on_of_nodup_map distinct listed hr content
      exact hq
    intro row hr
    rw [Bool.eq_iff_iff]
    exact ⟨only same hr, only same.symm hr⟩
  · intro same
    rw [List.filter_congr same]

end Table

end Morgoth
