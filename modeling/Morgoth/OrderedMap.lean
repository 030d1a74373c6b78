import Mathlib.Data.List.Infix
import Mathlib.Data.List.Nodup

/-!
# Maps that keep their order

A finite map whose entries stand in the order in which their keys came in. A
key that is there is not added again, and one that is erased takes its place
with it.

* `lookup_add`, `lookup_erase`: what the two edits do to every key;
* `lookup_run_iff`: after any edits, what a key is mapped to is what the last
  edit that added it brought, if it has not been erased since.
-/

namespace Morgoth

universe u v

structure OrderedMap (κ : Type u) (ν : Type v) where
  entries : List (κ × ν)
  distinct : (entries.map Prod.fst).Nodup

namespace OrderedMap

variable {κ : Type u} {ν : Type v} {m : OrderedMap κ ν} {k l : κ} {v w : ν}

def empty : OrderedMap κ ν := ⟨[], List.nodup_nil⟩

def keys (m : OrderedMap κ ν) : List κ := m.entries.map Prod.fst

def values (m : OrderedMap κ ν) : List ν := m.entries.map Prod.snd

theorem ext_entries {m n : OrderedMap κ ν} (same : m.entries = n.entries) : m = n := by
  cases m
  cases n
  congr

theorem entry_unique (hv : (k, v) ∈ m.entries) (hw : (k, w) ∈ m.entries) : v = w :=
  congrArg Prod.snd (List.inj_on_of_nodup_map m.distinct hv hw rfl)

variable [DecidableEq κ]

def lookup (m : OrderedMap κ ν) (k : κ) : Option ν :=
  (m.entries.find? fun entry => entry.1 == k).map Prod.snd

def add (m : OrderedMap κ ν) (k : κ) (v : ν) : OrderedMap κ ν :=
  if new : k ∈ m.keys then m
  else ⟨m.entries ++ [(k, v)], by
    rw [List.map_append]
    exact m.distinct.append (List.nodup_singleton _) (by simpa [keys] using new)⟩

def erase (m : OrderedMap κ ν) (k : κ) : OrderedMap κ ν :=
  ⟨m.entries.filter fun entry => entry.1 != k,
    m.distinct.sublist (List.filter_sublist.map Prod.fst)⟩

theorem lookup_some : m.lookup k = some v ↔ (k, v) ∈ m.entries := by
  unfold lookup
  rw [Option.map_eq_some_iff]
  constructor
  · rintro ⟨⟨l, w⟩, found, rfl⟩
    obtain rfl : l = k := by simpa using List.find?_some found
    exact List.mem_of_find?_eq_some found
  · intro there
    cases found : m.entries.find? fun entry => entry.1 == k with
    | none =>
      have other := List.find?_eq_none.mp found (k, v) there
      simp at other
    | some entry =>
      obtain ⟨l, w⟩ := entry
      obtain rfl : l = k := by simpa using List.find?_some found
      exact ⟨_, rfl, entry_unique (List.mem_of_find?_eq_some found) there⟩

theorem lookup_none : m.lookup k = none ↔ k ∉ m.keys := by
  rw [Option.eq_none_iff_forall_ne_some]
  constructor
  · intro missing there
    obtain ⟨⟨l, w⟩, listed, rfl⟩ := List.mem_map.mp there
    exact missing w (lookup_some.mpr listed)
  · intro missing v found
    exact missing (List.mem_map.mpr ⟨_, lookup_some.mp found, rfl⟩)

theorem add_new (new : m.lookup k = none) (v : ν) : (m.add k v).entries = m.entries ++ [(k, v)] := by
  unfold add
  rw [dif_neg (lookup_none.mp new)]

theorem add_old (old : m.lookup k = some w) (v : ν) : m.add k v = m := by
  have there : k ∈ m.keys := List.mem_map.mpr ⟨_, lookup_some.mp old, rfl⟩
  unfold add
  rw [dif_pos there]

theorem lookup_add : (m.add k v).lookup l = some w ↔
    m.lookup l = some w ∨ (m.lookup k = none ∧ l = k ∧ w = v) := by
  cases old : m.lookup k with
  | some other => simp [add_old old]
  | none =>
    rw [lookup_some, lookup_some, add_new old]
    simp

theorem lookup_erase : (m.erase k).lookup l = some w ↔ m.lookup l = some w ∧ l ≠ k := by
  rw [lookup_some, lookup_some]
  simp [erase]

theorem erase_absent (absent : m.lookup k = none) : m.erase k = m := by
  apply ext_entries
  apply List.filter_eq_self.mpr
  intro entry listed
  apply bne_iff_ne.mpr
  rintro rfl
  exact lookup_none.mp absent (List.mem_map.mpr ⟨entry, listed, rfl⟩)

/-! ## Edits one after the other -/

inductive Edit (κ : Type u) (ν : Type v)
  | add (k : κ) (v : ν)
  | erase (k : κ)

def apply (m : OrderedMap κ ν) : Edit κ ν → OrderedMap κ ν
  | .add k v => m.add k v
  | .erase k => m.erase k

def run (edits : List (Edit κ ν)) : OrderedMap κ ν := edits.foldl apply empty

theorem run_snoc (edits : List (Edit κ ν)) (edit : Edit κ ν) :
    run (edits ++ [edit]) = (run edits).apply edit := List.foldl_append

/-- The edits brought the value to the key, which has not been erased since. -/
def Brings (edits : List (Edit κ ν)) (k : κ) (v : ν) : Prop :=
  ∃ before after, edits = before ++ .add k v :: after ∧ (run before).lookup k = none ∧
    Edit.erase k ∉ after

/-- Either the last edit brings it, or one before did and the last does not erase it. -/
theorem brings_snoc {edits : List (Edit κ ν)} {edit : Edit κ ν} :
    Brings (edits ++ [edit]) k v ↔
      (edit = .add k v ∧ (run edits).lookup k = none) ∨ (edit ≠ .erase k ∧ Brings edits k v) := by
  constructor
  · rintro ⟨before, after, split, free, since⟩
    cases after using List.reverseRecOn with
    | nil =>
      obtain ⟨rfl, same⟩ := List.append_inj' split rfl
      exact Or.inl ⟨List.singleton_inj.mp same, free⟩
    | append_singleton after last =>
      rw [← List.cons_append, ← List.append_assoc] at split
      obtain ⟨rfl, same⟩ := List.append_inj' split rfl
      obtain rfl : edit = last := List.singleton_inj.mp same
      rw [List.mem_append, List.mem_singleton, not_or] at since
      exact Or.inr ⟨Ne.symm since.2, before, after, rfl, free, since.1⟩
  · rintro (⟨rfl, free⟩ | ⟨kept, before, after, rfl, free, since⟩)
    · exact ⟨edits, [], rfl, free, List.not_mem_nil⟩
    · refine ⟨before, after ++ [edit], by simp, free, ?_⟩
      simp [since, Ne.symm kept]

/-- What a key is mapped to is what the last edit that added it brought, if the
key has not been erased since. -/
theorem lookup_run_iff {edits : List (Edit κ ν)} :
    (run edits).lookup k = some v ↔ Brings edits k v := by
  induction edits using List.reverseRecOn with
  | nil =>
    constructor
    · intro found
      cases found
    · rintro ⟨before, after, split, -⟩
      simp at split
  | append_singleton edits edit ih =>
    rw [run_snoc, brings_snoc, ← ih]
    cases edit with
    | add l w =>
      rw [apply, lookup_add]
      constructor
      · rintro (old | ⟨free, rfl, rfl⟩)
        · exact Or.inr ⟨nofun, old⟩
        · exact Or.inl ⟨rfl, free⟩
      · rintro (⟨same, free⟩ | ⟨-, old⟩)
        · obtain ⟨rfl, rfl⟩ := Edit.add.inj same
          exact Or.inr ⟨free, rfl, rfl⟩
        · exact Or.inl old
    | erase l =>
      rw [apply, lookup_erase]
      constructor
      · rintro ⟨old, other⟩
        exact Or.inr ⟨fun same => other (Edit.erase.inj same).symm, old⟩
      · rintro (⟨same, -⟩ | ⟨kept, old⟩)
        · cases same
        · exact ⟨old, fun same => kept (congrArg Edit.erase same.symm)⟩

end OrderedMap

end Morgoth
