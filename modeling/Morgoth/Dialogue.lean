import Mathlib.Logic.Relation

/-!
# Dialogues with a service

A client asks a service one thing after another, and decides by the answers what to
ask next. The service is not there for it alone: before every request, and after the
last one, others may do something to it.

* `ensures_iff`: what holds at the end however others come in, request by request;
* `ensures_ask`: the next request, where others keep what is known;
* `ensures_bind`, `ensures_forEach`: dialogues that are made of parts;
* `Amid.map`: the same dialogue with a service that is a part of another one.
-/

namespace Morgoth

open Relation (ReflTransGen)

inductive Dialogue (κ : Type) (ρ : κ → Type) (α : Type)
  | done (result : α)
  | ask (request : κ) (next : ρ request → Dialogue κ ρ α)

namespace Dialogue

variable {κ : Type} {ρ : κ → Type} {α β σ : Type}

def bind : Dialogue κ ρ α → (α → Dialogue κ ρ β) → Dialogue κ ρ β
  | done a, next => next a
  | ask request rest, next => ask request fun answer => (rest answer).bind next

section
variable (serve : (r : κ) → σ → ρ r × σ)

/-- What a client hears that has the service for itself, and what it leaves. -/
def alone : Dialogue κ ρ α → σ → α × σ
  | done a, s => (a, s)
  | ask r next, s => (next (serve r s).1).alone (serve r s).2

/-- The dialogue may end so, amid what others do. -/
inductive Amid (others : σ → σ → Prop) : Dialogue κ ρ α → σ → α → σ → Prop
  | done {a : α} {s t : σ} : ReflTransGen others s t → Amid others (done a) s a t
  | ask {r : κ} {next : ρ r → Dialogue κ ρ α} {s t u : σ} {a : α} :
      ReflTransGen others s t → Amid others (next (serve r t).1) (serve r t).2 a u →
      Amid others (ask r next) s a u

/-- However others come in, the dialogue ends so. -/
def Ensures (others : σ → σ → Prop) (post : α → σ → Prop) : Dialogue κ ρ α → σ → Prop
  | done a, s => ∀ t, ReflTransGen others s t → post a t
  | ask r next, s => ∀ t, ReflTransGen others s t →
      Ensures others post (next (serve r t).1) (serve r t).2

end

variable {serve : (r : κ) → σ → ρ r × σ} {others : σ → σ → Prop} {post : α → σ → Prop} {s : σ}

theorem ensures_iff (d : Dialogue κ ρ α) :
    d.Ensures serve others post s ↔ ∀ a t, d.Amid serve others s a t → post a t := by
  induction d generalizing s with
  | done a =>
    constructor
    · rintro ensures _ t ⟨go⟩
      exact ensures t go
    · exact fun all t go => all a t (.done go)
  | ask r next ih =>
    constructor
    · rintro ensures a u (_ | ⟨go, later⟩)
      exact (ih _).mp (ensures _ go) a u later
    · exact fun all t go => (ih _).mpr fun a u later => all a u (.ask go later)

theorem Ensures.mono {post' : α → σ → Prop} {d : Dialogue κ ρ α}
    (ensures : d.Ensures serve others post s) (implies : ∀ a t, post a t → post' a t) :
    d.Ensures serve others post' s :=
  (ensures_iff d).mpr fun a t amid => implies a t ((ensures_iff d).mp ensures a t amid)

/-- Others may stay away. -/
theorem alone_amid (serve : (r : κ) → σ → ρ r × σ) (d : Dialogue κ ρ α) (s : σ) :
    d.Amid serve others s (d.alone serve s).1 (d.alone serve s).2 := by
  induction d generalizing s with
  | done a => exact .done .refl
  | ask r next ih => exact .ask .refl (ih _ _)

/-- Others may come in at the begin. -/
theorem Amid.earlier {d : Dialogue κ ρ α} {a : α} {t u : σ} (go : ReflTransGen others s t)
    (amid : d.Amid serve others t a u) : d.Amid serve others s a u := by
  cases amid with
  | done later => exact .done (go.trans later)
  | ask later rest => exact .ask (go.trans later) rest

/-- Others may come in at the end. -/
theorem Amid.later {d : Dialogue κ ρ α} {a : α} {t u : σ} (amid : d.Amid serve others s a t)
    (go : ReflTransGen others t u) : d.Amid serve others s a u := by
  induction amid with
  | done before => exact .done (before.trans go)
  | ask before _ ih => exact .ask before (ih go)

/-- What is left out of the states is not heard of. -/
theorem Amid.map {τ : Type} {serve' : (r : κ) → τ → ρ r × τ} {others' : τ → τ → Prop} (f : σ → τ)
    (served : ∀ r s, serve' r (f s) = ((serve r s).1, f (serve r s).2))
    (moved : ∀ s t, others s t → others' (f s) (f t)) {d : Dialogue κ ρ α} {a : α} {t : σ}
    (amid : d.Amid serve others s a t) : d.Amid serve' others' (f s) a (f t) := by
  induction amid with
  | done go => exact .done (go.lift f moved)
  | @ask r next s t u a go _ ih =>
    refine .ask (go.lift f moved) ?_
    rw [served]
    exact ih

/-- Others may have come in already. -/
theorem Ensures.later {d : Dialogue κ ρ α} {t : σ} (ensures : d.Ensures serve others post s)
    (go : ReflTransGen others s t) : d.Ensures serve others post t := by
  cases d with
  | done a => exact fun u further => ensures u (go.trans further)
  | ask r next => exact fun u further => ensures u (go.trans further)

theorem ensures_bind (d : Dialogue κ ρ α) (next : α → Dialogue κ ρ β) {post : β → σ → Prop} :
    (d.bind next).Ensures serve others post s ↔
      d.Ensures serve others (fun a t => (next a).Ensures serve others post t) s := by
  induction d generalizing s with
  | done a =>
    constructor
    · exact fun ensures t go => Ensures.later ensures go
    · exact fun ensures => ensures s .refl
  | ask r rest ih => exact forall_congr' fun t => imp_congr_right fun _ => ih _

/-- A request where others keep what is known. -/
theorem ensures_ask {P : σ → Prop} (stable : ∀ s t, P s → others s t → P t) (start : P s) {r : κ}
    {next : ρ r → Dialogue κ ρ α}
    (answered : ∀ t, P t → (next (serve r t).1).Ensures serve others post (serve r t).2) :
    (ask r next).Ensures serve others post s := by
  intro t go
  refine answered t ?_
  induction go with
  | refl => exact start
  | tail _ step ih => exact stable _ _ ih step

/-- A request that only asks, where the answer is known. -/
theorem ensures_known {P : σ → Prop} (stable : ∀ s t, P s → others s t → P t) (start : P s) {r : κ}
    (a : ρ r) (known : ∀ t, P t → serve r t = (a, t)) {next : ρ r → Dialogue κ ρ α}
    (rest : ∀ t, P t → (next a).Ensures serve others post t) :
    (ask r next).Ensures serve others post s := by
  refine ensures_ask stable start fun t ht => ?_
  rw [known t ht]
  exact rest t ht

/-- The end, where others keep what is known. -/
theorem ensures_done {P : σ → Prop} (stable : ∀ s t, P s → others s t → P t) (start : P s) {a : α}
    (ends : ∀ t, P t → post a t) : (done a : Dialogue κ ρ α).Ensures serve others post s := by
  intro t go
  refine ends t ?_
  induction go with
  | refl => exact start
  | tail _ step ih => exact stable _ _ ih step

/-- One dialogue for each element of a list. -/
def forEach (f : β → Dialogue κ ρ α) : List β → Dialogue κ ρ (List α)
  | [] => done []
  | b :: bs => (f b).bind fun a => (forEach f bs).bind fun as => done (a :: as)

theorem ensures_forEach {P : σ → Prop} {f : β → Dialogue κ ρ α} (value : β → α)
    (stable : ∀ s t, P s → others s t → P t) {bs : List β}
    (each : ∀ b ∈ bs, ∀ s, P s →
      (f b).Ensures serve others (fun a t => a = value b ∧ P t) s) (start : P s) :
    (forEach f bs).Ensures serve others (fun as t => as = bs.map value ∧ P t) s := by
  induction bs generalizing s with
  | nil => exact ensures_done stable start fun t ht => ⟨rfl, ht⟩
  | cons b bs ih =>
    have first := each b List.mem_cons_self s start
    refine (ensures_bind _ _).mpr (first.mono fun a t ⟨answered, ht⟩ => ?_)
    have later := ih (fun b listed => each b (List.mem_cons_of_mem _ listed)) ht
    refine (ensures_bind _ _).mpr (later.mono fun as u ⟨rest, hu⟩ => ?_)
    refine ensures_done stable hu fun v hv => ⟨?_, hv⟩
    rw [answered, rest, List.map_cons]

end Dialogue

end Morgoth
