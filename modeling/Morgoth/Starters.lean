import Morgoth.ServerMachine

/-!
# The starters

A starter outlives its outcome: `deleteLater` only takes effect when the event
loop comes to it, and until then the starter hears every game server that
registers, also after its time-out.

* `step_starters`: what each event does to the starters;
* `reports_once_iff`: in which runs no starter reports twice.
-/

namespace Morgoth

/-- `started` or `failed`. -/
def StarterSignal.isOutcome : StarterSignal → Bool
  | .starting => false
  | .started _ | .failed _ => true

namespace ServerStarter

/-- How often the starter has reported how its start went. -/
def outcomes (st : ServerStarter) : Nat := st.signals.countP StarterSignal.isOutcome

/-- The starter has reported, and is to be deleted. -/
def reported (signal : StarterSignal) (st : ServerStarter) : ServerStarter :=
  { st with timerActive := false, deleteLater := true, signals := st.signals ++ [signal] }

theorem reported_outcomes {signal : StarterSignal} (outcome : signal.isOutcome = true)
    (st : ServerStarter) : (st.reported signal).outcomes = st.outcomes + 1 := by
  simp [outcomes, reported, List.countP_append, outcome]

/-- A starter at the end of its `start`. -/
def launched : Option ServerError → ServerStarter
  | none => { connected := true, timerActive := true, signals := [.starting] }
  | some error => { deleteLater := true, signals := [.starting, .failed error] }

theorem launched_outcomes (failure : Option ServerError) : (launched failure).outcomes ≤ 1 := by
  cases failure with
  | none => exact Nat.zero_le 1
  | some error => exact Nat.le_refl 1

end ServerStarter

open ServerStarter

namespace Server

/-! ## What an event does to the starters -/

theorem start_starters (h : Host) (s : Server) :
    (s.start h).1.starters = s.starters ++ [launched (s.bringUp h).2] := by
  have last (sts : List ServerStarter) (st : ServerStarter) (f : ServerStarter → ServerStarter) :
      (sts ++ [st]).modify sts.length f = sts ++ [f st] := by
    simp [List.modify_eq_take_cons_drop]
  unfold start startStarter
  simp only [bringUp_emitStarting]
  cases (s.bringUp h).2 <;>
    simp [emitStarting, emitFailed, noteStarter, modifyStarter, setState, withTmux, onServerFailed,
      deleteStarterLater, launched, last]

/-- The timer, the signal and the deletion, one after the other. -/
theorem modify_reported (signal : StarterSignal) (i : Nat) (sts : List ServerStarter) :
    ((sts.modify i fun st => { st with timerActive := false }).modify i fun st =>
        { st with signals := st.signals ++ [signal] }).modify i
      (fun st => { st with deleteLater := true }) = sts.modify i (reported signal) := by
  rw [List.modify_modify_eq, List.modify_modify_eq]
  rfl

theorem timeoutStart_starters (i : Nat) (s : Server) :
    (s.timeoutStart i).starters =
      s.starters.modify i (reported (.failed .serverNotRegisteredOnTime)) :=
  modify_reported _ i s.starters

theorem handleGameServerRegistered_starters (i : Nat) (iface : GameServerId) (s : Server) :
    (s.handleGameServerRegistered i iface).starters =
      s.starters.modify i (reported (.started iface)) :=
  modify_reported _ i s.starters

theorem emit_starters (iface : GameServerId) (j : Nat) {is : List Nat} (distinct : is.Nodup)
    (s : Server) :
    (Signal.emit (is.map fun i => handleGameServerRegistered i iface) s).starters[j]? =
      if j ∈ is then (s.starters[j]?).map (reported (.started iface)) else s.starters[j]? := by
  induction is generalizing s with
  | nil => rfl
  | cons i is ih =>
    obtain ⟨once, distinct⟩ := List.nodup_cons.mp distinct
    rw [List.map_cons, Signal.emit_cons, ih distinct, handleGameServerRegistered_starters,
      List.getElem?_modify]
    by_cases here : i = j
    · subst here
      simp [once]
    · simp [here, Ne.symm here]

theorem mem_listening (s : Server) (j : Nat) :
    j ∈ s.listening ↔ (s.starters[j]?).any (·.connected) := by
  unfold listening
  rw [List.mem_filter, List.mem_range, and_iff_right_iff_imp]
  intro connected
  by_contra late
  rw [List.getElem?_eq_none (Nat.le_of_not_lt late)] at connected
  cases connected

/-- Every starter that is connected hears the registration and reports it. -/
theorem gameServerOnline_starter (h : Host) (iface : GameServerId) (gameServer : GameServer)
    (s : Server) (j : Nat) :
    (s.gameServerOnline h iface gameServer).starters[j]? =
      if j ∈ s.listening then (s.starters[j]?).map (reported (.started iface))
      else s.starters[j]? := by
  have distinct : s.listening.Nodup := List.nodup_range.filter _
  unfold gameServerOnline gameServerOnlineSlots
  rw [Signal.emit_append, emit_starters iface j distinct]
  cases s.valid <;> rfl

theorem gameServerOnline_starters (h : Host) (iface : GameServerId) (gameServer : GameServer)
    (s : Server) :
    (s.gameServerOnline h iface gameServer).starters =
      s.starters.map fun st => if st.connected then st.reported (.started iface) else st := by
  apply List.ext_getElem?
  intro j
  have heard := s.mem_listening j
  rw [gameServerOnline_starter, List.getElem?_map]
  cases found : s.starters[j]? with
  | none => simp
  | some st => cases connected : st.connected <;> simp [heard, found, connected]

/-- The starters after an event. -/
def startersAfter (h : Host) (s : Server) : ServerEvent → List ServerStarter
  | .start => s.starters ++ [launched (s.bringUp h).2]
  | .startTimeout i => s.starters.modify i (reported (.failed .serverNotRegisteredOnTime))
  | .deleteStarter i => s.starters.eraseIdx i
  | .gameServerOnline iface _ =>
    s.starters.map fun st => if st.connected then st.reported (.started iface) else st
  | _ => s.starters

theorem step_starters {h : Host} {s u : Server} {e : ServerEvent} (hu : s.step h e = some u) :
    u.starters = s.startersAfter h e := by
  cases step_effect hu with
  | start => exact start_starters h s
  | startTimeout i => exact timeoutStart_starters i s
  | gameServerOnline iface gameServer => exact gameServerOnline_starters h iface gameServer s
  | gameServerTimedOut =>
    exact gameServerTimedOut_keeps (P := fun t => t.starters = s.starters) rfl fun _ kept => kept
  | aboutToQuit iface => exact aboutToQuit_frame (f := starters) (fun _ => rfl) s
  | _ => rfl

/-! ## At most one outcome -/

/-- No starter has reported more than one outcome. -/
def ReportsOnce (s : Server) : Prop := ∀ st ∈ s.starters, st.outcomes ≤ 1

/-- A starter is to be deleted once it has reported, and its timer is stopped
then. -/
def Settled (s : Server) : Prop :=
  ∀ st ∈ s.starters, (st.deleteLater = true ↔ st.outcomes ≠ 0) ∧
    (st.timerActive = true → st.deleteLater = false)

/-- When a game server registers, no starter that has reported is connected
any more. -/
def HeardByNew (s : Server) : ServerEvent → Prop
  | .gameServerOnline .. => ∀ st ∈ s.starters, st.connected = true → st.deleteLater = false
  | _ => True

theorem launched_settled (failure : Option ServerError) :
    ((launched failure).deleteLater = true ↔ (launched failure).outcomes ≠ 0) ∧
      ((launched failure).timerActive = true → (launched failure).deleteLater = false) := by
  cases failure <;> simp [launched, outcomes, StarterSignal.isOutcome]

theorem reported_settled {signal : StarterSignal} (outcome : signal.isOutcome = true)
    (st : ServerStarter) :
    ((st.reported signal).deleteLater = true ↔ (st.reported signal).outcomes ≠ 0) ∧
      ((st.reported signal).timerActive = true → (st.reported signal).deleteLater = false) := by
  rw [reported_outcomes outcome]
  simp [reported]

/-- One more report is the first one exactly if the starter is not about to be
deleted. -/
theorem reported_once {signal : StarterSignal} (outcome : signal.isOutcome = true)
    {st : ServerStarter} (settled : st.deleteLater = true ↔ st.outcomes ≠ 0) :
    (st.reported signal).outcomes ≤ 1 ↔ st.deleteLater = false := by
  rw [reported_outcomes outcome, ← Bool.not_eq_true, settled]
  omega

/-- A starter of the modified list is an old one, or the one that was
modified. -/
theorem mem_modify {sts : List ServerStarter} {i : Nat} {f : ServerStarter → ServerStarter}
    {st : ServerStarter} (hst : st ∈ sts.modify i f) :
    st ∈ sts ∨ ∃ old, sts[i]? = some old ∧ st = f old := by
  obtain ⟨j, hj⟩ := List.mem_iff_getElem?.mp hst
  rw [List.getElem?_modify] at hj
  obtain ⟨old, found, rfl⟩ := Option.map_eq_some_iff.mp hj
  have listed := List.mem_of_getElem? found
  by_cases here : i = j
  · subst here
    exact Or.inr ⟨old, found, if_pos rfl⟩
  · exact Or.inl (by simpa [here] using listed)

theorem step_settled {h : Host} {s u : Server} {e : ServerEvent} (hs : s.Settled)
    (hu : s.step h e = some u) : u.Settled := by
  intro st hst
  rw [step_starters hu] at hst
  cases e with
  | start =>
    rcases List.mem_append.mp hst with old | new
    · exact hs st old
    · rw [List.mem_singleton.mp new]
      exact launched_settled _
  | startTimeout i =>
    rcases mem_modify hst with old | ⟨old, -, rfl⟩
    · exact hs st old
    · exact reported_settled rfl old
  | deleteStarter i => exact hs st (List.mem_of_mem_eraseIdx hst)
  | gameServerOnline iface gameServer =>
    obtain ⟨old, listed, rfl⟩ := List.mem_map.mp hst
    cases old.connected with
    | true => exact reported_settled rfl old
    | false => exact hs old listed
  | _ => exact hs st hst

/-- Of what can happen to a starter, only a registration can make it report
again. -/
theorem step_reportsOnce {h : Host} {s u : Server} {e : ServerEvent} (settled : s.Settled)
    (hs : s.ReportsOnce) (hu : s.step h e = some u) : u.ReportsOnce ↔ s.HeardByNew e := by
  have unchanged (same : u.starters = s.starters) : u.ReportsOnce := by
    unfold ReportsOnce
    rw [same]
    exact hs
  have starters := step_starters hu
  cases e with
  | start =>
    refine iff_of_true ?_ trivial
    intro st hst
    rw [starters] at hst
    rcases List.mem_append.mp hst with old | new
    · exact hs st old
    · rw [List.mem_singleton.mp new]
      exact launched_outcomes _
  | startTimeout i =>
    refine iff_of_true ?_ trivial
    intro st hst
    obtain ⟨active, -⟩ := Machine.some_of_ite hu
    rw [starters] at hst
    rcases mem_modify hst with old | ⟨old, found, rfl⟩
    · exact hs st old
    · -- a timer that is active belongs to a starter that has not reported
      rw [found] at active
      obtain ⟨reported, waiting⟩ := settled old (List.mem_of_getElem? found)
      exact (reported_once rfl reported).mpr (waiting active)
  | deleteStarter i =>
    refine iff_of_true ?_ trivial
    intro st hst
    rw [starters] at hst
    exact hs st (List.mem_of_mem_eraseIdx hst)
  | gameServerOnline iface gameServer =>
    unfold ReportsOnce
    rw [starters]
    unfold startersAfter
    rw [List.forall_mem_map]
    apply forall₂_congr
    intro st listed
    obtain ⟨reported, -⟩ := settled st listed
    cases connected : st.connected with
    | false => simpa using hs st listed
    | true =>
      simp only [if_true, forall_const]
      exact reported_once rfl reported
  | _ => exact iff_of_true (unchanged starters) trivial

/-- No starter reports two outcomes exactly if, whenever a game server
registers, all starters that have reported are deleted. -/
theorem reports_once_iff (h : Host) (path : QUrl) (name : String) (es : List ServerEvent) :
    Machine.Throughout (step h) ReportsOnce (create h path name) es ↔
      Machine.EachStep (step h) HeardByNew (create h path name) es := by
  apply Machine.throughout_iff_eachStep (A := Settled)
  · exact fun _ _ _ _ settled hu => step_settled settled hu
  · exact fun _ _ _ _ settled hs hu => step_reportsOnce settled hs hu
  · exact fun _ there => nomatch there
  · exact fun _ there => nomatch there

/-- A game server that registers right after the time-out makes the starter
report `started` as well: the coordinator goes from crashed to running. -/
theorem started_after_failed :
    sample.valid = true ∧
    ∃ s st, run .ideal sample [.start, .startTimeout 0, .gameServerOnline 0 .sample] = some s ∧
      s.starters = [st] ∧
      st.signals = [.starting, .failed .serverNotRegisteredOnTime, .started 0] ∧
      s.coordinator.signals.map Prod.fst = [.starting, .crashed, .running] ∧
      s.coordinator.quitSlots = [0] ∧ ¬ s.ReportsOnce := by
  refine ⟨rfl, _, _, rfl, rfl, rfl, rfl, rfl, ?_⟩
  intro once
  exact absurd (once _ List.mem_cons_self) (by decide)

end Server

end Morgoth
