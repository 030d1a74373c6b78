import Morgoth.Bookkeeping

/-!
# The removal of a server

`ServerManager::remove` takes a server out of `servers()` and schedules it for
deletion. `gameServers` is not touched.

* `kept_iff`: in which runs every registered game server belongs to a server
  that has not been removed, so that no signal is emitted on a deleted one.
-/

namespace Morgoth.ServerManager

/-- Every server that occurs in `gameServers` is in `servers()`, and no signal
has been emitted on a server that is gone. -/
def Kept (m : ServerManager) : Prop :=
  (∀ server, m.Registered server → server ∈ m.servers) ∧ ∀ server, .deletedServer server ∉ m.faults

/-- A server that is removed has no registered game server. -/
def RemovesUnregistered (m : ServerManager) : ManagerEvent → Prop
  | .remove serverName => ∀ server, m.find serverName = some server → ¬ m.Registered server
  | _ => True

variable {env : Environment} {m u : ServerManager}

/-- An emission on a server that exists is no fault. -/
theorem emitOn_alive {server : ServerId} (alive : (m.heap server).isSome)
    (signal : Server → Server) : (m.emitOn server signal).faults = m.faults := if_pos alive

theorem Kept.erase (hi : m.Kept) (gone : GameServerId) :
    ∀ server, (∃ x, (m.gameServers.erase gone).lookup x = some server) → server ∈ m.servers := by
  rintro server ⟨x, known⟩
  by_cases this : x = gone
  · rw [this, AList.lookup_erase] at known
    cases known
  · exact hi.1 server ⟨x, (AList.lookup_erase_ne this).symm.trans known⟩

theorem brings_unregistered {e : ManagerEvent} {s : Server} (brings : brought env m e = some s) :
    m.RemovesUnregistered e := by
  cases e with
  | add | addServer => trivial
  | _ => cases brings

theorem effect_kept {e : ManagerEvent} (hm : m.Sound) (hi : m.Kept) (he : Effect env m e u) :
    u.Kept ↔ m.RemovesUnregistered e := by
  cases he with
  | removed serverName server found =>
    constructor
    · rintro ⟨listed, -⟩ t same registered
      obtain rfl := Option.some.inj (found.symm.trans same)
      have still := listed server registered
      simp at still
    · intro unregistered
      refine ⟨fun t registered => List.mem_filter.mpr ⟨hi.1 t registered, ?_⟩, hi.2⟩
      have other : t ≠ server := by
        rintro rfl
        exact unregistered t found registered
      simpa using other
  | unknown serverName missing =>
    exact iff_of_true hi fun server found => by rw [missing] at found; cases found
  | added e s brings =>
    exact iff_of_true ⟨fun t registered => List.mem_append_left _ (hi.1 t registered), hi.2⟩
      (brings_unregistered brings)
  | refused e s brings =>
    exact iff_of_true hi (brings_unregistered brings)
  | registered gameServer server matched =>
    have listed := matching_mem matched
    have new := hm.unregistered
    refine iff_of_true ⟨fun t registered => ?_, fun t => ?_⟩ trivial
    · obtain rfl | old := (registered_insert new).mp registered
      · exact listed
      · exact hi.1 t old
    · rw [emitOn_alive (hm.alive server listed)]
      exact hi.2 t
  | lost gameServer round error server pending loss known =>
    have listed := hi.1 server ⟨gameServer, known⟩
    refine iff_of_true ⟨hi.erase gameServer, fun t => ?_⟩ trivial
    have quiet := emitOn_alive (hm.alive server listed)
      (Server.gameServerTimedOut (env.host server))
    exact quiet ▸ hi.2 t
  | lostAgain gameServer round error pending loss forgotten =>
    refine iff_of_true ⟨hi.erase gameServer, fun t there => ?_⟩ trivial
    exact hi.2 t (by simpa using there)
  | quit iface server announced =>
    refine iff_of_true ⟨hi.erase iface, fun t there => ?_⟩ trivial
    by_cases known : iface ∈ m.gameServers
    · exact hi.2 t (by simpa [known] using there)
    · exact hi.2 t (by simpa [known] using there)
  | unmatched | pinged | answered | dropped | destroyed | alone => exact iff_of_true hi trivial

theorem step_kept {e : ManagerEvent} (hm : m.Sound) (hi : m.Kept) (hu : m.step env e = some u) :
    u.Kept ↔ m.RemovesUnregistered e := effect_kept hm hi (step_effect hm.fresh hu)

/-- Throughout a run the registered game servers belong to servers that have
not been removed, exactly if every server that it removes has none. -/
theorem kept_iff (env : Environment) (es : List ManagerEvent) :
    Machine.Throughout (step env) Kept {} es ↔
      Machine.EachStep (step env) RemovesUnregistered {} es := by
  apply Machine.throughout_iff_eachStep (A := Sound)
  · intro m e _ u hm hu
    exact step_sound hm hu
  · intro m e _ u hm hi hu
    exact step_kept hm hi hu
  · exact init_sound
  · constructor
    · rintro server ⟨iface, known⟩
      cases known
    · intro server
      exact List.not_mem_nil

/-- A server is removed with its game server registered, and deleted; then a
ping fails. -/
theorem removed_server_times_out :
    ∃ m u, run .ideal {} [.add { path := "/srv/tf2" } "tf2", .registerGameServer .sample,
        .remove "tf2"] = some m ∧
      m.Registered 0 ∧ 0 ∉ m.servers ∧ 0 ∈ m.doomed ∧ ¬ m.Kept ∧
      run .ideal m [.timeout, .deleteServer 0, .pingFinished 0 0 (some .noReply)] = some u ∧
      .deletedServer 0 ∈ u.faults := by
  refine ⟨_, _, rfl, ⟨0, rfl⟩, by decide, by decide, fun kept => ?_, rfl, by decide⟩
  exact absurd (kept.1 0 ⟨0, rfl⟩) (by decide)

end Morgoth.ServerManager
