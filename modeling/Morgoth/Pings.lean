import Morgoth.Bookkeeping

/-!
# The loss of a game server

A game server leaves the registry when it announces that it is about to quit,
or when a ping of it fails. Nothing keeps a second ping, sent before the first
one has failed, from failing as well.

* `run_accounted`: every such event is one call of `gameServers.remove`;
* `lost_once_iff`: the handlers find what they remove exactly if no game server
  is lost twice.
-/

namespace Morgoth

namespace ServerManager

/-- Every failed ping has found its server, and every game server has been
removed and scheduled for deletion at most once. -/
def LostOnce (m : ServerManager) : Prop :=
  (∀ gameServer, .nullServer gameServer ∉ m.faults) ∧ m.removals.Nodup ∧ m.deletions.Nodup

/-- What the records of the manager say about the events so far. -/
structure Accounted (es : List ManagerEvent) (m : ServerManager) : Prop where
  sound : m.Sound
  removals : m.removals = es.filterMap ManagerEvent.loses
  deletions : m.deletions = es.filterMap ManagerEvent.loses
  calls : ∀ call ∈ m.calls, call.1 ∈ m.gameServers ∨ call.1 ∈ m.removals
  nulls : ∀ gameServer, .nullServer gameServer ∈ m.faults → 2 ≤ m.removals.count gameServer

variable {env : Environment} {m u : ServerManager}

/-- A registration, or whatever else removes no game server. -/
theorem Accounted.keep {es : List ManagerEvent} {e : ManagerEvent} (hm : Accounted es m)
    (sound : u.Sound) (quiet : e.loses = none) (removals : u.removals = m.removals)
    (deletions : u.deletions = m.deletions)
    (calls : ∀ call ∈ u.calls, call ∈ m.calls ∨ call.1 ∈ u.gameServers)
    (gameServers : ∀ gameServer ∈ m.gameServers, gameServer ∈ u.gameServers)
    (nulls : ∀ gameServer, .nullServer gameServer ∈ u.faults → .nullServer gameServer ∈ m.faults) :
    Accounted (es ++ [e]) u where
  sound := sound
  removals := by simp [removals, hm.removals, quiet]
  deletions := by simp [deletions, hm.deletions, quiet]
  calls call there := by
    obtain old | new := calls call there
    · rw [removals]
      exact (hm.calls call old).imp_left (gameServers call.1)
    · exact Or.inl new
  nulls gameServer there := by
    rw [removals]
    exact hm.nulls gameServer (nulls gameServer there)

/-- The loss of a game server. Its emission on a null pointer shows that it has
been removed before. -/
theorem Accounted.lose {es : List ManagerEvent} {e : ManagerEvent} {gone : GameServerId}
    (hm : Accounted es m) (sound : u.Sound) (loses : e.loses = some gone)
    (removals : u.removals = m.removals ++ [gone]) (deletions : u.deletions = m.deletions ++ [gone])
    (calls : ∀ call ∈ u.calls, call ∈ m.calls)
    (gameServers : u.gameServers = m.gameServers.erase gone)
    (nulls : ∀ gameServer, .nullServer gameServer ∈ u.faults →
      .nullServer gameServer ∈ m.faults ∨ gameServer = gone ∧ gone ∈ m.removals) :
    Accounted (es ++ [e]) u where
  sound := sound
  removals := by simp [removals, hm.removals, loses]
  deletions := by simp [deletions, hm.deletions, loses]
  calls call there := by
    rw [gameServers, removals]
    by_cases this : call.1 = gone
    · exact Or.inr (List.mem_append_right _ (List.mem_singleton.mpr this))
    · obtain registered | removed := hm.calls call (calls call there)
      · exact Or.inl (AList.mem_erase.mpr ⟨this, registered⟩)
      · exact Or.inr (List.mem_append_left _ removed)
  nulls gameServer there := by
    rw [removals, List.count_append]
    obtain old | ⟨rfl, before⟩ := nulls gameServer there
    · have twice := hm.nulls gameServer old
      omega
    · have once := List.count_pos_iff.mpr before
      have again : [gameServer].count gameServer = 1 := by simp
      omega

/-- An emission notes no null pointer, whatever becomes of it. -/
theorem emitOn_nulls {m : ServerManager} {server : ServerId} {gameServer : GameServerId}
    (there : .nullServer gameServer ∈
      if (m.heap server).isSome then m.faults else m.faults ++ [.deletedServer server]) :
    .nullServer gameServer ∈ m.faults := by
  split at there
  · exact there
  · simpa using there

theorem effect_accounted {es : List ManagerEvent} {e : ManagerEvent} (hm : Accounted es m)
    (he : Effect env m e u) : Accounted (es ++ [e]) u := by
  have sound := effect_sound hm.sound he
  cases he with
  | added e s brings | refused e s brings =>
    have quiet : e.loses = none := by
      cases e with
      | add | addServer => rfl
      | _ => cases brings
    exact hm.keep sound quiet rfl rfl (fun _ => Or.inl) (fun _ => id) fun _ => id
  | removed | unknown | unmatched | dropped | destroyed | alone =>
    exact hm.keep sound rfl rfl rfl (fun _ => Or.inl) (fun _ => id) fun _ => id
  | registered gameServer server matched =>
    refine hm.keep sound rfl rfl rfl (fun _ => Or.inl) ?_ fun _ => emitOn_nulls
    exact fun _ there => (AList.mem_insert _).mpr (Or.inr there)
  | pinged =>
    refine hm.keep sound rfl rfl rfl (fun call there => ?_) (fun _ => id) fun _ => id
    rcases List.mem_append.mp there with old | new
    · exact Or.inl old
    · obtain ⟨gameServer, key, rfl⟩ := List.mem_map.mp new
      exact Or.inr (AList.mem_keys.mpr key)
  | answered gameServer round error pending alive =>
    refine hm.keep sound (by simp [ManagerEvent.loses, alive]) rfl rfl ?_ (fun _ => id) fun _ => id
    exact fun _ there => Or.inl (List.mem_of_mem_erase there)
  | lost gameServer round error server pending loss known =>
    refine hm.lose sound (by simp [ManagerEvent.loses, loss]) rfl rfl
      (fun _ => List.mem_of_mem_erase) rfl ?_
    exact fun _ there => Or.inl (emitOn_nulls there)
  | lostAgain gameServer round error pending loss forgotten =>
    refine hm.lose sound (by simp [ManagerEvent.loses, loss]) rfl rfl
      (fun _ => List.mem_of_mem_erase) rfl (fun other there => ?_)
    rcases List.mem_append.mp there with old | new
    · exact Or.inl old
    · obtain rfl : other = gameServer := by simpa using new
      have unregistered := AList.lookup_eq_none.mp forgotten
      exact Or.inr ⟨rfl, (hm.calls _ pending).resolve_left unregistered⟩
  | quit iface server announced =>
    refine hm.lose sound rfl rfl rfl (fun _ => id) rfl (fun other there => Or.inl ?_)
    by_cases known : iface ∈ m.gameServers
    · simpa [known] using there
    · simpa [known] using there

theorem run_accounted {es : List ManagerEvent} (h : run env {} es = some m) : Accounted es m := by
  refine Machine.run_history (P := Accounted) (fun es s e u hs hu => ?_) ?_ h
  · exact effect_accounted hs (step_effect hs.sound.fresh hu)
  · exact ⟨init_sound, rfl, rfl, by simp, by simp⟩

/-- At the end of a run, all is in order exactly if no game server was lost
twice. -/
theorem accounted_lostOnce {es : List ManagerEvent} (hm : Accounted es m) :
    m.LostOnce ↔ ∀ gameServer, es.countP (fun e => e.loses == some gameServer) ≤ 1 := by
  have count (gameServer : GameServerId) :
      m.removals.count gameServer = es.countP fun e => e.loses == some gameServer := by
    rw [hm.removals, List.count_filterMap]
  constructor
  · rintro ⟨-, removals, -⟩ gameServer
    rw [← count]
    exact List.nodup_iff_count_le_one.mp removals gameServer
  · intro once
    have removals : m.removals.Nodup := by
      refine List.nodup_iff_count_le_one.mpr fun gameServer => ?_
      rw [count]
      exact once gameServer
    refine ⟨fun gameServer null => ?_, removals, ?_⟩
    · have twice := hm.nulls gameServer null
      have atMost := List.nodup_iff_count_le_one.mp removals gameServer
      omega
    · rw [hm.deletions, ← hm.removals]
      exact removals

/-- In every state of a run, each failed ping has found its server and no game
server has been removed or deleted twice, exactly if the run has no two events
that lose the same game server. -/
theorem lost_once_iff {es : List ManagerEvent} (h : run env {} es = some m) :
    Machine.Throughout (step env) LostOnce {} es ↔
      ∀ gameServer, es.countP (fun e => e.loses == some gameServer) ≤ 1 := by
  constructor
  · intro right
    exact (accounted_lostOnce (run_accounted h)).mp (right es m List.prefix_rfl h)
  · intro once pre t hp ht
    refine (accounted_lostOnce (run_accounted ht)).mpr fun gameServer => ?_
    exact hp.sublist.countP_le.trans (once gameServer)

/-- A server, a game server that registers for it, and two pings of it. -/
def twoPings : List ManagerEvent :=
  [.add { path := "/srv/tf2" } "tf2", .registerGameServer .sample, .timeout, .timeout]

theorem lost_once_iff_quit :
    Machine.Throughout (step .ideal) LostOnce {} (twoPings ++ [ManagerEvent.aboutToQuit 0]) ↔
      ∀ gameServer, (twoPings ++ [ManagerEvent.aboutToQuit 0]).countP
        (fun e => e.loses == some gameServer) ≤ 1 :=
  @lost_once_iff .ideal _ _ rfl

/-- The peer is gone, and both pings fail. The second one finds a null pointer
in place of the server. -/
theorem second_failed_ping_finds_nothing :
    ∃ m u, run .ideal {} (twoPings ++ [.pingFinished 0 0 (some .disconnected)]) = some m ∧
      m.LostOnce ∧
      m.step .ideal (.pingFinished 0 1 (some .disconnected)) = some u ∧
      .nullServer 0 ∈ u.faults ∧ u.removals = [0, 0] ∧ ¬ u.LostOnce := by
  refine ⟨_, _, rfl, ⟨fun _ => List.not_mem_nil, by decide, by decide⟩, rfl,
    by decide, rfl, fun right => ?_⟩
  exact right.1 0 (by decide)

end ServerManager

end Morgoth
