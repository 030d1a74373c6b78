import Morgoth.ManagerMachine

/-!
# The bookkeeping of the manager

Which objects exist, which are listed, registered or scheduled for deletion,
and which numbers have been handed out.

* `run_sound`: the records fit together in every run;
* `effect_heap`: what an event leaves in the heap.
-/

namespace Morgoth.ServerManager

theorem lookup_mem {l : AList (fun _ : GameServerId => ServerId)} {iface : GameServerId}
    {server : ServerId} (known : l.lookup iface = some server) : iface ∈ l := by
  apply AList.lookup_isSome.mp
  rw [known]
  rfl

/-- `gameServers` maps some game server to the server. -/
def Registered (m : ServerManager) (server : ServerId) : Prop :=
  ∃ iface, m.gameServers.lookup iface = some server

structure Sound (m : ServerManager) : Prop where
  alive : ∀ server ∈ m.servers, (m.heap server).isSome
  used : ∀ server, (m.heap server).isSome → server < m.nextServer
  distinct : m.servers.Nodup
  doomed : ∀ server ∈ m.doomed, server < m.nextServer ∧ server ∉ m.servers
  announced : ∀ iface server, m.gameServers.lookup iface = some server →
    m.interfaces.lookup iface = some server
  targets : ∀ iface server, m.interfaces.lookup iface = some server →
    iface < m.nextGameServer ∧ server < m.nextServer
  retired : ∀ iface ∈ m.deletions, iface < m.nextGameServer ∧ iface ∉ m.gameServers
  pending : ∀ call ∈ m.calls, call.1 < m.nextGameServer
  known : ∀ server s, m.heap server = some s → ∀ iface ∈ s.status.tracked,
    iface < m.nextGameServer

theorem init_sound : Sound {} where
  alive := by simp
  used := by simp
  distinct := List.nodup_nil
  doomed := by simp
  announced := by simp
  targets := by simp
  retired := by simp
  pending := by simp
  known := by simp

section
variable {env : Environment} {m u : ServerManager} {e : ManagerEvent}

theorem Sound.listed (hm : m.Sound) {server : ServerId} (there : server ∈ m.servers) :
    server < m.nextServer := hm.used server (hm.alive server there)

theorem Sound.fresh (hm : m.Sound) : m.nextServer ∉ m.servers := by
  intro there
  have below := hm.listed there
  exact Nat.lt_irrefl _ below

theorem Sound.registered (hm : m.Sound) {iface : GameServerId} (there : iface ∈ m.gameServers) :
    iface < m.nextGameServer := by
  obtain ⟨server, known⟩ := Option.isSome_iff_exists.mp (AList.lookup_isSome.mpr there)
  exact (hm.targets iface server (hm.announced iface server known)).1

theorem Sound.unregistered (hm : m.Sound) : m.nextGameServer ∉ m.gameServers := by
  intro there
  have below := hm.registered there
  exact Nat.lt_irrefl _ below

theorem Sound.unused (hm : m.Sound) : ¬ m.Registered m.nextServer := by
  rintro ⟨iface, known⟩
  have below := (hm.targets iface _ (hm.announced iface _ known)).2
  exact Nat.lt_irrefl _ below

/-! ## The registry and the list of servers -/

theorem registered_insert {iface : GameServerId} {server t : ServerId}
    (new : iface ∉ m.gameServers) :
    (∃ x, (m.gameServers.insert iface server).lookup x = some t) ↔
      t = server ∨ m.Registered t := by
  constructor
  · rintro ⟨x, known⟩
    by_cases this : x = iface
    · rw [this, AList.lookup_insert] at known
      exact Or.inl (Option.some.inj known).symm
    · rw [AList.lookup_insert_ne this] at known
      exact Or.inr ⟨x, known⟩
  · rintro (rfl | ⟨x, known⟩)
    · exact ⟨iface, AList.lookup_insert _⟩
    · have other : x ≠ iface := by
        rintro rfl
        exact new (lookup_mem known)
      exact ⟨x, (AList.lookup_insert_ne other).trans known⟩

theorem find_mem {name : String} {server : ServerId} (found : m.find name = some server) :
    server ∈ m.servers := List.mem_of_find?_eq_some found

theorem find_some {name : String} {server : ServerId} (found : m.find name = some server) :
    server ∈ m.servers ∧ ∃ s, m.heap server = some s ∧ s.name = name := by
  refine ⟨find_mem found, ?_⟩
  have there := List.find?_some found
  obtain ⟨s, hs, here⟩ := Option.any_eq_true _ _ |>.mp there
  exact ⟨s, hs, beq_iff_eq.mp here⟩

theorem matching_mem {gameServer : GameServer} {server : ServerId}
    (matched : m.matching env gameServer = some server) : server ∈ m.servers :=
  List.mem_of_find?_eq_some matched

/-! ## The heap -/

theorem update_some {heap : ServerId → Option Server} {server t : ServerId}
    {new : Option Server} {s : Server} (hs : Function.update heap server new t = some s) :
    (t = server ∧ new = some s) ∨ (t ≠ server ∧ heap t = some s) := by
  rw [Function.update_apply] at hs
  by_cases here : t = server
  · rw [if_pos here] at hs
    exact Or.inl ⟨here, hs⟩
  · rw [if_neg here] at hs
    exact Or.inr ⟨here, hs⟩

theorem update_isSome {heap : ServerId → Option Server} {server t : ServerId}
    {new : Option Server} (there : (heap t).isSome) (kept : t = server → new.isSome) :
    (Function.update heap server new t).isSome := by
  rw [Function.update_apply]
  by_cases here : t = server
  · rw [if_pos here]
    exact kept here
  · rw [if_neg here]
    exact there

theorem reach_there {server : ServerId} {s : Server} (there : m.heap server = some s)
    (signal : Server → Server) : (m.reach server signal).heap server = some (signal s) := by
  simp [reach, there]

theorem reach_elsewhere {server t : ServerId} (other : t ≠ server) (signal : Server → Server) :
    (m.reach server signal).heap t = m.heap t := Function.update_of_ne other _ _

theorem reach_some {server t : ServerId} {signal : Server → Server} {s : Server}
    (hs : (m.reach server signal).heap t = some s) :
    m.heap t = some s ∨ t = server ∧ ∃ s', m.heap t = some s' ∧ signal s' = s := by
  obtain ⟨rfl, new⟩ | ⟨-, old⟩ := update_some hs
  · exact Or.inr ⟨rfl, Option.map_eq_some_iff.mp new⟩
  · exact Or.inl old

theorem reach_isSome {server t : ServerId} {signal : Server → Server}
    (there : (m.heap t).isSome) : ((m.reach server signal).heap t).isSome := by
  apply update_isSome there
  rintro rfl
  rw [Option.isSome_map]
  exact there

/-- A server steps as its own machine does, and hears of game servers with new
numbers only. -/
def Moves (env : Environment) (m u : ServerManager) (t : ServerId) (s : Server) : Prop :=
  ∃ s' event, m.heap t = some s' ∧ s'.step (env.host t) event = some s ∧
    ∀ iface gameServer, event = .gameServerOnline iface gameServer → iface < u.nextGameServer

theorem reach_moves {server t : ServerId} {signal : Server → Server} {s : Server}
    (event : ServerEvent)
    (moves : ∀ s', m.heap server = some s' → s'.step (env.host server) event = some (signal s'))
    (other : ∀ iface gameServer, event = .gameServerOnline iface gameServer →
      iface < u.nextGameServer)
    (reached : (m.reach server signal).heap t = some s) :
    m.heap t = some s ∨ Moves env m u t s := by
  obtain old | ⟨rfl, s', there, rfl⟩ := reach_some reached
  · exact Or.inl old
  · exact Or.inr ⟨s', event, there, moves s' there, other⟩

/-- What is in the heap after an event: what was there before, what a server
made of it in one step, or the server that the event brought. -/
theorem effect_heap (hm : m.Sound) (he : Effect env m e u) {t : ServerId} {s : Server}
    (hs : u.heap t = some s) :
    m.heap t = some s ∨ Moves env m u t s ∨ (t = m.nextServer ∧ brought env m e = some s) := by
  cases he with
  | added _ s' brings free =>
    obtain ⟨rfl, new⟩ | ⟨-, old⟩ := update_some hs
    · obtain rfl := Option.some.inj new
      exact Or.inr (Or.inr ⟨rfl, brings⟩)
    · exact Or.inl old
  | registered gameServer server matched =>
    have moves (s' : Server) (there : m.heap server = some s') :
        s'.step (env.host server) (.gameServerOnline m.nextGameServer gameServer) =
          some (s'.gameServerOnline (env.host server) m.nextGameServer gameServer) := by
      apply if_pos
      intro tracked
      have below := hm.known server s' there _ tracked
      exact Nat.lt_irrefl _ below
    apply (reach_moves _ moves ?_ hs).imp_right Or.inl
    intro iface _ same
    injection same with same
    rw [← same]
    exact Nat.lt_succ_self _
  | lost gameServer round error server =>
    exact (reach_moves .gameServerTimedOut (fun _ _ => rfl) nofun hs).imp_right Or.inl
  | quit iface server =>
    exact (reach_moves (.aboutToQuit iface) (fun _ _ => rfl) nofun hs).imp_right Or.inl
  | dropped iface server =>
    exact (reach_moves (.deleteGameServer iface) (fun _ _ => rfl) nofun hs).imp_right Or.inl
  | destroyed server =>
    obtain ⟨-, gone⟩ | ⟨-, old⟩ := update_some hs
    · cases gone
    · exact Or.inl old
  | alone server event s' s'' unmanaged there moves =>
    obtain ⟨rfl, new⟩ | ⟨-, old⟩ := update_some hs
    · obtain rfl := Option.some.inj new
      refine Or.inr (Or.inl ⟨s', event, there, moves, ?_⟩)
      rintro iface gameServer rfl
      cases unmanaged
    · exact Or.inl old
  | _ => exact Or.inl hs

/-! ## What an event does to the records -/

theorem effect_next (he : Effect env m e u) :
    m.nextServer ≤ u.nextServer ∧ m.nextGameServer ≤ u.nextGameServer ∧
    ((brought env m e).isSome → m.nextServer < u.nextServer) := by
  cases he with
  | added | refused => exact ⟨Nat.le_succ _, Nat.le_refl _, fun _ => Nat.lt_succ_self _⟩
  | registered | unmatched => exact ⟨Nat.le_refl _, Nat.le_succ _, nofun⟩
  | _ => exact ⟨Nat.le_refl _, Nat.le_refl _, nofun⟩

theorem effect_used (hm : m.Sound) (he : Effect env m e u) :
    ∀ server, (u.heap server).isSome → server < u.nextServer := by
  intro server there
  obtain ⟨s, hs⟩ := Option.isSome_iff_exists.mp there
  obtain ⟨servers, -, more⟩ := effect_next he
  obtain old | ⟨s', _, old, -⟩ | ⟨rfl, brings⟩ := effect_heap hm he hs
  · have below := hm.used server (by rw [old]; rfl)
    exact Nat.lt_of_lt_of_le below servers
  · have below := hm.used server (by rw [old]; rfl)
    exact Nat.lt_of_lt_of_le below servers
  · exact more (by rw [brings]; rfl)

theorem effect_listed (hm : m.Sound) (he : Effect env m e u) :
    (∀ server ∈ u.servers, (u.heap server).isSome) ∧ u.servers.Nodup := by
  cases he with
  | added e s =>
    constructor
    · intro server there
      rcases List.mem_append.mp there with old | new
      · exact update_isSome (hm.alive server old) fun _ => rfl
      · rw [List.mem_singleton.mp new]
        simp
    · rw [← List.concat_eq_append]
      exact hm.distinct.concat hm.fresh
  | removed name server =>
    exact ⟨fun t there => hm.alive t (List.mem_of_mem_filter there), hm.distinct.filter _⟩
  | registered | lost | quit | dropped =>
    exact ⟨fun t there => reach_isSome (hm.alive t there), hm.distinct⟩
  | destroyed server scheduled =>
    refine ⟨?_, hm.distinct⟩
    intro t there
    apply update_isSome (hm.alive t there)
    rintro rfl
    exact absurd there (hm.doomed t scheduled).2
  | alone => exact ⟨fun t there => update_isSome (hm.alive t there) fun _ => rfl, hm.distinct⟩
  | _ => exact ⟨hm.alive, hm.distinct⟩

theorem effect_doomed (hm : m.Sound) (he : Effect env m e u) :
    ∀ server ∈ u.doomed, server < u.nextServer ∧ server ∉ u.servers := by
  intro server there
  cases he with
  | added e s =>
    obtain ⟨below, unlisted⟩ := hm.doomed server there
    refine ⟨Nat.lt_succ_of_lt below, ?_⟩
    intro listed
    rcases List.mem_append.mp listed with old | new
    · exact unlisted old
    · have same := List.mem_singleton.mp new
      exact absurd same (Nat.ne_of_lt below)
  | refused =>
    obtain ⟨below, unlisted⟩ := hm.doomed server there
    exact ⟨Nat.lt_succ_of_lt below, unlisted⟩
  | removed name gone found =>
    rcases List.mem_append.mp there with old | new
    · obtain ⟨below, unlisted⟩ := hm.doomed server old
      refine ⟨below, ?_⟩
      intro listed
      exact unlisted (List.mem_of_mem_filter listed)
    · rw [List.mem_singleton.mp new]
      exact ⟨hm.listed (find_mem found), by simp⟩
  | destroyed => exact hm.doomed server (List.mem_of_mem_filter there)
  | _ => exact hm.doomed server there

/-- The registered game servers are among those announced. -/
theorem effect_announced (hm : m.Sound) (he : Effect env m e u) :
    ∀ iface server, u.gameServers.lookup iface = some server →
      u.interfaces.lookup iface = some server := by
  intro x t known
  have erased {iface : GameServerId}
      (left : (m.gameServers.erase iface).lookup x = some t) : m.interfaces.lookup x = some t := by
    by_cases same : x = iface
    · rw [same, AList.lookup_erase] at left
      cases left
    · rw [AList.lookup_erase_ne same] at left
      exact hm.announced x t left
  cases he with
  | registered gameServer server matched =>
    by_cases new : x = m.nextGameServer
    · rw [new, AList.lookup_insert] at known ⊢
      exact known
    · rw [AList.lookup_insert_ne new] at known ⊢
      exact hm.announced x t known
  | lost | lostAgain | quit => exact erased known
  | dropped iface server announced scheduled =>
    have other : x ≠ iface := by
      rintro rfl
      exact (hm.retired x scheduled).2 (lookup_mem known)
    rw [AList.lookup_erase_ne other]
    exact hm.announced x t known
  | _ => exact hm.announced x t known

/-- The numbers of the announced game servers and of their servers have been
handed out. -/
theorem effect_targets (hm : m.Sound) (he : Effect env m e u) :
    ∀ iface server, u.interfaces.lookup iface = some server →
      iface < u.nextGameServer ∧ server < u.nextServer := by
  intro x t known
  obtain ⟨servers, gameServers, -⟩ := effect_next he
  have before (old : m.interfaces.lookup x = some t) :
      x < u.nextGameServer ∧ t < u.nextServer := by
    obtain ⟨below, used⟩ := hm.targets x t old
    exact ⟨Nat.lt_of_lt_of_le below gameServers, Nat.lt_of_lt_of_le used servers⟩
  cases he with
  | registered gameServer server matched =>
    by_cases new : x = m.nextGameServer
    · rw [new, AList.lookup_insert] at known
      obtain rfl := Option.some.inj known
      exact ⟨new ▸ Nat.lt_succ_self _, hm.listed (matching_mem matched)⟩
    · rw [AList.lookup_insert_ne new] at known
      exact before known
  | dropped iface server =>
    by_cases same : x = iface
    · rw [same, AList.lookup_erase] at known
      cases known
    · rw [AList.lookup_erase_ne same] at known
      exact before known
  | _ => exact before known

theorem effect_retired (hm : m.Sound) (he : Effect env m e u) :
    ∀ iface ∈ u.deletions, iface < u.nextGameServer ∧ iface ∉ u.gameServers := by
  intro x there
  have erased {iface : GameServerId} (below : iface < m.nextGameServer)
      (there : x ∈ m.deletions ++ [iface]) :
      x < m.nextGameServer ∧ x ∉ m.gameServers.erase iface := by
    rcases List.mem_append.mp there with old | new
    · obtain ⟨used, gone⟩ := hm.retired x old
      refine ⟨used, ?_⟩
      intro left
      exact gone (AList.mem_erase.mp left).2
    · rw [List.mem_singleton.mp new]
      refine ⟨below, ?_⟩
      intro left
      exact (AList.mem_erase.mp left).1 rfl
  cases he with
  | registered gameServer server matched =>
    obtain ⟨below, gone⟩ := hm.retired x there
    refine ⟨Nat.lt_succ_of_lt below, ?_⟩
    intro left
    obtain new | old := (AList.mem_insert _).mp left
    · exact absurd new (Nat.ne_of_lt below)
    · exact gone old
  | unmatched =>
    obtain ⟨below, gone⟩ := hm.retired x there
    exact ⟨Nat.lt_succ_of_lt below, gone⟩
  | lost gameServer round error server pending => exact erased (hm.pending _ pending) there
  | lostAgain gameServer round error pending => exact erased (hm.pending _ pending) there
  | quit iface server announced => exact erased (hm.targets iface server announced).1 there
  | _ => exact hm.retired x there

theorem effect_pending (hm : m.Sound) (he : Effect env m e u) :
    ∀ call ∈ u.calls, call.1 < u.nextGameServer := by
  intro call there
  cases he with
  | registered | unmatched => exact Nat.lt_succ_of_lt (hm.pending call there)
  | pinged =>
    rcases List.mem_append.mp there with old | new
    · exact hm.pending call old
    · obtain ⟨gameServer, key, rfl⟩ := List.mem_map.mp new
      exact hm.registered (AList.mem_keys.mpr key)
  | answered | lost | lostAgain => exact hm.pending call (List.mem_of_mem_erase there)
  | _ => exact hm.pending call there

theorem effect_known (hm : m.Sound) (he : Effect env m e u) :
    ∀ server s, u.heap server = some s → ∀ iface ∈ s.status.tracked,
      iface < u.nextGameServer := by
  intro server s hs iface tracked
  obtain ⟨-, later, -⟩ := effect_next he
  obtain old | ⟨s', event, old, moves, new⟩ | ⟨-, brings⟩ := effect_heap hm he hs
  · have below := hm.known server s old iface tracked
    exact Nat.lt_of_lt_of_le below later
  · obtain before | ⟨gameServer, rfl⟩ := Server.step_tracked moves tracked
    · have below := hm.known server s' old iface before
      exact Nat.lt_of_lt_of_le below later
    · exact new iface gameServer rfl
  · obtain ⟨path, name, rfl⟩ := brought_created brings
    cases tracked

theorem effect_sound (hm : m.Sound) (he : Effect env m e u) : u.Sound where
  alive := (effect_listed hm he).1
  used := effect_used hm he
  distinct := (effect_listed hm he).2
  doomed := effect_doomed hm he
  announced := effect_announced hm he
  targets := effect_targets hm he
  retired := effect_retired hm he
  pending := effect_pending hm he
  known := effect_known hm he

theorem step_sound (hm : m.Sound) (hu : m.step env e = some u) : u.Sound :=
  effect_sound hm (step_effect hm.fresh hu)

/-! ## Runs -/

theorem run_sound {es : List ManagerEvent} (h : run env {} es = some m) : m.Sound := by
  apply Machine.run_invariant (P := Sound) _ init_sound h
  intro m e u hm hu
  exact step_sound hm hu

end

end Morgoth.ServerManager
