import Morgoth.Bookkeeping
import Morgoth.Starters

/-!
# Which server a game server belongs to

A game server is matched to a server by its location, and the manager keeps
only the names apart. The first of several servers at one path gets the game
servers of all of them.

* `matching_iff_pairwise`: in which states each server is the one that is
  matched to its own path;
* `routed_iff`: what a registration does to the servers;
* `routes_iff`: which servers may be added for all game servers to reach the
  server that has launched them.
-/

namespace Morgoth

/-- What the i-th starter has reported. -/
def Server.report (s : Server) (i : Nat) : Option (List StarterSignal) :=
  (s.starters[i]?).map (·.signals)

namespace Server

/-- On a registration every starter that is still connected reports it. -/
theorem gameServerOnline_report (h : Host) (iface : GameServerId) (gameServer : GameServer)
    (s : Server) (j : Nat) :
    (s.gameServerOnline h iface gameServer).report j =
      if j ∈ s.listening then (s.report j).map (· ++ [.started iface]) else s.report j := by
  unfold report
  rw [gameServerOnline_starter]
  by_cases heard : j ∈ s.listening
  · rw [if_pos heard, if_pos heard, Option.map_map, Option.map_map]
    rfl
  · rw [if_neg heard, if_neg heard]

theorem gameServerOnline_signals (h : Host) (iface : GameServerId) (gameServer : GameServer)
    (s : Server) :
    (s.gameServerOnline h iface gameServer).signals = s.signals ++ [.gameServerOnline iface] :=
  onlineSlots_keeps
    (P := fun t : Server => t.signals = s.signals ++ [ServerSignal.gameServerOnline iface])
    (fun _ ht => ht) (fun _ _ ht => ht) rfl

end Server

namespace ServerManager

/-- `iface` has caused `gameServerOnline` on the server and on no other, and
the starters that have reported `started` are its own, all those that were
waiting. -/
def RoutedTo (m u : ServerManager) (iface : GameServerId) (server : ServerId) : Prop :=
  ∀ t s s', m.heap t = some s → u.heap t = some s' →
    (t = server → s'.signals = s.signals ++ [.gameServerOnline iface] ∧
      ∀ i, s'.report i =
        if i ∈ s.listening then (s.report i).map (· ++ [.started iface]) else s.report i) ∧
    (t ≠ server → s'.signals = s.signals ∧ ∀ i, s'.report i = s.report i)

/-- Every valid server in `servers()` gets the game servers that its starters
launch: those located at its own path. -/
def Routes (env : Environment) (m : ServerManager) : Prop :=
  ∀ server s gameServer u, server ∈ m.servers → m.heap server = some s → s.valid = true →
    env.dir gameServer.gameLocation = env.dir s.path.toLocalFile →
    m.step env (.registerGameServer gameServer) = some u → RoutedTo m u m.nextGameServer server

/-- The directory of a server. -/
def directory (env : Environment) (m : ServerManager) (server : ServerId) : Option String :=
  (m.heap server).map fun s => env.dir s.path.toLocalFile

def IsValid (m : ServerManager) (server : ServerId) : Prop :=
  ∃ s, m.heap server = some s ∧ s.valid = true

/-- No valid server follows another one of the same directory. -/
def Unambiguous (env : Environment) (m : ServerManager) : Prop :=
  m.servers.Pairwise fun a b => m.IsValid b → m.directory env a ≠ m.directory env b

/-- A valid server is added only at a path where no other server is. -/
def AddsElsewhere (env : Environment) (m : ServerManager) (e : ManagerEvent) : Prop :=
  ∀ s, brought env m e = some s → m.find s.name = none → s.valid = true →
    ∀ t ∈ m.servers, m.directory env t ≠ some (env.dir s.path.toLocalFile)

/-- Searching a list for the first element alike to `b` finds `b`, for each
that matters, exactly if nothing before it is alike. -/
theorem find_self_iff_pairwise {α β : Type} [DecidableEq β] {key : α → β} {matters : α → Prop}
    {l : List α} (distinct : l.Nodup) :
    (∀ b ∈ l, matters b → l.find? (fun a => decide (key a = key b)) = some b) ↔
      l.Pairwise fun a b => matters b → key a ≠ key b := by
  induction l with
  | nil => simp
  | cons a l ih =>
    obtain ⟨once, distinct⟩ := List.nodup_cons.mp distinct
    rw [List.pairwise_cons, ← ih distinct]
    constructor
    · intro found
      have apart (b : α) (hb : b ∈ l) (hm : matters b) : key a ≠ key b := by
        intro alike
        have first := found b (List.mem_cons_of_mem _ hb) hm
        simp only [List.find?_cons, alike, decide_true] at first
        exact once ((Option.some.inj first) ▸ hb)
      refine ⟨apart, fun b hb hm => ?_⟩
      have later := found b (List.mem_cons_of_mem _ hb) hm
      simpa only [List.find?_cons, apart b hb hm, decide_false] using later
    · rintro ⟨apart, found⟩ b hb hm
      rcases List.mem_cons.mp hb with rfl | hb
      · simp only [List.find?_cons, decide_true]
      · simpa only [List.find?_cons, apart b hb hm, decide_false] using found b hb hm

variable {env : Environment} {m u : ServerManager}

/-- The search for a location is one for the directory of the server there. -/
theorem matching_eq (gameServer : GameServer) {b : ServerId}
    (located : some (env.dir gameServer.gameLocation) = m.directory env b) :
    m.matching env gameServer =
      m.servers.find? fun a => decide (m.directory env a = m.directory env b) := by
  unfold matching
  congr 1
  funext a
  rw [← located]
  unfold directory
  cases m.heap a with
  | none => simp
  | some s => simp [beq_eq_decide]

theorem matching_iff_pairwise (hm : m.Sound) :
    (∀ server s gameServer, server ∈ m.servers → m.heap server = some s → s.valid = true →
      env.dir gameServer.gameLocation = env.dir s.path.toLocalFile →
      m.matching env gameServer = some server) ↔ m.Unambiguous env := by
  unfold Unambiguous
  rw [← find_self_iff_pairwise hm.distinct]
  constructor
  · rintro matched b hb ⟨s, there, valid⟩
    have located : some (env.dir s.path.toLocalFile) = m.directory env b := by
      simp [directory, there]
    have here := matched b s { GameServer.sample with gameLocation := s.path.toLocalFile }
      hb there valid rfl
    rwa [matching_eq _ located] at here
  · intro found server s gameServer listed there valid at_path
    have located : some (env.dir gameServer.gameLocation) = m.directory env server := by
      simp [directory, there, at_path]
    rw [matching_eq gameServer located]
    exact found server listed ⟨s, there, valid⟩

/-- A game server goes to the server it is matched to, and nowhere else. -/
theorem routed_iff (hm : m.Sound) {gameServer : GameServer} {server : ServerId} {s : Server}
    (listed : server ∈ m.servers) (there : m.heap server = some s)
    (located : env.dir gameServer.gameLocation = env.dir s.path.toLocalFile)
    (hu : m.step env (.registerGameServer gameServer) = some u) :
    RoutedTo m u m.nextGameServer server ↔ m.matching env gameServer = some server := by
  cases step_effect hm.fresh hu with
  | unmatched _ stray =>
    exfalso
    have unlike := List.find?_eq_none.mp stray server listed
    simp [there, located] at unlike
  | refused _ _ brings | added _ _ brings => cases brings
  | registered _ chosen matched =>
    obtain ⟨s', alive⟩ := Option.isSome_iff_exists.mp (hm.alive chosen (matching_mem matched))
    have after := reach_there alive
      (Server.gameServerOnline (env.host chosen) m.nextGameServer gameServer)
    have online := Server.gameServerOnline_signals (env.host chosen) m.nextGameServer gameServer s'
    rw [matched, Option.some.injEq]
    constructor
    · intro routed
      by_contra elsewhere
      have silent := ((routed chosen s' _ alive after).2 elsewhere).1
      rw [online] at silent
      simp at silent
    · rintro rfl t s₁ s₂ before later
      refine ⟨?_, fun other => ?_⟩
      · rintro rfl
        obtain rfl := Option.some.inj (alive.symm.trans before)
        obtain rfl := Option.some.inj (after.symm.trans later)
        exact ⟨online, Server.gameServerOnline_report _ _ _ s'⟩
      · have same := (reach_elsewhere other _).symm.trans later
        obtain rfl := Option.some.inj (before.symm.trans same)
        exact ⟨rfl, fun _ => rfl⟩

theorem routes_iff_unambiguous (hm : m.Sound) : m.Routes env ↔ m.Unambiguous env := by
  rw [← matching_iff_pairwise hm]
  constructor
  · intro routes server s gameServer listed there valid located
    exact (routed_iff hm listed there located rfl).mp
      (routes server s gameServer _ listed there valid located rfl)
  · intro matched server s gameServer u listed there valid located hu
    exact (routed_iff hm listed there located hu).mpr
      (matched server s gameServer listed there valid located)

/-! ## Runs -/

theorem effect_directory {e : ManagerEvent} (hm : m.Sound) (he : Effect env m e u) {t : ServerId}
    (listed : t ∈ m.servers) (alive : (u.heap t).isSome) :
    u.directory env t = m.directory env t ∧ (u.IsValid t → m.IsValid t) := by
  obtain ⟨s, hs⟩ := Option.isSome_iff_exists.mp alive
  unfold directory IsValid
  rw [hs]
  obtain old | ⟨s', event, old, moves, -⟩ | ⟨rfl, -⟩ := effect_heap hm he hs
  · rw [old]
    exact ⟨rfl, id⟩
  · obtain ⟨valid, path, -, -⟩ := Server.step_frame moves
    rw [old]
    refine ⟨by simp [path], fun ⟨s'', same, ok⟩ => ⟨s', rfl, ?_⟩⟩
    obtain rfl := Option.some.inj same
    exact valid.symm.trans ok
  · exact absurd listed hm.fresh

/-- The servers that stay stay apart. -/
theorem Unambiguous.kept {e : ManagerEvent} (hm : m.Sound) (hi : m.Unambiguous env)
    (he : Effect env m e u) {l : List ServerId} (fewer : l.Sublist m.servers)
    (alive : ∀ t ∈ l, (u.heap t).isSome) :
    l.Pairwise fun a b => u.IsValid b → u.directory env a ≠ u.directory env b := by
  refine (hi.sublist fewer).imp_of_mem fun {a b} ha hb apart valid => ?_
  obtain ⟨hda, -⟩ := effect_directory hm he (fewer.subset ha) (alive a ha)
  obtain ⟨hdb, before⟩ := effect_directory hm he (fewer.subset hb) (alive b hb)
  rw [hda, hdb]
  exact apart (before valid)

theorem effect_unambiguous {e : ManagerEvent} (hm : m.Sound) (hi : m.Unambiguous env)
    (he : Effect env m e u) : u.Unambiguous env ↔ m.AddsElsewhere env e := by
  have alive := (effect_listed hm he).1
  have kept (servers : u.servers.Sublist m.servers) (brings : brought env m e = none) :
      u.Unambiguous env ↔ m.AddsElsewhere env e := by
    refine iff_of_true (hi.kept hm he servers alive) fun s brings' => ?_
    rw [brings] at brings'
    cases brings'
  cases he with
  | added e s brings free =>
    have he := Effect.added e s brings free
    have there : Function.update m.heap m.nextServer (some s) m.nextServer = some s :=
      Function.update_self ..
    have old (t : ServerId) (listed : t ∈ m.servers) :=
      (effect_directory hm he listed (alive t (List.mem_append_left _ listed))).1
    have new : directory env { m with
        heap := Function.update m.heap m.nextServer (some s)
        nextServer := m.nextServer + 1
        servers := m.servers ++ [m.nextServer]
        signals := m.signals ++ [.serverAdded m.nextServer] } m.nextServer =
          some (env.dir s.path.toLocalFile) := by
      simp [directory]
    unfold Unambiguous
    rw [List.pairwise_append]
    constructor
    · rintro ⟨-, -, apart⟩ s' brings' - valid t listed
      obtain rfl := Option.some.inj (brings.symm.trans brings')
      have differ := apart t listed m.nextServer List.mem_cons_self ⟨s, there, valid⟩
      rwa [old t listed, new] at differ
    · intro elsewhere
      refine ⟨?_, List.pairwise_singleton _ _, fun a ha b hb valid => ?_⟩
      · exact hi.kept hm he (List.Sublist.refl _)
          fun t listed => alive t (List.mem_append_left _ listed)
      · obtain rfl := List.mem_singleton.mp hb
        obtain ⟨s', same, ok⟩ := valid
        obtain rfl := Option.some.inj (there.symm.trans same)
        rw [old a ha, new]
        exact elsewhere s brings free ok a ha
  | refused e s brings taken =>
    refine iff_of_true hi fun s' brings' free => ?_
    obtain rfl := Option.some.inj (brings.symm.trans brings')
    rw [free] at taken
    cases taken
  | removed => exact kept List.filter_sublist rfl
  | _ => exact kept (List.Sublist.refl _) rfl

theorem step_routes {e : ManagerEvent} (hm : m.Sound) (hi : m.Routes env)
    (hu : m.step env e = some u) : u.Routes env ↔ m.AddsElsewhere env e := by
  have he := step_effect hm.fresh hu
  rw [routes_iff_unambiguous (effect_sound hm he)]
  exact effect_unambiguous hm ((routes_iff_unambiguous hm).mp hi) he

/-- Throughout a run every game server reaches the server that has launched it,
exactly if no valid server has been added at the path of another one. -/
theorem routes_iff (env : Environment) (es : List ManagerEvent) :
    Machine.Throughout (step env) (Routes env) {} es ↔
      Machine.EachStep (step env) (AddsElsewhere env) {} es := by
  apply Machine.throughout_iff_eachStep (A := Sound)
  · intro m e _ u hm hu
    exact step_sound hm hu
  · intro m e _ u hm hi hu
    exact step_routes hm hi hu
  · exact init_sound
  · intro server s gameServer u listed
    exact absurd listed List.not_mem_nil

/-- Two servers at one path: the game server that the second one launches is
announced on the first, and the starter of the second waits in vain. -/
theorem second_server_at_path_unheard :
    ∃ m u s s₀ s₁, run .ideal {} [.addServer { scheme := "file", path := "/srv/tf2" } "one",
        .addServer { scheme := "file", path := "/srv/tf2" } "two", .server 1 .start] = some m ∧
      m.heap 1 = some s ∧ s.state = .starting ∧ s.path.toLocalFile = GameServer.sample.gameLocation ∧
      m.step .ideal (.registerGameServer .sample) = some u ∧
      u.heap 0 = some s₀ ∧ s₀.signals = [.gameServerOnline 0] ∧
      u.heap 1 = some s₁ ∧ s₁.signals = [] ∧ s₁.report 0 = some [.starting] ∧
      s₁.state = .starting ∧ ¬ m.Routes .ideal := by
  refine ⟨_, _, _, _, _, rfl, rfl, rfl, by decide, rfl, rfl, rfl, rfl, rfl, rfl, rfl,
    fun routes => ?_⟩
  have routed := routes 1 _ .sample _ (by decide) rfl rfl (by decide) rfl 1 _ _ rfl rfl
  cases (routed.1 rfl).1

end ServerManager

end Morgoth
