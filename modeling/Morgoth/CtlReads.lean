import Morgoth.CtlAmid

/-!
# The reading commands amid what others do

* `list_amid`: the list of the servers is that of one moment;
* `status_amid`: what is printed of a server was so at one moment or another;
* `console_amid`: whose session the console is attached to.
-/

namespace Morgoth

open Bus (serve)
open QString (size)
open Relation (ReflTransGen)

/-! ## list -/

namespace ListCommand

open QTextStream (widest)

/-! ### The table -/

theorem size_line {namePadding pathPadding : Nat} {row : String × String}
    (name : size row.1 ≤ namePadding) (path : size row.2 ≤ pathPadding) :
    size (line namePadding pathPadding row) = namePadding + 3 + pathPadding + 1 := by
  have blank : size " " = 1 := rfl
  have newline : size "\n" = 1 := rfl
  simp only [line, QString.size_append, QTextStream.size_center, blank, newline]
  omega

/-- There is a header, so there is a longest name and a longest path. -/
theorem table_lines (rows : List (String × String)) :
    ∃ namePadding pathPadding,
      table rows = some ((header :: sorted rows).map (line namePadding pathPadding)) ∧
      ∀ text ∈ (header :: sorted rows).map (line namePadding pathPadding),
        size text = namePadding + 3 + pathPadding + 1 := by
  have some_width (texts : List String) (some_text : texts ≠ []) : ∃ w, widest texts = some w :=
    Option.ne_none_iff_exists'.mp (mt QTextStream.widest_eq_none.mp some_text)
  obtain ⟨namePadding, names⟩ := some_width ((header :: sorted rows).map Prod.fst) (by simp)
  obtain ⟨pathPadding, paths⟩ := some_width ((header :: sorted rows).map Prod.snd) (by simp)
  refine ⟨namePadding, pathPadding, by simp only [table, names, paths]; rfl, ?_⟩
  intro text listed
  obtain ⟨row, there, rfl⟩ := List.mem_map.mp listed
  exact size_line (QTextStream.size_le_widest names (List.mem_map_of_mem there))
    (QTextStream.size_le_widest paths (List.mem_map_of_mem there))

theorem sorted_perm (rows : List (String × String)) : (sorted rows).Perm rows :=
  List.mergeSort_perm _ _

theorem sorted_ascending (rows : List (String × String)) :
    (sorted rows).Pairwise fun a b => QString.lt b.1 a.1 = false := by
  refine (List.pairwise_mergeSort (fun a b c ab bc => ?_) (fun a b => ?_) rows).imp fun le => by
    simpa using le
  · simp only [Bool.not_eq_true'] at ab bc ⊢
    exact QString.lt_trans ab bc
  · simpa using QString.lt_total a.1 b.1

/-! ### The rows -/

variable {env : Environment} {b t u : Bus} {name : String} {server : ServerId}

/-- Others remove no server, and there is room for the ones that they add. -/
def Spares (env : Environment) (b u : Bus) : Prop :=
  ∃ e : ManagerEvent, b.step env e = some u ∧ (∀ name, e ≠ .remove name) ∧ b.FindsRoom env e

def pathOf (env : Environment) (b : Bus) (name : String) : String :=
  (((b.manager.find name).bind b.manager.heap).map fun s => env.urlToString s.path).getD ""

theorem complete_spared (b u : Bus) (hb : b.Complete) (spares : Spares env b u) : u.Complete := by
  obtain ⟨e, hu, -, room⟩ := spares
  exact (Bus.step_complete hb hu).mpr room

theorem path_kept {s : Server} (go : ReflTransGen (Spares env) t u)
    (ht : t.Offers name server s) : ∃ s', u.Offers name server s' ∧ s'.path = s.path := by
  induction go with
  | refl => exact ⟨s, ht, rfl⟩
  | tail _ spares ih =>
    obtain ⟨s', offers, path⟩ := ih
    obtain ⟨e, hu, kept, -⟩ := spares
    obtain ⟨s'', offers', how⟩ := Bus.step_offers offers hu (kept name)
    refine ⟨s'', offers', ?_⟩
    rcases how with rfl | ⟨event, steps⟩
    · exact path
    · exact (Server.step_frame steps).2.1.trans path

theorem row_ensures (ht : t.Complete) (listed : name ∈ t.manager.serverNames)
    (go : ReflTransGen (Spares env) t u) :
    (row name).Ensures (serve env) (Spares env)
      (fun a u => a = (name, pathOf env t name) ∧ ReflTransGen (Spares env) t u) u := by
  obtain ⟨server, s, offers⟩ := ht.offered name listed
  have path : pathOf env t name = env.urlToString s.path := by
    simp [pathOf, offers.found, offers.there]
  have stable (v w : Bus) (hv : ReflTransGen (Spares env) t v) (step : Spares env v w) :
      ReflTransGen (Spares env) t w := hv.tail step
  refine Dialogue.ensures_known stable go (objectPath ("/servers/" ++ name)) (fun v hv => ?_)
    fun v hv => ?_
  · obtain ⟨s', offers', -⟩ := path_kept hv offers
    exact offers'.serve_serverPath
  refine Dialogue.ensures_known stable hv name (fun w hw => ?_) fun w hw => ?_
  · obtain ⟨s', offers', -⟩ := path_kept hw offers
    exact offers'.serve_name
  refine Dialogue.ensures_known stable hw (pathOf env t name) (fun x hx => ?_) fun x hx => ?_
  · obtain ⟨s', offers', same⟩ := path_kept hx offers
    refine Prod.ext ?_ rfl
    simp [serve, offers'.serverAt, path, same]
  exact Dialogue.ensures_done stable hx fun y hy => ⟨rfl, hy⟩

/-- What is printed for the servers that there are at a moment: they stand by their names,
in columns. -/
def Shows (env : Environment) (t : Bus) (r : Option CommandResult) : Prop :=
  (t.manager.serverNames = [] → r = some { out := ["No servers installed.\n"] }) ∧
  (t.manager.serverNames ≠ [] → ∃ rows namePadding pathPadding width,
    rows.Perm (t.manager.serverNames.map fun name => (name, pathOf env t name)) ∧
    rows.Pairwise (fun a b => QString.lt b.1 a.1 = false) ∧
    r = some { out := (header :: rows).map (line namePadding pathPadding) } ∧
    ∀ text ∈ (header :: rows).map (line namePadding pathPadding), size text = width)

theorem shows_rows (env : Environment) (some_server : t.manager.serverNames ≠ []) :
    Shows env t ((table (t.manager.serverNames.map fun name => (name, pathOf env t name))).map
      fun out => { out }) := by
  obtain ⟨namePadding, pathPadding, lines, widths⟩ :=
    table_lines (t.manager.serverNames.map fun name => (name, pathOf env t name))
  refine ⟨fun empty => absurd empty some_server, fun _ => ?_⟩
  exact ⟨_, namePadding, pathPadding, _, sorted_perm _, sorted_ascending _, by rw [lines]; rfl,
    widths⟩

theorem list_ensures (ht : t.Complete) :
    Dialogue.Ensures (serve env) (Spares env)
      (fun r u => Shows env t r ∧ ReflTransGen (Spares env) t u)
      (if t.manager.serverNames.isEmpty then exits ["No servers installed.\n"] 0
        else (Dialogue.forEach row t.manager.serverNames).bind fun rows =>
          Dialogue.done ((table rows).map fun out => { out })) t := by
  have stable (v w : Bus) (hv : ReflTransGen (Spares env) t v) (step : Spares env v w) :
      ReflTransGen (Spares env) t w := hv.tail step
  by_cases none : t.manager.serverNames = []
  · rw [if_pos (List.isEmpty_iff.mpr none)]
    exact Dialogue.ensures_done stable .refl fun v later =>
      ⟨⟨fun _ => rfl, fun some_server => absurd none some_server⟩, later⟩
  · rw [if_neg (mt List.isEmpty_iff.mp none), Dialogue.ensures_bind]
    have rows := Dialogue.ensures_forEach (fun name => (name, pathOf env t name)) stable
      (fun name listed v hv => row_ensures ht listed hv) .refl
    refine rows.mono fun rows v ⟨same, hv⟩ => ?_
    rw [same]
    exact Dialogue.ensures_done stable hv fun w later => ⟨shows_rows env none, later⟩

/-- The list is that of one moment, whatever others do as long as they remove no server. -/
theorem list_amid {r : Option CommandResult} (hb : b.Complete)
    (ends : execute.Amid (serve env) (Spares env) b r u) :
    ∃ t, ReflTransGen (Spares env) b t ∧ ReflTransGen (Spares env) t u ∧
      Shows env t r := by
  suffices ensures : execute.Ensures (serve env) (Spares env)
      (fun r u => ∃ t, ReflTransGen (Spares env) b t ∧
        ReflTransGen (Spares env) t u ∧ Shows env t r) b from
    (Dialogue.ensures_iff execute).mp ensures r u ends
  intro t go
  have complete : t.Complete := by
    clear ends
    induction go with
    | refl => exact hb
    | tail _ spares ih => exact complete_spared _ _ ih spares
  exact (list_ensures complete).mono fun r u ⟨shows, later⟩ => ⟨t, go, later, shows⟩

/-- A server that is added before the first request. -/
theorem list_amid_sample : ∃ r u, u.manager.serverNames = ["tf2", "css"] ∧
    ∃ t, ReflTransGen (Spares .ideal) Bus.sample t ∧ ReflTransGen (Spares .ideal) t u ∧
      Shows .ideal t r := by
  have spares : Spares .ideal Bus.sample Bus.second := by
    refine ⟨_, Bus.sample_second, by simp, fun s brings _ => ?_⟩
    obtain rfl := Option.some.inj brings
    decide
  have ends : execute.Amid (serve .ideal) (Spares .ideal) Bus.sample _ _ :=
    .earlier (.single spares) (Dialogue.alone_amid (serve .ideal) _ Bus.second)
  exact ⟨_, _, rfl, list_amid Bus.sample_complete ends⟩

end ListCommand

/-! ## A server that stays -/

namespace Bus

variable {env : Environment} {b t u : Bus} {name : String} {server : ServerId} {s : Server}

/-- Others do not remove the server. -/
def Spares (env : Environment) (name : String) (b u : Bus) : Prop :=
  ∃ e : ManagerEvent, b.step env e = some u ∧ e ≠ .remove name

/-- At a moment between the two, the server was so. -/
def Once (env : Environment) (name : String) (server : ServerId) (b u : Bus)
    (p : Server → Prop) : Prop :=
  ∃ t s, ReflTransGen (Spares env name) b t ∧ ReflTransGen (Spares env name) t u ∧
    t.Offers name server s ∧ p s

theorem later_spared (b t u : Bus) (go : ReflTransGen (Spares env name) b t)
    (spares : Spares env name t u) : ReflTransGen (Spares env name) b u := go.tail spares

theorem offers_spared (hb : b.Offers name server s) (go : ReflTransGen (Spares env name) b t) :
    ∃ s', t.Offers name server s' ∧ s'.valid = s.valid ∧ s'.tmux.name = s.tmux.name := by
  induction go with
  | refl => exact ⟨s, hb, rfl, rfl⟩
  | tail _ spares ih =>
    obtain ⟨s', offers, valid, named⟩ := ih
    obtain ⟨e, hu, kept⟩ := spares
    obtain ⟨s'', offers', how⟩ := step_offers offers hu kept
    refine ⟨s'', offers', ?_⟩
    rcases how with rfl | ⟨event, steps⟩
    · exact ⟨valid, named⟩
    · have keys := offers.orderly.configured server s' offers.there
      exact ⟨(Server.step_frame steps).1.trans valid,
        (Server.step_sessionName keys steps).trans named⟩

theorem pathless_spared (b u : Bus) (hb : b.Pathless name) (spares : Spares env name b u) :
    u.Pathless name := by
  obtain ⟨e, hu, kept⟩ := spares
  exact step_pathless hb hu kept

/-- The requests that the commands begin with, for a server that others do not remove. -/
theorem ensures_spared {α : Type} {post : α → Bus → Prop} (hb : b.Offers name server s)
    {missing : Dialogue Request Request.Answer α}
    {next : String → Dialogue Request Request.Answer α}
    (rest : ∀ t, ReflTransGen (Spares env name) b t →
      (next (objectPath ("/servers/" ++ name))).Ensures (serve env) (Spares env name) post t) :
    Dialogue.Ensures (serve env) (Spares env name) post
      (Dialogue.ask .servers fun (servers : List String) =>
        if name ∉ servers then missing else Dialogue.ask (.serverPath name) next) b := by
  refine ensures_server (objectPath ("/servers/" ++ name)) (later_spared b) .refl
    (fun t ht => ?_) rest
  obtain ⟨s', offers, -⟩ := offers_spared hb ht
  exact ⟨offers.listed, offers.serverPath⟩

theorem run_spares {es : List ManagerEvent} (hu : run env b es = some u)
    (kept : ∀ e ∈ es, e ≠ .remove name) : ReflTransGen (Spares env name) b u := by
  induction es generalizing b with
  | nil =>
    obtain rfl := Option.some.inj hu
    exact .refl
  | cons e es ih =>
    obtain ⟨t, first, rest⟩ := Option.bind_eq_some_iff.mp hu
    exact .head ⟨e, first, kept e List.mem_cons_self⟩
      (ih rest fun e listed => kept e (List.mem_cons_of_mem _ listed))

theorem sample_plays : ReflTransGen (Spares .ideal "tf2") sample playing :=
  run_spares sample_playing (by simp [play])

end Bus

open Bus (Spares Once later_spared offers_spared pathless_spared ensures_spared sample_plays)

/-! ## status -/

namespace StatusCommand

variable {env : Environment} {b t u : Bus} {name : String} {server : ServerId} {s : Server}

def headline (name : String) (state : State) : String := name ++ ": " ++ stateText state ++ "\n"

/-- What is printed of a running server, as it was at one moment or another. -/
def Details (env : Environment) (name : String) (server : ServerId) (b u : Bus)
    (details : List String) : Prop :=
  ∃ hostname map playerCount maxPlayers players,
    details = ["    " ++ hostname ++ " " ++ map ++ " " ++ toString playerCount ++ "/" ++
      toString maxPlayers ++ "\n"] ++ players.map (fun player => " " ++ player.name ++ "\n") ∧
    Once env name server b u (·.status.d.hostname = hostname) ∧
    Once env name server b u (·.status.d.map = map) ∧
    Once env name server b u (·.status.d.playerCount = playerCount) ∧
    Once env name server b u (·.status.d.maxPlayers = maxPlayers) ∧
    Once env name server b u (·.status.d.players = players)

theorem printStatus_ensures (ht : t.Offers name server s) (valid : s.valid = true)
    (out : List String) :
    (printStatus (objectPath ("/servers/" ++ name)) out).Ensures (serve env) (Spares env name)
      (fun r u => ReflTransGen (Spares env name) t u ∧ ∃ details,
        r = some { out := out ++ details } ∧ Details env name server t u details) t := by
  have status (v : Bus) (go : ReflTransGen (Spares env name) t v) : ∃ s', v.Offers name server s' ∧
      v.statusAt (objectPath ("/servers/" ++ name ++ "/status")) = some s'.status.d := by
    obtain ⟨s', offers, same, -⟩ := offers_spared ht go
    exact ⟨s', offers, offers.statusAt (same.trans valid)⟩
  refine Dialogue.ensures_known (later_spared t) .refl
    (objectPath ("/servers/" ++ name ++ "/status")) (fun v hv => ?_) fun v hv => ?_
  · obtain ⟨s', offers, same, -⟩ := offers_spared ht hv
    exact offers.serve_statusPath (same.trans valid)
  -- the five moments at which something is read
  intro t₁ go₁ t₂ go₂ t₃ go₃ t₄ go₄ t₅ go₅ u go
  have to₄ := go₅.trans go
  have to₃ := go₄.trans to₄
  have to₂ := go₃.trans to₃
  have to₁ := go₂.trans to₂
  have h₁ := hv.trans go₁
  have h₂ := h₁.trans go₂
  have h₃ := h₂.trans go₃
  have h₄ := h₃.trans go₄
  have h₅ := h₄.trans go₅
  obtain ⟨s₁, offers₁, at₁⟩ := status t₁ h₁
  obtain ⟨s₂, offers₂, at₂⟩ := status t₂ h₂
  obtain ⟨s₃, offers₃, at₃⟩ := status t₃ h₃
  obtain ⟨s₄, offers₄, at₄⟩ := status t₄ h₄
  obtain ⟨s₅, offers₅, at₅⟩ := status t₅ h₅
  have together (first rest : List String) : some (CommandResult.mk (out ++ first ++ rest) 0) =
      some { out := out ++ (first ++ rest) } := by
    rw [List.append_assoc]
  refine ⟨h₅.trans go, _, together _ _, _, _, _, _, _, rfl, ?_, ?_, ?_, ?_, ?_⟩
  · exact ⟨t₁, s₁, h₁, to₁, offers₁, by simp [serve, at₁]⟩
  · exact ⟨t₂, s₂, h₂, to₂, offers₂, by simp [serve, at₂]⟩
  · exact ⟨t₃, s₃, h₃, to₃, offers₃, by simp [serve, at₃]⟩
  · exact ⟨t₄, s₄, h₄, to₄, offers₄, by simp [serve, at₄]⟩
  · exact ⟨t₅, s₅, h₅, go, offers₅, by simp [serve, at₅]⟩

/-- What is printed of a valid server: its state, and its details from the moment on at
which its state is read again, if it is running then. -/
def Shows (env : Environment) (name : String) (server : ServerId) (b u : Bus)
    (r : Option CommandResult) : Prop :=
  ∃ t s state details, ReflTransGen (Spares env name) b t ∧ ReflTransGen (Spares env name) t u ∧
    t.Offers name server s ∧ Once env name server b t (·.state = state) ∧
    r = some { out := headline name state :: details } ∧
    ((s.state ≠ .running ∧ details = []) ∨
      (s.state = .running ∧ Details env name server t u details))

theorem printState_ensures (hb : b.Offers name server s) (valid : s.valid = true) :
    (printState (objectPath ("/servers/" ++ name))).Ensures (serve env) (Spares env name)
      (fun r u => Shows env name server b u r) b := by
  refine Dialogue.ensures_known (later_spared b) .refl
    (objectPath ("/servers/" ++ name ++ "/coordinator")) (fun v hv => ?_) fun v hv => ?_
  · obtain ⟨s', offers, same, -⟩ := offers_spared hb hv
    exact offers.serve_coordinatorPath (same.trans valid)
  intro t₁ go₁
  have h₁ := hv.trans go₁
  obtain ⟨s₁, offers₁, same₁, -⟩ := offers_spared hb h₁
  rw [offers₁.serve_state (same₁.trans valid)]
  refine Dialogue.ensures_known (later_spared t₁) .refl name (fun w hw => ?_) fun w hw => ?_
  · obtain ⟨s', offers, -⟩ := offers_spared offers₁ hw
    exact offers.serve_name
  intro t₂ go₂
  have h₂ := hw.trans go₂
  obtain ⟨s₂, offers₂, same₂, -⟩ := offers_spared hb (h₁.trans h₂)
  rw [offers₂.serve_state (same₂.trans valid)]
  have headline : Once env name server b t₂ (·.state = s₁.state) := ⟨t₁, s₁, h₁, h₂, offers₁, rfl⟩
  dsimp only
  split
  case isTrue up =>
    refine (printStatus_ensures offers₂ (same₂.trans valid) _).mono fun r u status => ?_
    obtain ⟨go, details, printed, shown⟩ := status
    exact ⟨t₂, s₂, s₁.state, details, h₁.trans h₂, go, offers₂, headline, printed, .inr ⟨up, shown⟩⟩
  case isFalse down =>
    intro u go
    exact ⟨t₂, s₂, s₁.state, [], h₁.trans h₂, go, offers₂, headline, rfl, .inl ⟨down, rfl⟩⟩

theorem offered_ensures (rest : List String) (hb : b.Offers name server s) :
    (execute (name :: rest)).Ensures (serve env) (Spares env name)
      (fun r u => (s.valid = false → r = some { out := [name ++ ": invalid\n"] }) ∧
        (s.valid = true → Shows env name server b u r)) b := by
  refine ensures_spared hb fun t ht => ?_
  refine Dialogue.ensures_known (later_spared b) ht s.valid (fun v hv => ?_) fun v hv => ?_
  · obtain ⟨s', offers, same, -⟩ := offers_spared hb hv
    rw [← same]
    exact offers.serve_valid
  cases valid : s.valid with
  | false =>
    refine Dialogue.ensures_known (later_spared b) hv name (fun w hw => ?_) fun w hw => ?_
    · obtain ⟨s', offers, -⟩ := offers_spared hb hw
      exact offers.serve_name
    · exact Dialogue.ensures_done (later_spared b) hw fun _ _ =>
        ⟨fun _ => rfl, fun up => absurd up Bool.false_ne_true⟩
  | true =>
    obtain ⟨s', offers, same, -⟩ := offers_spared hb hv
    refine (printState_ensures offers (same.trans valid)).mono fun r u shows => ?_
    refine ⟨fun invalid => absurd invalid.symm Bool.false_ne_true, fun _ => ?_⟩
    obtain ⟨t', s', state, details, go, on, offers', ⟨t₁, s₁, before, after, held⟩, shown⟩ := shows
    exact ⟨t', s', state, details, hv.trans go, on, offers',
      ⟨t₁, s₁, hv.trans before, after, held⟩, shown⟩

/-- Without a path, the server is nobody, and invalid. -/
theorem pathless_ensures (rest : List String) (hb : b.Pathless name) :
    (execute (name :: rest)).Ensures (serve env) (Spares env name)
      (fun r _ => r = some { out := [": invalid\n"] }) b := by
  refine ensures_server "" pathless_spared hb (fun t ht => ⟨ht.listed, ht.serverPath⟩)
    fun t ht => ?_
  refine Dialogue.ensures_known pathless_spared ht false (fun u hu => hu.orderly.serve_valid)
    fun u hu => ?_
  refine Dialogue.ensures_known pathless_spared hu "" (fun v hv => hv.orderly.serve_name)
    fun v hv => ?_
  exact Dialogue.ensures_done pathless_spared hv fun _ _ => rfl

/-- What is printed of a server that others do not remove was so at one moment or
another. A server whose name makes no path is invalid to the command. -/
theorem status_amid {r : Option CommandResult} (rest : List String) (hb : b.Orderly)
    (found : b.manager.find name = some server)
    (ends : (execute (name :: rest)).Amid (serve env) (Spares env name) b r u) :
    (∀ s, b.Offers name server s →
      (s.valid = false → r = some { out := [name ++ ": invalid\n"] }) ∧
      (s.valid = true → Shows env name server b u r)) ∧
    (validPath ("/servers/" ++ name) = false → r = some { out := [": invalid\n"] }) := by
  constructor
  · exact fun s offers => (Dialogue.ensures_iff _).mp (offered_ensures rest offers) r u ends
  · exact fun invalid =>
      (Dialogue.ensures_iff _).mp (pathless_ensures rest ⟨hb, ⟨server, found⟩, invalid⟩) r u ends

/-- Others bring the server up before the first request. -/
theorem status_amid_sample :
    Shows .ideal "tf2" 0 Bus.sample ((execute ["tf2"]).alone (serve .ideal) Bus.playing).2
      ((execute ["tf2"]).alone (serve .ideal) Bus.playing).1 ∧
    ((execute ["tf2"]).alone (serve .ideal) Bus.playing).1 =
      some { out := ["tf2: running\n", "     cp_badlands 0/24\n"] } ∧
    ((execute ["my-fancy-server"]).alone (serve .ideal) Bus.fancy).1 =
      some { out := [": invalid\n"] } := by
  refine ⟨?_, rfl, ?_⟩
  · obtain ⟨s, offers, valid, -⟩ := Bus.sample_offers
    have ends := status_amid [] offers.orderly offers.found (.earlier sample_plays
      (Dialogue.alone_amid (serve .ideal) (execute ["tf2"]) Bus.playing))
    exact (ends.1 s offers).2 valid
  · exact (status_amid [] Bus.fancy_orderly Bus.fancy_found
      (Dialogue.alone_amid (serve .ideal) _ Bus.fancy)).2 (by decide)

end StatusCommand

/-! ## console -/

namespace ConsoleCommand

variable {env : Environment} {b t u : Bus} {name : String} {server : ServerId} {s : Server}
  {cleanPath : String → String} {fileExists : String → Bool} {path : String}

/-- The process becomes a tmux client, if there is a tmux. -/
def attaches (tmux : Option String) (session : String) : Outcome :=
  match tmux with
  | none => .fatal
  | some tmux => .execve tmux [tmux, "attach-session", "-t", session]

/-- The command attaches to the session of the server, which was running, or says that
it is not running, as it was not. -/
def Attaches (env : Environment) (tmux : Option String) (name : String) (server : ServerId)
    (s : Server) (b u : Bus) (r : Outcome) : Prop :=
  (r = attaches tmux s.tmux.name ∧ Once env name server b u (·.state = .running)) ∨
    (r = .exits (notRunning name) ∧ Once env name server b u (·.state ≠ .running))

theorem valid_ensures (rest : List String) (hb : b.Offers name server s) (valid : s.valid = true) :
    (execute cleanPath fileExists path (name :: rest)).Ensures (serve env) (Spares env name)
      (fun r u => Attaches env (tmuxExec cleanPath fileExists path) name server s b u r) b := by
  refine ensures_spared hb fun t ht => ?_
  refine Dialogue.ensures_known (later_spared b) ht
    (objectPath ("/servers/" ++ name ++ "/coordinator")) (fun v hv => ?_) fun v hv => ?_
  · obtain ⟨s', offers, same, -⟩ := offers_spared hb hv
    exact offers.serve_coordinatorPath (same.trans valid)
  intro t₁ go₁
  have h₁ := hv.trans go₁
  obtain ⟨s₁, offers₁, same₁, -⟩ := offers_spared hb h₁
  rw [offers₁.serve_state (same₁.trans valid)]
  dsimp only
  split
  case isTrue down =>
    exact fun u go => .inr ⟨rfl, t₁, s₁, h₁, go, offers₁, down⟩
  case isFalse up =>
    have running := not_not.mp up
    cases tmuxExec cleanPath fileExists path with
    | none => exact fun u go => .inl ⟨rfl, t₁, s₁, h₁, go, offers₁, running⟩
    | some tmux =>
      intro t₂ go₂
      have h₂ := h₁.trans go₂
      obtain ⟨s₂, offers₂, same₂, named⟩ := offers_spared hb h₂
      rw [offers₂.serve_sessionName (same₂.trans valid), named]
      exact fun u go => .inl ⟨rfl, t₁, s₁, h₁, go₂.trans go, offers₁, running⟩

/-- A server that is not valid has no coordinator, so it is offline to the command. -/
theorem invalid_ensures (rest : List String) (hb : b.Offers name server s)
    (invalid : s.valid = false) :
    (execute cleanPath fileExists path (name :: rest)).Ensures (serve env) (Spares env name)
      (fun r _ => r = .exits (notRunning name)) b := by
  refine ensures_spared hb fun t ht => ?_
  refine Dialogue.ensures_known (later_spared b) ht "" (fun v hv => ?_) fun v hv => ?_
  · obtain ⟨s', offers, same, -⟩ := offers_spared hb hv
    exact offers.serve_coordinatorPath_invalid (same.trans invalid)
  refine Dialogue.ensures_known (later_spared b) hv .offline (fun w hw => ?_) fun w hw => ?_
  · obtain ⟨s', offers, -⟩ := offers_spared hb hw
    exact offers.orderly.serve_state
  · exact Dialogue.ensures_done (later_spared b) hw fun _ _ => rfl

theorem pathless_ensures (rest : List String) (hb : b.Pathless name) :
    (execute cleanPath fileExists path (name :: rest)).Ensures (serve env) (Spares env name)
      (fun r _ => r = .exits (notRunning name)) b := by
  refine ensures_server "" pathless_spared hb (fun t ht => ⟨ht.listed, ht.serverPath⟩)
    fun t ht => ?_
  refine Dialogue.ensures_known pathless_spared ht ""
    (fun u hu => hu.orderly.serve_coordinatorPath) fun u hu => ?_
  refine Dialogue.ensures_known pathless_spared hu .offline (fun v hv => hv.orderly.serve_state)
    fun v hv => ?_
  exact Dialogue.ensures_done pathless_spared hv fun _ _ => rfl

/-- The command attaches to the session that the server has, and only if the server was
running when it looked. -/
theorem console_amid {r : Outcome} (rest : List String) (hb : b.Orderly)
    (found : b.manager.find name = some server)
    (ends : (execute cleanPath fileExists path (name :: rest)).Amid (serve env) (Spares env name)
      b r u) :
    (∀ s, b.Offers name server s →
      (s.valid = true → Attaches env (tmuxExec cleanPath fileExists path) name server s b u r) ∧
      (s.valid = false → r = .exits (notRunning name))) ∧
    (validPath ("/servers/" ++ name) = false → r = .exits (notRunning name)) := by
  refine ⟨fun s offers => ⟨fun valid => ?_, fun invalid => ?_⟩, fun invalid => ?_⟩
  · exact (Dialogue.ensures_iff _).mp (valid_ensures rest offers valid) r u ends
  · exact (Dialogue.ensures_iff _).mp (invalid_ensures rest offers invalid) r u ends
  · exact (Dialogue.ensures_iff _).mp (pathless_ensures rest ⟨hb, ⟨server, found⟩, invalid⟩) r u ends

/-- Others bring the server up before the first request. -/
theorem console_amid_sample :
    (∃ s, Attaches .ideal (some "/usr/bin/tmux") "tf2" 0 s Bus.sample
      ((execute id (fun _ => true) "/usr/bin" ["tf2"]).alone (serve .ideal) Bus.playing).2
      ((execute id (fun _ => true) "/usr/bin" ["tf2"]).alone (serve .ideal) Bus.playing).1) ∧
    ((execute id (fun _ => true) "/usr/bin" ["tf2"]).alone (serve .ideal) Bus.playing).1 =
      attaches (some "/usr/bin/tmux") "morgoth-000000" ∧
    ((execute id (fun _ => true) "/usr/bin" ["my-fancy-server"]).alone (serve .ideal) Bus.fancy).1 =
      .exits (notRunning "my-fancy-server") := by
  refine ⟨?_, rfl, ?_⟩
  · obtain ⟨s, offers, valid, -⟩ := Bus.sample_offers
    have ends := console_amid [] offers.orderly offers.found (.earlier sample_plays
      (Dialogue.alone_amid (serve .ideal) (execute id (fun _ => true) "/usr/bin" ["tf2"])
        Bus.playing))
    exact ⟨s, (ends.1 s offers).1 valid⟩
  · exact (console_amid [] Bus.fancy_orderly Bus.fancy_found
      (Dialogue.alone_amid (serve .ideal) _ Bus.fancy)).2 (by decide)

end ConsoleCommand

end Morgoth
