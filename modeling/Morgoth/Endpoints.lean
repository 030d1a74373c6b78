import Morgoth.StatusCalls
import Morgoth.Tracking

/-!
# Published endpoints

The address and the SourceTV port that game servers report, as arbitrary texts,
and what is published of them. A port is not checked against the range of
ports, and of an address only the number of its parts is checked.

* `run_calls`: what a run of a server does to its status, as calls, with the
  texts that game servers have reported;
* `run_endpoints`: what a server publishes whose game servers report endpoints;
* `endpoints_valid_iff`: when only endpoints are published.
-/

namespace Morgoth

/-- What counts as the text of a decimal number. `toInt` reads at least those. -/
structure Decimal where
  reads : String → Int → Prop
  sound : ∀ {text n}, reads text n → toInt text = some n

/-- Digits only. -/
def Decimal.digits : Decimal where
  reads text n := (numeral text.toList).isSome ∧ toInt text = some n
  sound := And.right

/-- Whatever `toInt` takes, with blanks around it and a sign. -/
def Decimal.signed : Decimal where
  reads text n := toInt text = some n
  sound := id

inductive Report
  | address (addressString : String)
  | stvPort (stvPortString : String)
  deriving DecidableEq, Repr

def StatusCall.report : StatusCall → Option Report
  | .setAddressFromString addressString => some (.address addressString)
  | .setStvPortFromString stvPortString => some (.stvPort stvPortString)
  | _ => none

/-- What a game server reports. -/
def ServerEvent.reports : ServerEvent → List Report
  | .gameServerOnline _ gameServer =>
    [.address gameServer.address, .stvPort (gameServer.getConVarValue "tv_port")]
  | .conVarChanged _ conVarName newValue =>
    if conVarName = "tv_port" then [.stvPort newValue] else []
  | _ => []

/-! ## The calls of a run -/

namespace Server

open ServerStatus

/-- The status moves by calls that report this. -/
def Moved (h : Host) (st st' : ServerStatus) (reports : List Report) : Prop :=
  ∃ calls, st' = st.callAll h calls ∧ calls.filterMap StatusCall.report = reports

variable {h : Host} {st st' st'' : ServerStatus} {xs ys : List Report}

theorem Moved.refl (st : ServerStatus) : Moved h st st [] := ⟨[], rfl, rfl⟩

theorem Moved.trans (hx : Moved h st st' xs) (hy : Moved h st' st'' ys) :
    Moved h st st'' (xs ++ ys) := by
  obtain ⟨calls, rfl, rfl⟩ := hx
  obtain ⟨calls', rfl, rfl⟩ := hy
  exact ⟨calls ++ calls', (callAll_append h st calls calls').symm, List.filterMap_append⟩

theorem moved_call (call : StatusCall) : Moved h st (st.call h call) call.report.toList := by
  refine ⟨[call], rfl, ?_⟩
  cases reported : call.report <;> simp [reported]

/-- A reset says nothing. -/
theorem Moved.reset (hm : Moved h st st' xs) : Moved h st st'.reset xs := by
  have after := hm.trans (moved_call .reset)
  have silent : StatusCall.reset.report = none := rfl
  rwa [silent, Option.toList_none, List.append_nil] at after

theorem moved_conVar (conVarName newValue : String) :
    Moved h st (st.handleConVarChange conVarName newValue)
      (if conVarName = "tv_port" then [.stvPort newValue] else []) := by
  refine ⟨_, handleConVarChange_call h st conVarName newValue, ?_⟩
  unfold conVarCall
  split_ifs with hostname password <;> simp_all [StatusCall.report]

variable {s u : Server}

theorem moved_online (valid : s.valid = true) (iface : GameServerId) (gameServer : GameServer) :
    Moved h s.status (s.gameServerOnline h iface gameServer).status
      [.address gameServer.address, .stvPort (gameServer.getConVarValue "tv_port")] := by
  have tracked : Moved h s.status (s.status.trackGameServer h iface gameServer)
      [.address gameServer.address, .stvPort (gameServer.getConVarValue "tv_port")] :=
    ⟨_, trackGameServer_calls h s.status iface gameServer, rfl⟩
  unfold gameServerOnline gameServerOnlineSlots
  rw [valid, if_pos rfl, List.singleton_append, Signal.emit_cons]
  refine Signal.emit_keeps (P := fun t : Server => Moved h s.status t.status _) ?_ tracked
  intro slot hslot t moved
  obtain ⟨i, -, rfl⟩ := List.mem_map.mp hslot
  rw [handleGameServerRegistered_eq]
  exact moved.reset

theorem step_calls (valid : s.valid = true) {e : ServerEvent} (hu : s.step h e = some u) :
    Moved h s.status u.status e.reports := by
  cases step_effect hu with
  | start =>
    cases outcome : (s.bringUp h).2 with
    | none =>
      rw [start_pending outcome]
      exact (Moved.refl _).reset
    | some error =>
      rw [start_failed outcome]
      exact (Moved.refl _).reset.reset
  | stop => exact (Moved.refl _).reset
  | startTimeout i =>
    rw [timeoutStart_eq]
    exact (Moved.refl _).reset
  | gameServerOnline iface gameServer => exact moved_online valid iface gameServer
  | gameServerTimedOut =>
    rw [gameServerTimedOut_valid valid]
    exact (Moved.refl _).reset
  | aboutToQuit iface =>
    exact aboutToQuit_keeps (P := fun t : Server => Moved h s.status t.status [])
      (fun t moved => moved.reset) (.refl _)
  | deleteGameServer iface => exact moved_call (.disconnect iface)
  | mapChanged iface map => exact moved_call (.setMap map)
  | conVarChanged iface conVarName newValue => exact moved_conVar conVarName newValue
  | playerConnected iface player => exact moved_call (.addPlayer player)
  | playerDisconnected iface id => exact moved_call (.removePlayer id)
  | _ => exact .refl _

theorem run_calls {es : List ServerEvent} (valid : s.valid = true) (hrun : run h s es = some u) :
    Moved h s.status u.status (es.flatMap ServerEvent.reports) := by
  let Tracked (es : List ServerEvent) (t : Server) : Prop :=
    t.valid = true ∧ Moved h s.status t.status (es.flatMap ServerEvent.reports)
  have kept : ∀ es t e t', Tracked es t → step h t e = some t' → Tracked (es ++ [e]) t' := by
    rintro es t e t' ⟨up, moved⟩ ht
    refine ⟨(step_frame ht).1.trans up, ?_⟩
    rw [List.flatMap_append, List.flatMap_singleton]
    exact moved.trans (step_calls up ht)
  exact (Machine.run_history (P := Tracked) kept ⟨valid, .refl _⟩ hrun).2

end Server

/-! ## Endpoints -/

/-- A port as text. -/
def IsPort (decimal : Decimal) (text : String) (port : Int) : Prop :=
  decimal.reads text port ∧ 0 ≤ port ∧ port ≤ 65535

/-- A text `host:port`, with a host that `QUrl` takes, and its URL. -/
def IsAddress (decimal : Decimal) (h : Host) (text : String) (address : QUrl) : Prop :=
  ∃ host portText port, text = host ++ ":" ++ portText ∧ ':' ∉ host.toList ∧
    ':' ∉ portText.toList ∧ h.urlHost host ≠ "" ∧ IsPort decimal portText port ∧
    address = ServerStatus.steamUrl h host port

namespace ServerStatus

/-- What is published after the calls on a new status. -/
def published (h : Host) (calls : List StatusCall) : ServerStatusPrivate :=
  (callAll h {} calls).d

/-- In every state that the calls lead through, what is published is a port,
and nothing or a reported address; a text that is no endpoint changes
nothing. -/
structure EndpointsValid (decimal : Decimal) (h : Host) (calls : List StatusCall) : Prop where
  stvPort : ∀ before, before <+: calls →
    0 ≤ (published h before).stvPort ∧ (published h before).stvPort ≤ 65535
  address : ∀ before, before <+: calls → (published h before).address = {} ∨
    ∃ text, .setAddressFromString text ∈ before ∧
      IsAddress decimal h text (published h before).address
  otherStvPort : ∀ before text, before ++ [.setStvPortFromString text] <+: calls →
    (∀ port, ¬ IsPort decimal text port) →
    (published h (before ++ [.setStvPortFromString text])).stvPort = (published h before).stvPort
  otherAddress : ∀ before text, before ++ [.setAddressFromString text] <+: calls →
    (∀ address, ¬ IsAddress decimal h text address) →
    (published h (before ++ [.setAddressFromString text])).address = (published h before).address

/-- A reported text is an endpoint, or what is read from it is nothing, or what
is published already. -/
def Parses (decimal : Decimal) (h : Host) (d : ServerStatusPrivate) : StatusCall → Prop
  | .setStvPortFromString text =>
    (∃ port, IsPort decimal text port) ∨ ∀ port, toInt text = some port → port = d.stvPort
  | .setAddressFromString text =>
    (∃ address, IsAddress decimal h text address) ∨
      ∀ address, addressUrl h text = some address → address = d.address
  | _ => True

variable {decimal : Decimal} {h : Host} {text : String}

theorem addressUrl_isAddress {address : QUrl} (reported : IsAddress decimal h text address) :
    addressUrl h text = some address := by
  obtain ⟨host, portText, port, rfl, hhost, hport, -, ⟨reads, low, high⟩, rfl⟩ := reported
  have parts : splitAt ':' (host ++ ":" ++ portText) = [host, portText] := splitAt_two hhost hport
  have inRange : ¬(port < -1 ∨ 65535 < port) := by omega
  simp [addressUrl, parts, decimal.sound reads, QUrl.setPort, inRange, steamUrl]

theorem published_stvPort (before : List StatusCall) (call : StatusCall) :
    (published h (before ++ [call])).stvPort =
      ((Field.stvPort h).writes call).getD (published h before).stvPort := by
  unfold published
  rw [callAll_append]
  exact (Field.stvPort h).read_call _ call

theorem published_address (before : List StatusCall) (call : StatusCall) :
    (published h (before ++ [call])).address =
      ((Field.address h).writes call).getD (published h before).address := by
  unfold published
  rw [callAll_append]
  exact (Field.address h).read_call _ call

/-- A text that is not read, or read as what is published, changes nothing. -/
theorem stvPort_unchanged {before : List StatusCall}
    (same : ∀ port, toInt text = some port → port = (published h before).stvPort) :
    (published h (before ++ [.setStvPortFromString text])).stvPort =
      (published h before).stvPort := by
  have read : (Field.stvPort h).writes (.setStvPortFromString text) = toInt text := rfl
  rw [published_stvPort, read]
  cases parsed : toInt text with
  | none => rfl
  | some port => exact same port parsed

theorem address_unchanged {before : List StatusCall}
    (same : ∀ address, addressUrl h text = some address → address = (published h before).address) :
    (published h (before ++ [.setAddressFromString text])).address =
      (published h before).address := by
  have read : (Field.address h).writes (.setAddressFromString text) = addressUrl h text := rfl
  rw [published_address, read]
  cases parsed : addressUrl h text with
  | none => rfl
  | some address => exact same address parsed

/-- A call that parses leaves a port. -/
theorem stvPort_parses {before : List StatusCall} {call : StatusCall}
    (range : 0 ≤ (published h before).stvPort ∧ (published h before).stvPort ≤ 65535)
    (parses : Parses decimal h (published h before) call) :
    0 ≤ (published h (before ++ [call])).stvPort ∧
      (published h (before ++ [call])).stvPort ≤ 65535 := by
  cases call with
  | setStvPortFromString text =>
    rcases parses with ⟨port, reads, bounds⟩ | same
    · have read : (Field.stvPort h).writes (.setStvPortFromString text) = some port :=
        decimal.sound reads
      rw [published_stvPort, read]
      exact bounds
    · rw [stvPort_unchanged same]
      exact range
  | reset =>
    rw [published_stvPort]
    exact ⟨Int.le_refl 0, Int.ofNat_le.mpr (Nat.zero_le 65535)⟩
  | _ =>
    rw [published_stvPort]
    exact range

/-- A call that parses leaves nothing or a reported address. -/
theorem address_parses {before : List StatusCall} {call : StatusCall}
    (known : (published h before).address = {} ∨ ∃ text, .setAddressFromString text ∈ before ∧
      IsAddress decimal h text (published h before).address)
    (parses : Parses decimal h (published h before) call) :
    (published h (before ++ [call])).address = {} ∨
      ∃ text, .setAddressFromString text ∈ before ++ [call] ∧
        IsAddress decimal h text (published h (before ++ [call])).address := by
  have known' : (published h before).address = {} ∨
      ∃ text, .setAddressFromString text ∈ before ++ [call] ∧
        IsAddress decimal h text (published h before).address := by
    refine known.imp_right ?_
    rintro ⟨text, there, reported⟩
    exact ⟨text, List.mem_append_left _ there, reported⟩
  cases call with
  | setAddressFromString text =>
    rcases parses with ⟨address, reported⟩ | same
    · have read : (Field.address h).writes (.setAddressFromString text) = some address :=
        addressUrl_isAddress reported
      rw [published_address, read]
      exact Or.inr ⟨text, List.mem_append_right _ (List.mem_singleton_self _), reported⟩
    · rw [address_unchanged same]
      exact known'
  | reset =>
    rw [published_address]
    exact Or.inl rfl
  | _ =>
    rw [published_address]
    exact known'

theorem parses_valid {calls : List StatusCall}
    (parses : ∀ before call, before ++ [call] <+: calls → Parses decimal h (published h before) call)
    {before : List StatusCall} (here : before <+: calls) :
    (0 ≤ (published h before).stvPort ∧ (published h before).stvPort ≤ 65535) ∧
    ((published h before).address = {} ∨ ∃ text, .setAddressFromString text ∈ before ∧
      IsAddress decimal h text (published h before).address) := by
  induction before using List.reverseRecOn with
  | nil => exact ⟨⟨Int.le_refl 0, Int.ofNat_le.mpr (Nat.zero_le 65535)⟩, Or.inl rfl⟩
  | append_singleton before call ih =>
    obtain ⟨range, known⟩ := ih ((List.prefix_append _ _).trans here)
    have parses := parses before call here
    exact ⟨stvPort_parses range parses, address_parses known parses⟩

/-- A text that is no endpoint and changes nothing is not read, or read as what
is published. -/
theorem EndpointsValid.parses {calls : List StatusCall} (valid : EndpointsValid decimal h calls)
    {before : List StatusCall} {call : StatusCall} (here : before ++ [call] <+: calls) :
    Parses decimal h (published h before) call := by
  cases call with
  | setStvPortFromString text =>
    by_cases endpoint : ∃ port, IsPort decimal text port
    · exact Or.inl endpoint
    · have same := valid.otherStvPort before text here (not_exists.mp endpoint)
      rw [published_stvPort] at same
      right
      intro port parsed
      have read : (Field.stvPort h).writes (.setStvPortFromString text) = some port := parsed
      rwa [read] at same
  | setAddressFromString text =>
    by_cases endpoint : ∃ address, IsAddress decimal h text address
    · exact Or.inl endpoint
    · have same := valid.otherAddress before text here (not_exists.mp endpoint)
      rw [published_address] at same
      right
      intro address parsed
      have read : (Field.address h).writes (.setAddressFromString text) = some address := parsed
      rwa [read] at same
  | _ => trivial

theorem endpointsValid_of_parses {calls : List StatusCall}
    (parses : ∀ before call, before ++ [call] <+: calls →
      Parses decimal h (published h before) call) : EndpointsValid decimal h calls where
  stvPort before here := (parses_valid parses here).1
  address before here := (parses_valid parses here).2
  otherStvPort before text here other := by
    obtain ⟨port, endpoint⟩ | same := parses before _ here
    · exact absurd endpoint (other port)
    · exact stvPort_unchanged same
  otherAddress before text here other := by
    obtain ⟨address, endpoint⟩ | same := parses before _ here
    · exact absurd endpoint (other address)
    · exact address_unchanged same

/-- A reported text is an endpoint, or is not read. -/
def Reads (decimal : Decimal) (h : Host) : Report → Prop
  | .stvPort text => (∃ port, IsPort decimal text port) ∨ toInt text = none
  | .address text => (∃ address, IsAddress decimal h text address) ∨ addressUrl h text = none

theorem parses_of_reads {call : StatusCall}
    (reads : ∀ report, call.report = some report → Reads decimal h report)
    (d : ServerStatusPrivate) : Parses decimal h d call := by
  cases call with
  | setStvPortFromString text =>
    refine (reads (.stvPort text) rfl).imp_right fun unread port read => ?_
    rw [unread] at read
    cases read
  | setAddressFromString text =>
    refine (reads (.address text) rfl).imp_right fun unread address read => ?_
    rw [unread] at read
    cases read
  | _ => trivial

/-- A server whose game servers report nothing but endpoints publishes nothing else. -/
theorem run_endpoints {path : QUrl} {name : String} {es : List ServerEvent} {s : Server}
    (valid : (Server.create h path name).valid = true)
    (ran : Server.run h (.create h path name) es = some s)
    (reads : ∀ report ∈ es.flatMap ServerEvent.reports, Reads decimal h report) :
    (0 ≤ s.status.d.stvPort ∧ s.status.d.stvPort ≤ 65535) ∧
      (s.status.d.address = {} ∨ ∃ text, .address text ∈ es.flatMap ServerEvent.reports ∧
        IsAddress decimal h text s.status.d.address) := by
  obtain ⟨calls, status, reports⟩ := Server.run_calls valid ran
  have parses : ∀ before call, before ++ [call] <+: calls →
      Parses decimal h (published h before) call := by
    intro before call here
    refine parses_of_reads (fun report told => reads report ?_) _
    rw [← reports]
    exact List.mem_filterMap.mpr ⟨call, here.subset (by simp), told⟩
  rw [status]
  refine (parses_valid parses List.prefix_rfl).imp id (Or.imp id ?_)
  rintro ⟨text, there, reported⟩
  refine ⟨text, ?_, reported⟩
  rw [← reports]
  exact List.mem_filterMap.mpr ⟨_, there, rfl⟩

/-- Only endpoints are published, if and only if every reported text is one, or
is not read at all, or changes nothing. What is published of a server comes from
such calls, with the texts that its game servers have reported; so in every state of a
server whose game servers report nothing but endpoints it is a port, and nothing or a
reported address. -/
theorem endpoints_valid_iff (decimal : Decimal) (h : Host) :
    (∀ calls, EndpointsValid decimal h calls ↔ ∀ before call, before ++ [call] <+: calls →
      Parses decimal h (published h before) call) ∧
    (∀ path name es s, (Server.create h path name).valid = true →
      Server.run h (.create h path name) es = some s →
      ∃ calls, s.status.d = published h calls ∧
        calls.filterMap StatusCall.report = es.flatMap ServerEvent.reports) ∧
    ∀ path name es s, (Server.create h path name).valid = true →
      Server.run h (.create h path name) es = some s →
      (∀ report ∈ es.flatMap ServerEvent.reports, Reads decimal h report) →
      (0 ≤ s.status.d.stvPort ∧ s.status.d.stvPort ≤ 65535) ∧
        (s.status.d.address = {} ∨ ∃ text, .address text ∈ es.flatMap ServerEvent.reports ∧
          IsAddress decimal h text s.status.d.address) := by
  refine ⟨?_, ?_, ?_⟩
  · intro calls
    constructor
    · exact fun valid before call here => valid.parses here
    · exact endpointsValid_of_parses
  · intro path name es s valid ran
    obtain ⟨calls, status, reports⟩ := Server.run_calls valid ran
    exact ⟨calls, congrArg ServerStatus.d status, reports⟩
  · intro path name es s valid ran reads
    exact run_endpoints valid ran reads

/-- An address, a port, and a text that is no number. -/
theorem endpoints_valid_iff_sample :
    EndpointsValid .digits .ideal [.setAddressFromString "127.0.0.1:27015",
      .setStvPortFromString "27020", .setStvPortFromString "none"] ∧
    ∃ s, Server.run .ideal .sample [.gameServerOnline 0 GameServer.sample] = some s ∧
      s.status.d.stvPort = 27020 ∧
      (s.status.d.address = {} ∨
        ∃ text, .address text ∈ [Report.address "127.0.0.1:27015", .stvPort "27020"] ∧
          IsAddress .digits .ideal text s.status.d.address) := by
  obtain ⟨exactly, -, runs⟩ := endpoints_valid_iff .digits .ideal
  have address : Reads .digits .ideal (.address "127.0.0.1:27015") :=
    .inl ⟨_, "127.0.0.1", "27015", 27015, by decide, by decide, by decide, by decide,
      ⟨⟨by decide, by decide⟩, by decide, by decide⟩, rfl⟩
  have port : Reads .digits .ideal (.stvPort "27020") :=
    .inl ⟨27020, ⟨by decide, by decide⟩, by decide, by decide⟩
  constructor
  · refine (exactly _).mpr fun before call here => parses_of_reads ?_ _
    have there := here.subset (List.mem_append_right before (List.mem_singleton_self call))
    intro report told
    simp only [List.mem_cons, List.not_mem_nil, or_false] at there
    rcases there with rfl | rfl | rfl <;> obtain rfl := Option.some.inj told
    · exact address
    · exact port
    · exact .inr (by decide)
  · refine ⟨_, rfl, by decide, (runs { scheme := "file", path := "/srv/tf2" } "tf2"
      [.gameServerOnline 0 GameServer.sample] _ rfl rfl ?_).2⟩
    intro report told
    rcases List.mem_pair.mp told with rfl | rfl
    · exact address
    · exact port

/-- A SourceTV port and the port of an address, neither of which is one. -/
theorem no_endpoint_published :
    ∃ s, Server.run .ideal .sample [.gameServerOnline 0
        { GameServer.sample with
          address := "host:port"
          getConVarValue := fun _ => "70000" }] = some s ∧
      s.status.d.stvPort = 70000 ∧
      s.status.d.address = { scheme := "steam", host := "host", port := 0 } ∧
      toInt "port" = none :=
  ⟨_, rfl, by decide, by decide, by decide⟩

end ServerStatus

end Morgoth
