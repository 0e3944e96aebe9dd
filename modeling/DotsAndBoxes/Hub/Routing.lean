import DotsAndBoxes.Hub.Rooms
import DotsAndBoxes.Hub.Subscriptions

/-! # Routing

A service publishes an event on a topic of the bus, and the event names a topic of its own.
The bus goes by the one and the manager by the other, so an event reaches the room of the
topic it was published on only as far as the two rooms agree.
-/

namespace DotsAndBoxes

open Tagged Runs

/-- An event, on the topic of the bus that it is published on. -/
structure Publication where
  channel : String
  event : Event

def lobbyIDPayload : Codec String :=
  .struct "" [.of "lobby_id" .string (fun lobbyID => lobbyID) fun _ lobbyID => lobbyID]

def gameStartedPayload : Codec (ℤ × String) :=
  .struct (0, "") [
    .of "gameID" .int (·.1) fun p gameID => (gameID, p.2),
    .of "lobby_id" .string (·.2) fun p lobbyID => (p.1, lobbyID)]

namespace LobbyService

def lobbyCreated (lobby : Json) : List Publication :=
  [⟨"global:lobbies", "global:lobbies", "lobby_created", lobby⟩]

/-- Of an update, the lobby is told and the list of the lobbies. -/
def lobbyUpdated (lobbyID : String) (lobby : Json) : List Publication :=
  [⟨lobbyTopic lobbyID, lobbyTopic lobbyID, "lobby_updated", lobby⟩,
    ⟨"global:lobbies", lobbyTopic lobbyID, "lobby_updated", lobby⟩]

def lobbyDeleted (lobbyID : String) : List Publication :=
  [⟨"global:lobbies", lobbyTopic lobbyID, "lobby_deleted", lobbyIDPayload.marshal lobbyID⟩]

end LobbyService

/-- The event of a service that names the topic it is published on. -/
def publishIntegrationEvent (topic eventType : String) (payload : Json) : Publication :=
  ⟨topic, topic, eventType, payload⟩

def publishLobbyGameStarted (lobbyID : String) (gameID : ℤ) (playerIDs : List ℤ) :
    List Publication :=
  if lobbyID = "" then []
  else
    let payload := gameStartedPayload.marshal (gameID, lobbyID)
    publishIntegrationEvent (lobbyTopic lobbyID) "game:new" payload ::
      playerIDs.map fun pid => publishIntegrationEvent (userTopic pid) "game:new" payload

/-- An occasion on which a service publishes, with the documents it publishes. -/
inductive Notice where
  | createLobby (lobby : Json)
  | joinLobby (lobbyID : String) (lobby : Json)
  | leaveLobby (lobbyID : String) (lobby : Json)
  | leaveAsLast (lobbyID : String)
  | deleteLobby (lobbyID : String)
  | setPlayerReady (lobbyID : String) (lobby : Json)
  | createGame (game : Json)
  /-- A bot game is created, or a game has changed. -/
  | gameState (gameID : ℤ) (game : Json)
  | gameCompleted (result : Json)
  | lobbyGameStarted (lobbyID : String) (gameID : ℤ) (playerIDs : List ℤ)
  | timerState (gameID : ℤ) (state : Json)

def Notice.publications : Notice → List Publication
  | .createLobby lobby => LobbyService.lobbyCreated lobby
  | .joinLobby lobbyID lobby => LobbyService.lobbyUpdated lobbyID lobby
  | .leaveLobby lobbyID lobby => LobbyService.lobbyUpdated lobbyID lobby
  | .leaveAsLast lobbyID => LobbyService.lobbyDeleted lobbyID
  | .deleteLobby lobbyID => LobbyService.lobbyDeleted lobbyID
  | .setPlayerReady lobbyID lobby => LobbyService.lobbyUpdated lobbyID lobby
  | .createGame game => [publishIntegrationEvent "global:games" "game_created" game]
  | .gameState gameID game => [publishIntegrationEvent (gameTopic gameID) "game:state" game]
  | .gameCompleted result => [publishIntegrationEvent "global:games" "game_completed" result]
  | .lobbyGameStarted lobbyID gameID playerIDs => publishLobbyGameStarted lobbyID gameID playerIDs
  | .timerState gameID state => [publishIntegrationEvent (gameTopic gameID) "game:timer" state]

/-- The publication tells the list of the lobbies about one lobby, under the topic of that
lobby. -/
def Publication.Relabelled (p : Publication) : Prop :=
  p.channel = "global:lobbies" ∧ (∃ lobbyID, p.event.topic = lobbyTopic lobbyID) ∧
    p.event.type ∈ ["lobby_updated", "lobby_deleted"]

/-- Every event names the topic it is published on, but for updates and deletions of lobbies
in the list of the lobbies. -/
theorem Notice.channel_eq_or_relabelled {notice : Notice} {p : Publication}
    (hp : p ∈ notice.publications) : p.channel = p.event.topic ∨ p.Relabelled := by
  have hupdated {lobbyID : String} {lobby : Json}
      (hp : p ∈ LobbyService.lobbyUpdated lobbyID lobby) :
      p.channel = p.event.topic ∨ p.Relabelled := by
    rcases List.mem_pair.mp hp with rfl | rfl
    · exact .inl rfl
    · exact .inr ⟨rfl, ⟨lobbyID, rfl⟩, by simp⟩
  have hdeleted {lobbyID : String} (hp : p ∈ LobbyService.lobbyDeleted lobbyID) :
      p.channel = p.event.topic ∨ p.Relabelled := by
    obtain rfl := List.mem_singleton.mp hp
    exact .inr ⟨rfl, ⟨lobbyID, rfl⟩, by simp⟩
  cases notice with
  | joinLobby | leaveLobby | setPlayerReady => exact hupdated hp
  | leaveAsLast | deleteLobby => exact hdeleted hp
  | createLobby | createGame | gameState | gameCompleted | timerState =>
    obtain rfl := List.mem_singleton.mp hp
    exact .inl rfl
  | lobbyGameStarted lobbyID gameID playerIDs =>
    simp only [publications, publishLobbyGameStarted] at hp
    split at hp
    · cases hp
    · rcases List.mem_cons.mp hp with rfl | hp
      · exact .inl rfl
      · obtain ⟨pid, -, rfl⟩ := List.mem_map.mp hp
        exact .inl rfl

namespace Hub

variable {s s' : Hub} {run : List (Act × Hub)} {msg : Post} {conns : List Connection}
  {p : Publication}

/-- The goroutine is at its select with nothing to send, and no queue is full. -/
structure Idle (s : Hub) : Prop where
  select : s.run = .select
  broadcast : s.broadcast = []
  hasRoom : ∀ conn, s.HasRoom conn

/-- The steps of the goroutine that send a message to the sessions of a room. -/
def sends (conns : List Connection) : List Act := conns.map .send ++ [.finish]

/-- Every one of the sessions gets one copy of the message, and no other session gets any. -/
def OneCopyEach (conns : Finset Connection) (msg : Post) (s s' : Hub) : Prop :=
  ∀ conn, s'.egress conn = s.egress conn ++ if conn ∈ conns then [msg] else []

/-- Each of so many goroutines gives the event to the manager, and each time it is served. -/
inductive Delivers (p : Publication) : ℕ → Hub → Hub → Prop where
  | none {s : Hub} : Delivers p 0 s s
  | one {s s' : Hub} {run : List (Act × Hub)} {conns : List Connection} {n : ℕ}
      (hrun : Along Step s run)
      (hacts : run.map Prod.fst =
        .offer ⟨p.event, .server⟩ :: .receive ⟨p.event, .server⟩ conns :: sends conns)
      (hrest : Delivers p n (last s run) s') :
      Delivers p (n + 1) s s'

/-- The state after a message is sent to the first of some sessions. -/
def sent (msg : Post) (first : Connection) (conns : List Connection) (s : Hub) : Hub :=
  { s with
    run := .sending msg conns
    egress := Function.update s.egress first (s.egress first ++ [msg]) }

theorem hasRoom_sent {first : Connection} (hfirst : first ∉ conns)
    (hroom : ∀ conn ∈ first :: conns, s.HasRoom conn) (conn : Connection) (hconn : conn ∈ conns) :
    (s.sent msg first conns).HasRoom conn := by
  have hne : conn ≠ first := fun heq => hfirst (heq ▸ hconn)
  simpa [HasRoom, sent, hne] using hroom conn (List.mem_cons_of_mem _ hconn)

theorem egress_sends (h : Along Step s run) (hacts : run.map Prod.fst = sends conns)
    (hsending : s.run = .sending msg conns) (hnodup : conns.Nodup)
    (hroom : ∀ conn ∈ conns, s.HasRoom conn) :
    OneCopyEach conns.toFinset msg s (last s run) := by
  induction conns generalizing s run with
  | nil =>
    obtain ⟨⟨a, t⟩, rest, rfl, rfl, hrest⟩ := List.map_eq_cons_iff.mp hacts
    obtain rfl := List.map_eq_nil_iff.mp hrest
    intro conn
    cases h.1 with
    | finish hrun => simp [last]
  | cons first conns ih =>
    obtain ⟨⟨a, t⟩, rest, rfl, rfl, hrest⟩ := List.map_eq_cons_iff.mp hacts
    obtain ⟨hfirst, hnodup⟩ := List.nodup_cons.mp hnodup
    obtain ⟨hstep, hafter⟩ := h
    cases hstep with
    | drop hrun hfull =>
      exact absurd (hroom first List.mem_cons_self) hfull
    | @send msg' _ rest' hrun _ =>
      rw [hsending] at hrun
      obtain ⟨rfl, -, rfl⟩ : msg = msg' ∧ first = first ∧ conns = rest' := by simpa using hrun
      have hsent := ih (s := s.sent msg first conns) hafter hrest rfl hnodup
        (hasRoom_sent hfirst hroom)
      intro conn
      have hrest := hsent conn
      by_cases hconn : conn = first
      · subst hconn
        simpa [last, sent, hfirst] using hrest
      · simpa [last, sent, hconn] using hrest

theorem exists_sends (hnodup : conns.Nodup) (hroom : ∀ conn ∈ conns, s.HasRoom conn)
    (hsending : s.run = .sending msg conns) :
    ∃ run, Along Step s run ∧ run.map Prod.fst = sends conns := by
  induction conns generalizing s with
  | nil => exact ⟨[(.finish, _)], ⟨.finish hsending, trivial⟩, rfl⟩
  | cons first conns ih =>
    obtain ⟨hfirst, hnodup⟩ := List.nodup_cons.mp hnodup
    have hstep : Step s (.send first) (s.sent msg first conns) :=
      .send hsending (hroom first List.mem_cons_self)
    obtain ⟨run, hrun, hacts⟩ := ih hnodup (hasRoom_sent hfirst hroom) rfl
    exact ⟨(.send first, _) :: run, ⟨hstep, hrun⟩, congrArg (List.cons _) hacts⟩

/-- What the manager receives once goes to the room of the topic that the event names. -/
theorem Delivers.egress (h : Delivers p 1 s s') (hidle : s.Idle) :
    OneCopyEach (s.manager.room p.event.topic) ⟨p.event, .server⟩ s s' := by
  cases h with
  | @one _ _ run conns _ hrun hacts hrest =>
    cases hrest
    obtain ⟨⟨a, t⟩, after, rfl, rfl, hafter⟩ := List.map_eq_cons_iff.mp hacts
    obtain ⟨⟨b, u⟩, rest, rfl, rfl, hsending⟩ := List.map_eq_cons_iff.mp hafter
    obtain ⟨hoffer, hreceive, hsends⟩ := hrun
    cases hoffer
    cases hreceive with
    | receive hselect hqueue hnodup hconns =>
      have hsent := egress_sends hsends hsending rfl hnodup fun conn _ => hidle.hasRoom conn
      rw [hconns] at hsent
      exact hsent

theorem exists_delivers (p : Publication) (hidle : s.Idle) : ∃ s', Delivers p 1 s s' := by
  let conns := (s.manager.room p.event.topic).toList
  let msg : Post := ⟨p.event, .server⟩
  have hoffered : s.offered msg = [msg] := by
    simp [offered, hidle.broadcast, broadcastCapacity]
  have hoffer : Step s (.offer msg) { s with broadcast := [msg] } := hoffered ▸ .offer
  have hreceive : Step { s with broadcast := [msg] } (.receive msg conns)
      { s with run := .sending msg conns, broadcast := [] } :=
    .receive hidle.select rfl (Finset.nodup_toList _) (Finset.toList_toFinset _)
  obtain ⟨run, hrun, hacts⟩ := exists_sends
    (s := { s with run := .sending msg conns, broadcast := [] }) (Finset.nodup_toList _)
    (fun conn _ => hidle.hasRoom conn) rfl
  have hserved : Along Step s ((.offer msg, _) :: (.receive msg conns, _) :: run) :=
    ⟨hoffer, hreceive, hrun⟩
  exact ⟨_, .one hserved (by rw [List.map_cons, List.map_cons, hacts]) .none⟩

theorem oneCopyEach_iff {conns conns' : Finset Connection} (h : OneCopyEach conns msg s s') :
    OneCopyEach conns' msg s s' ↔ conns = conns' := by
  constructor
  · intro h'
    ext conn
    have hsame := (h conn).symm.trans (h' conn)
    by_cases hconn : conn ∈ conns <;> by_cases hconn' : conn ∈ conns' <;>
      simp [hconn, hconn'] at hsame ⊢
  · rintro rfl
    exact h

theorem oneCopyEach_self_iff {conns : Finset Connection} :
    OneCopyEach conns msg s s ↔ conns = ∅ := by
  have hnone : OneCopyEach ∅ msg s s := by
    intro conn
    simp
  rw [oneCopyEach_iff hnone, eq_comm]

end Hub

namespace Subscriber

open Hub (ann)

variable {run : List (Act × Subscriber)} {p : Publication} {notice : Notice} {s : Subscriber}
  {hub : Hub}

/-- The publication comes to the goroutines whose subscriptions to its topic are in force, and to
none that has still to hear from the bus or has failed. -/
def Delivers (p : Publication) (s : Subscriber) (hub : Hub) : Prop :=
  Hub.Delivers p (s.active p.channel) s.hub hub

/-- Of the topic of the publication, either a subscription is in force, and the topic that the
event names has the same room, or there is no subscription and nobody in the room. -/
def Routes (p : Publication) (s : Subscriber) : Prop :=
  (0 < s.active p.channel ∧ s.hub.manager.room p.event.topic = s.hub.manager.room p.channel) ∨
    (s.active p.channel = 0 ∧ s.hub.manager.room p.channel = ∅)

theorem exists_delivers (p : Publication) (hone : s.active p.channel ≤ 1) (hidle : s.hub.Idle) :
    ∃ hub, s.Delivers p hub := by
  unfold Delivers
  rcases Nat.le_one_iff_eq_zero_or_eq_one.mp hone with hactive | hactive
  · rw [hactive]
    exact ⟨s.hub, .none⟩
  · rw [hactive]
    exact Hub.exists_delivers p hidle

theorem Delivers.oneCopyEach_iff (h : s.Delivers p hub) (hone : s.active p.channel ≤ 1)
    (hidle : s.hub.Idle) :
    Hub.OneCopyEach (s.hub.manager.room p.channel) ⟨p.event, .server⟩ s.hub hub ↔ s.Routes p := by
  unfold Delivers at h
  unfold Routes
  rcases Nat.le_one_iff_eq_zero_or_eq_one.mp hone with hactive | hactive
  · rw [hactive] at h ⊢
    cases h
    simp [Hub.oneCopyEach_self_iff]
  · rw [hactive] at h ⊢
    simpa using Hub.oneCopyEach_iff (h.egress hidle)

/-- A publication of a service in any state of the hub in which nothing is pending and no queue
is full, whatever has become of the subscriptions to the bus. Every session in the room of its
topic gets one copy and no other session gets any, if and only if a subscription to the topic is
in force and the topic that the event names has the same room, or nobody is in the room and no
subscription is in force. The two topics differ only for updates and deletions of lobbies that
are published to the list of the lobbies. -/
theorem publication_reaches_room_iff (h : Along Step start run)
    (hidle : (last start run).hub.Idle) (hp : p ∈ notice.publications) :
    (∃ hub, (last start run).Delivers p hub) ∧
    (∀ hub, (last start run).Delivers p hub →
      (Hub.OneCopyEach ((last start run).hub.manager.room p.channel) ⟨p.event, .server⟩
          (last start run).hub hub ↔ (last start run).Routes p)) ∧
    (p.channel = p.event.topic ∨ p.Relabelled) := by
  have hone := active_le_one h (last_mem_visited start run) p.channel
  refine ⟨exists_delivers p hone hidle, ?_, Notice.channel_eq_or_relabelled hp⟩
  intro hub hdelivers
  exact hdelivers.oneCopyEach_iff hone hidle

/-- A session watches the list of the lobbies, and the bus has confirmed the subscription. -/
def watching : Subscriber where
  hub := { Hub.start with
    manager := (Hub.start.manager.register ann).subscribe "global:lobbies" ann }
  attempts := less "global:lobbies" (more "global:lobbies" fun _ => 0)
  active := more "global:lobbies" fun _ => 0

theorem leads_watching : Leads Step start watching := by
  let opened : Subscriber :=
    { start with hub := { Hub.start with manager := Hub.start.manager.register ann } }
  let asked : Subscriber := { start with hub := Hub.asked }
  let attempting : Subscriber := { watching with
    attempts := more "global:lobbies" fun _ => 0
    active := fun _ => 0 }
  have hopened : Step start (.hub (.register ann)) opened := .hub Hub.along_asked.1
  have hasked : Step opened (.hub (.request "global:lobbies" ann)) asked :=
    .hub Hub.along_asked.2.1
  have hattempting : Step asked (.hub (.subscribe "global:lobbies" ann)) attempting :=
    .hub (.subscribe rfl rfl)
  have hconfirmed : Step attempting (.subscribeToEventBus "global:lobbies" true) watching :=
    .bus Nat.zero_lt_one
  exact ((((Leads.refl start).tail hopened).tail hasked).tail hattempting).tail hconfirmed

theorem idle_watching : watching.hub.Idle where
  select := rfl
  broadcast := rfl
  hasRoom _ := Nat.zero_lt_succ 99

theorem publication_reaches_room_iff_created :
    ∃ hub, watching.Delivers ⟨"global:lobbies", "global:lobbies", "lobby_created", .null⟩ hub ∧
      Hub.OneCopyEach (watching.hub.manager.room "global:lobbies")
        ⟨⟨"global:lobbies", "lobby_created", .null⟩, .server⟩ watching.hub hub := by
  obtain ⟨run, hrun, hlast⟩ := leads_watching
  have hidle : (last start run).hub.Idle := hlast ▸ idle_watching
  let p : Publication := ⟨"global:lobbies", "global:lobbies", "lobby_created", .null⟩
  have hp : p ∈ (Notice.createLobby .null).publications := List.mem_cons_self
  obtain ⟨⟨hub, hhub⟩, hiff, -⟩ := publication_reaches_room_iff hrun hidle hp
  rw [hlast] at hhub hiff
  exact ⟨hub, hhub, (hiff hub hhub).mpr (.inl ⟨Nat.zero_lt_one, rfl⟩)⟩

/-- Somebody who watches the list of the lobbies does not get the update of a lobby that is
published for the list. -/
theorem lobby_list_misses_update :
    ¬ ∀ run, Along Step start run → (last start run).hub.Idle →
      ∀ (notice : Notice), ∀ p ∈ notice.publications, ∀ hub, (last start run).Delivers p hub →
        Hub.OneCopyEach ((last start run).hub.manager.room p.channel) ⟨p.event, .server⟩
          (last start run).hub hub := by
  intro h
  obtain ⟨run, hrun, hlast⟩ := leads_watching
  let p : Publication := ⟨"global:lobbies", lobbyTopic "1", "lobby_updated", .null⟩
  have hp : p ∈ (Notice.joinLobby "1" .null).publications :=
    List.mem_cons_of_mem _ List.mem_cons_self
  have hone : watching.active p.channel ≤ 1 := le_refl 1
  obtain ⟨hub, hhub⟩ := exists_delivers p hone idle_watching
  have hgets := h run hrun (hlast ▸ idle_watching) _ p hp hub (hlast ▸ hhub)
  rw [hlast, hhub.oneCopyEach_iff hone idle_watching] at hgets
  have hwatches : ann ∈ watching.hub.manager.room "global:lobbies" :=
    Manager.room_subscribe "global:lobbies" ann _ ▸ Finset.mem_insert_self ann _
  rcases hgets with ⟨-, hsame⟩ | ⟨hnone, -⟩
  · have hmissing : ann ∉ watching.hub.manager.room (lobbyTopic "1") := by
      rw [watching, Manager.room_subscribe_of_ne (by decide), Manager.room_register]
      simp [Hub.start, Manager.room]
    exact hmissing (hsame ▸ hwatches)
  · simp [p, watching] at hnone

end Subscriber

end DotsAndBoxes
