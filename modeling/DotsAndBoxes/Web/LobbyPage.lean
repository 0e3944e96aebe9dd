import DotsAndBoxes.Lobby.Operations
import DotsAndBoxes.Web.State

/-! # The page of a lobby

The page of a lobby keeps one cached lobby. An update replaces its players, and the start of a
game takes the page to that game. Whoever starts the game from the page starts it for the players
that the page shows.
-/

namespace DotsAndBoxes

open Tagged

namespace LobbyHandler

/-- The members of the answer about a lobby, with the players written as given. -/
def responseWith (seconds : Time → String) (l : Lobby) (players : Json) : List (String × Json) := [
  ("lobby_id", Codec.string.marshal l.lobbyID),
  ("name", Codec.string.marshal l.name),
  ("board_size", Codec.int.marshal l.boardSize),
  ("host_id", Codec.int.marshal l.hostID),
  ("player_limit", Codec.int.marshal l.playerLimit),
  ("is_private", Codec.bool.marshal l.isPrivate),
  ("created_at", .str (seconds l.createdAt)),
  ("players", players)]

def response (seconds : Time → String) (l : Lobby) : List (String × Json) :=
  responseWith seconds l (LobbyPlayer.codec.slice.marshal l.players)

end LobbyHandler

structure CreateGameBody where
  playerIDs : List ℤ
  boardSize : ℤ
  lobbyID : String
  deriving DecidableEq, Repr

def CreateGameBody.codec : Codec CreateGameBody :=
  .struct ⟨[], 0, ""⟩ [
    .of "player_ids" (.slice .int) (·.playerIDs) fun b playerIDs => { b with playerIDs },
    .of "board_size" .int (·.boardSize) fun b boardSize => { b with boardSize },
    .of "lobby_id" .string (·.lobbyID) fun b lobbyID => { b with lobbyID }]

namespace Web

/-- The object with a property set. A property that is there keeps its place. -/
def setProperty (name : String) (v : Json) (o : List (String × Json)) : List (String × Json) :=
  if o.any (·.1 = name) then o.map fun member => if member.1 = name then (name, v) else member
  else o ++ [(name, v)]

/-- A property that is neither undefined nor null. -/
def given (name : String) (o : Json) : Option Json := (o.property name).filter (! ·.isNull)

def text : Json → String
  | .null => ""
  | .bool b => if b then "true" else "false"
  | .num n => toString n
  | .str s => s
  | .arr elems => ",".intercalate (elems.map text)
  | .obj _ => "[object Object]"

/-- What the page keeps: the cached lobby, and the game that it has gone on to. -/
structure LobbyPage where
  cached : Option (List (String × Json))
  goneTo : Option Json

namespace LobbyPage

def receive (lobbyID : String) (event : Event) (page : LobbyPage) : LobbyPage :=
  let onLobbyTopic := event.topic = lobbyTopic lobbyID
  let gameNewHere := event.type = "game:new" ∧
    text ((event.payload.property "lobby_id").getD .null) = lobbyID
  if ¬ onLobbyTopic ∧ ¬ gameNewHere then page
  else if event.type = "lobby_updated" then
    { page with
      cached := page.cached.map fun old =>
        match given "players" event.payload with
        | some players => setProperty "players" players old
        | none => old }
  else if event.type = "game:new" then
    match event.payload.property "gameID" with
    | some id => { page with goneTo := if id.isNull then none else some id }
    | none => { page with goneTo := given "game_id" event.payload }
  else page

/-- The page has unsubscribed once it has gone on to a game. -/
def handle (lobbyID : String) (event : Event) (page : LobbyPage) : LobbyPage :=
  if page.goneTo.isSome then page else page.receive lobbyID event

/-- The body that the start button posts. Mapping over what is no array throws. -/
def startBody (lobbyID : String) (lobby : List (String × Json)) : Option Json := do
  let players ← ((given "players" (.obj lobby)).getD (.arr [])).elements
  return .obj [
    ("player_ids", .arr (players.map fun p => (p.property "user_id").getD .null)),
    ("board_size", ((Json.obj lobby).property "board_size").getD .null),
    ("lobby_id", .str lobbyID)]

def update? (lobbyID : String) (event : Event) : Option Json :=
  if event.topic = lobbyTopic lobbyID ∧ event.type = "lobby_updated" then
    given "players" event.payload
  else none

variable {seconds : Time → String} {lobbyID : String} {l₀ : Lobby} {page : LobbyPage}
  {event : Event} {players : List LobbyPlayer} {p : Publication}

theorem lobbyTopic_inj {id id' : String} : lobbyTopic id = lobbyTopic id' ↔ id = id' := by
  simp [lobbyTopic]

theorem setProperty_players (seconds : Time → String) (l : Lobby) (players players' : Json) :
    setProperty "players" players' (LobbyHandler.responseWith seconds l players) =
      LobbyHandler.responseWith seconds l players' := by
  simp [setProperty, LobbyHandler.responseWith]

theorem cached_receive (lobbyID : String) (event : Event) (page : LobbyPage) :
    (page.receive lobbyID event).cached = match update? lobbyID event with
      | some players => page.cached.map (setProperty "players" players)
      | none => page.cached := by
  by_cases hnew : event.type = "game:new"
  · have hother : event.type ≠ "lobby_updated" := by simp [hnew]
    have hnone : update? lobbyID event = none := by simp [update?, hother]
    rw [hnone, receive]
    split
    · rfl
    · cases event.payload.property "gameID" <;> rfl
  · unfold receive update?
    by_cases htopic : event.topic = lobbyTopic lobbyID
    · by_cases htype : event.type = "lobby_updated"
      · simp only [htopic, htype]
        cases given "players" event.payload <;> simp
      · simp [htopic, htype, hnew]
    · simp [htopic, hnew]

theorem update?_of_topic (h : event.topic ≠ lobbyTopic lobbyID) : update? lobbyID event = none := by
  simp [update?, h]

theorem update?_of_type (h : event.type ≠ "lobby_updated") : update? lobbyID event = none := by
  simp [update?, h]

theorem update?_lobbyUpdated (hp : p ∈ LobbyService.lobbyUpdated lobbyID
    (LobbyUpdatedPayload.codec.marshal ⟨lobbyID, players, "waiting"⟩)) :
    update? lobbyID p.event = some (LobbyPlayer.codec.slice.marshal players) := by
  have hgiven : given "players" (LobbyUpdatedPayload.codec.marshal ⟨lobbyID, players, "waiting"⟩) =
      some (LobbyPlayer.codec.slice.marshal players) := by
    simp [given, Json.property, LobbyUpdatedPayload.codec, Codec.struct, Field.of]
    rfl
  rcases List.mem_pair.mp hp with rfl | rfl
  · simp [update?, hgiven]
  · simp [update?, hgiven]

theorem topic_of_lobbyUpdated {id : String} {payload : Json}
    (hp : p ∈ LobbyService.lobbyUpdated id payload) : p.event.topic = lobbyTopic id := by
  rcases List.mem_pair.mp hp with rfl | rfl <;> rfl

theorem type_of_started {id : String} {gameID : ℤ} {playerIDs : List ℤ}
    (hp : p ∈ publishLobbyGameStarted id gameID playerIDs) : p.event.type = "game:new" := by
  unfold publishLobbyGameStarted at hp
  split at hp
  · cases hp
  · rcases List.mem_cons.mp hp with rfl | hp
    · rfl
    · obtain ⟨pid, -, rfl⟩ := List.mem_map.mp hp
      rfl

theorem shown_handle (h : ∃ players, page.cached =
      some (LobbyHandler.responseWith seconds l₀ players)) (event : Event) :
    ∃ players, (page.handle lobbyID event).cached =
      some (LobbyHandler.responseWith seconds l₀ players) := by
  obtain ⟨players, hcached⟩ := h
  unfold handle
  split
  · exact ⟨players, hcached⟩
  · rw [cached_receive, hcached]
    cases update? lobbyID event with
    | none => exact ⟨players, rfl⟩
    | some players' => exact ⟨players', congrArg some (setProperty_players seconds l₀ _ _)⟩

theorem goneTo_handle (h : (page.handle lobbyID event).goneTo = none) : page.goneTo = none := by
  unfold handle at h
  split at h
  · exact h
  case isFalse hnot => simpa using hnot

theorem startBody_response (seconds : Time → String) (l : Lobby) :
    ∃ body, startBody l.lobbyID (LobbyHandler.response seconds l) = some body ∧
      CreateGameBody.codec.unmarshal body = some ⟨l.playerIDs, l.boardSize, l.lobbyID⟩ := by
  have hgiven : given "players" (.obj (LobbyHandler.response seconds l)) =
      some (.arr (l.players.map LobbyPlayer.codec.marshal)) := by
    simp [given, Json.property, LobbyHandler.response, LobbyHandler.responseWith]
    exact ⟨rfl, rfl⟩
  have hsize : (Json.obj (LobbyHandler.response seconds l)).property "board_size" =
      some (.num l.boardSize) := by
    simp [Json.property, LobbyHandler.response, LobbyHandler.responseWith]
    rfl
  have hids : (l.players.map LobbyPlayer.codec.marshal).map
      (fun p => (p.property "user_id").getD .null) = l.playerIDs.map Codec.int.marshal := by
    rw [List.map_map, Lobby.playerIDs, List.map_map]
    apply List.map_congr_left
    intro p _
    simp [LobbyPlayer.codec, Codec.struct, Json.property, Field.of]
  have hlawful : CreateGameBody.codec.Lawful :=
    Codec.lawful_struct (by decide) fun _ _ => by simp
  refine ⟨CreateGameBody.codec.marshal ⟨l.playerIDs, l.boardSize, l.lobbyID⟩, ?_,
    hlawful.unmarshal_marshal _⟩
  simp only [startBody, hgiven, hsize, Option.getD_some, Json.elements, hids, Option.bind_eq_bind,
    Option.bind_some]
  rfl

end LobbyPage

end Web

end DotsAndBoxes
