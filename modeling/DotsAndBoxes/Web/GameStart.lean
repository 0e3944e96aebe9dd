import DotsAndBoxes.Web.LobbyUpdates

/-! # From the page of a lobby to its game

The start of a game is published on the topic of the lobby and on the topic of each of its
players, so that the page finds out about it in whichever of the rooms its session is. The page
goes on to the first game of the lobby that it hears of, and to none of another lobby.
-/

namespace DotsAndBoxes.Web.LobbyPage

open Tagged Runs

def newGame? (lobbyID : String) (event : Event) : Option Json :=
  (receive lobbyID event ⟨none, none⟩).goneTo

def Starts (lobbyID : String) (acts : List Act) (id : Json) : Prop :=
  ∃ gameID playerIDs, .startGame lobbyID gameID playerIDs ∈ acts ∧ id = .num gameID

/-- The session of the page is in a room that is told of the start: that of the lobby, or that
of one of the players. -/
def Wiring.Tells (w : Wiring) (lobbyID : String) (playerIDs : List ℤ) : Prop :=
  ∃ topic ∈ lobbyTopic lobbyID :: playerIDs.map userTopic,
    w.heard topic = true ∧ w.rooms topic = true

/-- Whatever is on its way takes the page to a game that some act starts, or nowhere. -/
structure OnlyStarted (lobbyID : String) (acts : List Act) (s : System) : Prop where
  gone : ∀ id, s.page.goneTo = some id → Starts lobbyID acts id
  queued : ∀ channel, ∀ event ∈ s.queues channel, ∀ id, newGame? lobbyID event = some id →
    Starts lobbyID acts id

/-- The page has gone on to a game, or an event that takes it to one is on its way. -/
def GoesOn (w : Wiring) (lobbyID : String) (s : System) : Prop :=
  s.page.goneTo.isSome = true ∨ ∃ channel, ∃ event ∈ s.queues channel,
    w.rooms event.topic = true ∧ (newGame? lobbyID event).isSome = true

variable {stamp : Time → String} {w : Wiring} {lobbyID id : String} {s s' : System} {a : Act}
  {acts : List Act} {page : LobbyPage} {event : Event} {gameID : ℤ} {playerIDs : List ℤ}
  {p : Publication} {change : LobbyChange}

theorem goneTo_receive (hopen : page.goneTo = none) :
    (page.receive lobbyID event).goneTo = newGame? lobbyID event := by
  unfold newGame? receive
  dsimp only
  split_ifs
  · exact hopen
  · exact hopen
  · cases event.payload.property "gameID" <;> rfl
  · exact hopen

theorem newGame?_of_type (h : event.type ≠ "game:new") : newGame? lobbyID event = none := by
  unfold newGame? receive
  dsimp only
  rw [if_neg h]
  split_ifs <;> rfl

theorem userTopic_ne_lobbyTopic (pid : ℤ) (lobbyID : String) :
    userTopic pid ≠ lobbyTopic lobbyID := by
  intro h
  have hhead := congrArg (fun t => t.toList.head?) h
  simp [userTopic, lobbyTopic] at hhead

/-- The publications of a start: one on each of the topics that are told of it. -/
theorem mem_started : p ∈ publishLobbyGameStarted id gameID playerIDs ↔ id ≠ "" ∧
    ∃ topic ∈ lobbyTopic id :: playerIDs.map userTopic, p =
      publishIntegrationEvent topic "game:new" (gameStartedPayload.marshal (gameID, id)) := by
  unfold publishLobbyGameStarted
  split_ifs with hid
  · simp [hid]
  · simp [hid, @eq_comm _ p]

theorem newGame?_started (hp : p ∈ publishLobbyGameStarted id gameID playerIDs) :
    newGame? lobbyID p.event = if id = lobbyID then some (.num gameID) else none := by
  obtain ⟨-, topic, htopic, rfl⟩ := mem_started.mp hp
  have hlobby : text (((gameStartedPayload.marshal (gameID, id)).property "lobby_id").getD .null) =
      id := by
    simp [gameStartedPayload, Codec.struct, Json.property, Field.of, Codec.string, text]
  have hgame : (gameStartedPayload.marshal (gameID, id)).property "gameID" =
      some (.num gameID) := by
    simp [gameStartedPayload, Codec.struct, Json.property, Field.of, Codec.int]
  have hother (hne : id ≠ lobbyID) : topic ≠ lobbyTopic lobbyID := by
    rcases List.mem_cons.mp htopic with rfl | huser
    · rw [Ne, lobbyTopic_inj]
      exact hne
    · obtain ⟨pid, -, rfl⟩ := List.mem_map.mp huser
      exact userTopic_ne_lobbyTopic pid lobbyID
  unfold newGame? receive
  simp only [publishIntegrationEvent, hlobby, hgame]
  by_cases hid : id = lobbyID
  · simp [hid, Json.isNull]
  · simp [hid, hother hid]

theorem mem_queues_publish {publications : List Publication} {channel : String} :
    event ∈ (s.publish w publications).queues channel ↔ event ∈ s.queues channel ∨
      w.heard channel = true ∧ ∃ p ∈ publications, p.channel = channel ∧ p.event = event := by
  unfold System.publish
  cases hheard : w.heard channel with
  | false => simp [hheard]
  | true => simp [hheard, and_assoc]

theorem newGame?_change (hp : p ∈ change.publications stamp) : newGame? lobbyID p.event = none := by
  apply newGame?_of_type
  cases change with
  | updated =>
    rcases List.mem_pair.mp hp with rfl | rfl <;> simp
  | created | deleted =>
    obtain rfl := List.mem_singleton.mp hp
    simp

theorem OnlyStarted.step (h : OnlyStarted lobbyID acts s) (ha : a ∈ acts)
    (hstep : Step stamp w lobbyID s a s') : OnlyStarted lobbyID acts s' := by
  cases hstep with
  | refused | loaded | write | expire => exact ⟨h.gone, h.queued⟩
  | @publish i change n p hwritten hpublished =>
    refine ⟨h.gone, fun channel event hevent id hid => ?_⟩
    rcases mem_queues_publish.mp hevent with hold | ⟨-, q, hq, -, rfl⟩
    · exact h.queued channel event hold id hid
    · obtain rfl := List.mem_singleton.mp hq
      rw [newGame?_change (List.mem_of_getElem? hpublished)] at hid
      cases hid
  | @startGame startedID gameID playerIDs =>
    refine ⟨h.gone, fun channel event hevent id hid => ?_⟩
    rcases mem_queues_publish.mp hevent with hold | ⟨-, p, hp, -, rfl⟩
    · exact h.queued channel event hold id hid
    · rw [newGame?_started hp] at hid
      split_ifs at hid with hsame
      subst hsame
      exact ⟨gameID, playerIDs, ha, (Option.some.inj hid).symm⟩
  | @deliver channel event rest hqueue =>
    have hhead : event ∈ s.queues channel := hqueue ▸ List.mem_cons_self
    constructor
    · intro id hid
      dsimp only at hid
      split at hid
      · unfold handle at hid
        split at hid
        · exact h.gone id hid
        case isFalse hopen =>
          rw [goneTo_receive (by simpa using hopen)] at hid
          exact h.queued channel event hhead id hid
      · exact h.gone id hid
    · intro other event' hevent' id hid
      dsimp only at hevent'
      by_cases hother : other = channel
      · subst hother
        rw [Function.update_self] at hevent'
        exact h.queued other event' (hqueue ▸ List.mem_cons_of_mem _ hevent') id hid
      · rw [Function.update_of_ne hother] at hevent'
        exact h.queued other event' hevent' id hid

theorem goesOn_startGame (hid : lobbyID ≠ "") (htells : w.Tells lobbyID playerIDs) :
    GoesOn w lobbyID (s.publish w (publishLobbyGameStarted lobbyID gameID playerIDs)) := by
  obtain ⟨topic, htopic, hheard, hroom⟩ := htells
  have hp : publishIntegrationEvent topic "game:new"
      (gameStartedPayload.marshal (gameID, lobbyID)) ∈
        publishLobbyGameStarted lobbyID gameID playerIDs :=
    mem_started.mpr ⟨hid, topic, htopic, rfl⟩
  refine .inr ⟨topic, _, mem_queues_publish.mpr (.inr ⟨hheard, _, hp, rfl, rfl⟩), hroom, ?_⟩
  rw [newGame?_started hp, if_pos rfl]
  rfl

theorem GoesOn.step (h : GoesOn w lobbyID s) (hstep : Step stamp w lobbyID s a s') :
    GoesOn w lobbyID s' := by
  rcases h with hgone | ⟨channel, event, hevent, hroom, hnew⟩
  · left
    cases hstep with
    | refused | loaded | write | publish | expire | startGame => exact hgone
    | deliver =>
      dsimp only
      split
      · rw [handle, if_pos hgone]
        exact hgone
      · exact hgone
  · cases hstep with
    | refused | loaded | write | expire => exact .inr ⟨channel, event, hevent, hroom, hnew⟩
    | publish | startGame =>
      exact .inr ⟨channel, event, mem_queues_publish.mpr (.inl hevent), hroom, hnew⟩
    | @deliver served first rest hqueue =>
      by_cases hserved : channel = served
      · subst hserved
        rw [hqueue] at hevent
        rcases List.mem_cons.mp hevent with rfl | hrest
        · left
          dsimp only
          rw [if_pos hroom, handle]
          split
          case isTrue hgone => exact hgone
          case isFalse hopen => rwa [goneTo_receive (by simpa using hopen)]
        · refine .inr ⟨channel, event, ?_, hroom, hnew⟩
          dsimp only
          rwa [Function.update_self]
      · refine .inr ⟨channel, event, ?_, hroom, hnew⟩
        dsimp only
        rwa [Function.update_of_ne hserved]

/-- An open page goes on only to a game that is started from its lobby. When one is started and
its session is in the room of the lobby or in that of a player, it does go on to one once every
event has come in, in whatever order the topics of the bus are served. -/
theorem goes_on_to_started_game {run : List (Act × System)}
    (hrun : Along (Step stamp w lobbyID) s run) (hopen : s.page.goneTo = none)
    (hclean : ∀ channel, ∀ event ∈ s.queues channel, newGame? lobbyID event = none) :
    (∀ id, (last s run).page.goneTo = some id → Starts lobbyID (run.map Prod.fst) id) ∧
    ∀ gameID playerIDs, .startGame lobbyID gameID playerIDs ∈ run.map Prod.fst → lobbyID ≠ "" →
      w.Tells lobbyID playerIDs → (∀ channel, (last s run).queues channel = []) →
      ∃ id, (last s run).page.goneTo = some id := by
  constructor
  · have hstart : OnlyStarted lobbyID (run.map Prod.fst) s := by
      constructor
      · intro id hid
        rw [hopen] at hid
        cases hid
      · intro channel event hevent id hid
        rw [hclean channel event hevent] at hid
        cases hid
    have hlabels : Along (fun _ a _ => a ∈ run.map Prod.fst) s run :=
      along_label_iff.mpr fun step hstep => List.mem_map_of_mem hstep
    exact ((hrun.and hlabels).inv_last hstart fun s a s' h hstep => h.step hstep.2 hstep.1).gone
  · intro gameID playerIDs hact hid htells hdrained
    obtain ⟨⟨a, t⟩, hmem, rfl⟩ := List.mem_map.mp hact
    obtain ⟨before, after, rfl⟩ := List.append_of_mem hmem
    obtain ⟨-, hstep, hafter⟩ := along_append.mp hrun
    have hgoes : GoesOn w lobbyID t := by
      cases hstep
      exact goesOn_startGame hid htells
    rw [last_append] at hdrained ⊢
    rcases hafter.inv_last hgoes fun s a s' h hstep => h.step hstep with
      hgone | ⟨channel, event, hevent, -⟩
    · exact Option.isSome_iff_exists.mp hgone
    · have hnil := hdrained channel
      change (last t after).queues channel = [] at hnil
      rw [hnil] at hevent
      cases hevent

/-- The page of a player whose session is not in the room of the lobby. -/
theorem goes_on_to_started_game_by_user :
    ∃ run, Along (Step (fun _ => "") ⟨(· = "user:1"), (· = "user:1")⟩ "a1") hostWaits run ∧
      ∃ id, (last hostWaits run).page.goneTo = some id ∧ Starts "a1" (run.map Prod.fst) id := by
  let w : Wiring := ⟨(· = "user:1"), (· = "user:1")⟩
  let started := hostWaits.publish w (publishLobbyGameStarted "a1" 10 [1, 2])
  let told : Event := ⟨"user:1", "game:new", gameStartedPayload.marshal (10, "a1")⟩
  have hqueue : started.queues "user:1" = [told] := rfl
  let gone : System := { started with
    queues := Function.update started.queues "user:1" []
    page := started.page.handle "a1" told }
  let run : List (Act × System) := [(.startGame "a1" 10 [1, 2], started), (.deliver "user:1", gone)]
  have hrun : Along (Step (fun _ => "") w "a1") hostWaits run :=
    ⟨.startGame, .deliver hqueue, trivial⟩
  have hgoes := goes_on_to_started_game hrun rfl fun channel event hevent => by cases hevent
  have hdrained : ∀ channel, (last hostWaits run).queues channel = [] := by
    intro channel
    by_cases huser : channel = "user:1"
    · subst huser
      rfl
    · simp [run, last, gone, started, System.publish, hostWaits, w, huser]
  have htells : w.Tells "a1" [1, 2] := ⟨"user:1", by decide, rfl, rfl⟩
  obtain ⟨id, hid⟩ := hgoes.2 10 [1, 2] List.mem_cons_self (by decide) htells hdrained
  exact ⟨run, hrun, id, hid, hgoes.1 id hid⟩

end DotsAndBoxes.Web.LobbyPage
