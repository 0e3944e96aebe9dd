import DotsAndBoxes.Bot.Moves
import DotsAndBoxes.Service.Requests
import DotsAndBoxes.Service.Timers

/-! # The game server

A game is persisted, and then its events are stored under an id that the identity
column of the games table hands out, or it is a bot game, which is kept in memory
under an id from the counter of the bot service. Every operation on a game asks
first whether the id is that of a bot game, and tells the timers what it did.
-/

namespace DotsAndBoxes

open Serial

structure BotService where
  botGames : ℤ → Option Game
  nextID : ℤ

/-- The stored events by game id, with the next value of the identity column, and what the
process keeps in memory. -/
structure Server where
  identity : ℤ
  events : ℤ → List EventRow
  bots : BotService
  timers : GameTimerService

/-- A process that starts on a database: it knows no bot games and no timers. -/
def Server.boot (identity : ℤ) (events : ℤ → List EventRow) : Server where
  identity
  events
  bots := { botGames := fun _ => none, nextID := 10000 }
  timers := { timers := fun _ => none }

def BotService.isBotGame (b : BotService) (gameID : ℤ) : Bool := (b.botGames gameID).isSome

def BotService.keep (b : BotService) (gameID : ℤ) (g : Game) : BotService :=
  { b with botGames := Function.update b.botGames gameID (some g) }

namespace Server

def getGame (db : Database) (gameID : ℤ) (s : Server) : Exec (Except LoadError (Option Game)) :=
  match s.bots.botGames gameID with
  | some g => some (.ok (some g))
  | none => db.findByID gameID (s.events gameID)

/-- Keep a game that has been changed: a bot game is changed in place, and of a persisted
game the events are appended. -/
def save (db : Database) (gameID : ℤ) (g : Game) (s : Server) : Server × Game :=
  if s.bots.isBotGame gameID then ({ s with bots := s.bots.keep gameID g }, g)
  else
    ({ s with
      events := Function.update s.events gameID
        (db.appendEvents (s.events gameID) g.uncommittedEvents) }, g.clearEvents)

/-- Load a game, change it and the timers, and keep it. A nil game is dereferenced. -/
def transact (db : Database) (gameID : ℤ)
    (change : Game → Exec (Except ServiceError (Game × GameTimerService))) (s : Server) :
    Exec (Server × Except ServiceError Game) := do
  match ← s.getGame db gameID with
  | .error e => return (s, .error (.load e))
  | .ok none => none
  | .ok (some g) =>
    match ← change g with
    | .error e => return (s, .error e)
    | .ok (g, timers) =>
      let saved := s.save db gameID g
      return ({ saved.1 with timers }, .ok saved.2)

end Server

/-- The timers after a move or a pass: switched if the turn changed, and removed if the game
is over. -/
def GameTimerService.afterResult (now : Time) (previousTurn : ℤ) (g : Game) (result : MoveResult)
    (t : GameTimerService) : Exec GameTimerService := do
  let gameID ← g.gameID
  let t := if result.nextTurn ≠ previousTurn then t.switchTurn now gameID result.nextTurn else t
  return if result.gameOver then t.stopTimer gameID else t

/-- On a bot game the missing seat is reported as an invalid move. -/
def ServiceError.ofBotGame : ServiceError → ServiceError
  | .playerNotInGame playerID => .botPlayerNotInGame playerID
  | e => e

/-- A move on a game, whose errors depend on the kind of the game. -/
def Game.makeMoveRequest (isBotGame : Bool) (now : Time) (playerID row col : ℤ) (edge : EdgeType)
    (g : Game) : Exec (Except ServiceError (Game × MoveResult)) :=
  (g.makeMove now playerID row col edge).map fun result =>
    if isBotGame then result.mapError .ofBotGame else result

def Server.followed (s : Server) (now : Time)
    (change : Game → Exec (Except ServiceError (Game × MoveResult))) (g : Game) :
    Exec (Except ServiceError (Game × GameTimerService)) := do
  match ← change g with
  | .error e => return .error e
  | .ok (g', result) =>
    let timers ← s.timers.afterResult now g.currentTurn g' result
    return .ok (g', timers)

namespace Server

def makeMove (db : Database) (now : Time) (gameID playerID row col : ℤ) (edge : String)
    (s : Server) : Exec (Server × Except ServiceError Game) :=
  match parseEdge edge with
  | .error e => some (s, .error e)
  | .ok edge => s.transact db gameID <| s.followed now
    (·.makeMoveRequest (s.bots.isBotGame gameID) now playerID row col edge)

def passTurnOnTimeout (db : Database) (now : Time) (gameID : ℤ) (s : Server) :
    Exec (Server × Except ServiceError Game) :=
  s.transact db gameID (s.followed now (·.passTurnRequest now))

def forfeitAndStop (now : Time) (playerID : ℤ) (s : Server) (g : Game) :
    Exec (Except ServiceError (Game × GameTimerService)) := do
  match ← g.forfeitRequest now playerID with
  | .error e => return .error e
  | .ok g =>
    let gameID ← g.gameID
    return .ok (g, s.timers.stopTimer gameID)

def forfeitGame (db : Database) (now : Time) (gameID playerID : ℤ) (s : Server) :
    Exec (Server × Except ServiceError Game) :=
  s.transact db gameID (s.forfeitAndStop now playerID)

def request (db : Database) (gameID : ℤ) (s : Server) :
    Request → Exec (Server × Except ServiceError Game)
  | .makeMove now playerID row col edge => s.makeMove db now gameID playerID row col edge
  | .passTurnOnTimeout now => s.passTurnOnTimeout db now gameID
  | .forfeitGame now playerID => s.forfeitGame db now gameID playerID

/-- One round of the loop of `PlayBotTurn`, after its delay. A bot without a move gives up
its turn, and no event says so. -/
def playBotTurn (chance : Chance) (now : Time) (gameID : ℤ) (s : Server) : Exec Server :=
  match s.bots.botGames gameID with
  | none => some s
  | some game =>
    if game.hasEnded then some s
    else match game.getCurrentPlayer with
    | none => some s
    | some currentPlayer =>
      if currentPlayer.userID.all (· ≥ 0) then some s
      else do
        match ← chooseBotMove chance game currentPlayer.turnOrder with
        | none =>
          let currentTurn ← game.nextTurn
          return { s with bots := s.bots.keep gameID { game with currentTurn } }
        | some move =>
          let (game, _) ← game.applyMove now move
          return { s with bots := s.bots.keep gameID game }

/-- The grace period of a player has run out: forfeit, and remove the timer in any case. -/
def handleDisconnectTimeout (db : Database) (now : Time) (gameID userID : ℤ) (s : Server) :
    Exec Server := do
  let (s, _) ← s.forfeitGame db now gameID userID
  return { s with timers := s.timers.stopTimer gameID }

end Server

def Request.now : Request → Time
  | .makeMove now _ _ _ _ => now
  | .passTurnOnTimeout now => now
  | .forfeitGame now _ => now

/-- The timers register no game that had no timer. -/
def GameTimerService.Quiets (t t' : GameTimerService) : Prop :=
  ∀ gameID, t.timers gameID = none → t'.timers gameID = none

namespace GameTimerService

variable {t t' t'' : GameTimerService} {now : Time} {gameID : ℤ}

theorem Quiets.refl (t : GameTimerService) : t.Quiets t := fun _ h => h

theorem Quiets.trans (h : t.Quiets t') (h' : t'.Quiets t'') : t.Quiets t'' :=
  fun id hid => h' id (h id hid)

theorem quiets_switchTurn (now : Time) (gameID newTurn : ℤ) (t : GameTimerService) :
    t.Quiets (t.switchTurn now gameID newTurn) := by
  intro id hid
  by_cases hne : id = gameID
  · subst hne; simp [hid]
  · rw [timers_switchTurn_of_ne hne, hid]

theorem quiets_stopTimer (gameID : ℤ) (t : GameTimerService) : t.Quiets (t.stopTimer gameID) := by
  intro id hid
  by_cases hne : id = gameID
  · subst hne; simp
  · rw [timers_stopTimer_of_ne hne, hid]

theorem quiets_afterResult {previousTurn : ℤ} {g : Game} {result : MoveResult}
    (h : t.afterResult now previousTurn g result = some t') : t.Quiets t' := by
  obtain ⟨id, -, h⟩ := Option.bind_eq_some_iff.mp h
  obtain rfl := Option.some.inj h
  have hswitch : t.Quiets
      (if result.nextTurn ≠ previousTurn then t.switchTurn now id result.nextTurn else t) := by
    split_ifs
    · exact quiets_switchTurn now id result.nextTurn t
    · exact .refl t
  split_ifs at hswitch ⊢ <;> first | exact hswitch | exact hswitch.trans (quiets_stopTimer id _)

end GameTimerService

def Game.botToMove (g : Game) : Bool :=
  !g.hasEnded && g.getCurrentPlayer.any fun player => player.userID.any (· < 0)

namespace Server

variable {db : Database} {s s' : Server} {gameID : ℤ} {now : Time}
  {r : Except ServiceError Game}

theorem save_of_bot (h : s.bots.isBotGame gameID = true) (db : Database) (g : Game) :
    s.save db gameID g = ({ s with bots := s.bots.keep gameID g }, g) := if_pos h

theorem save_of_stored (h : s.bots.isBotGame gameID = false) (db : Database) (g : Game) :
    s.save db gameID g = ({ s with
      events := Function.update s.events gameID
        (db.appendEvents (s.events gameID) g.uncommittedEvents) }, g.clearEvents) :=
  if_neg (by simp [h])

/-- A transaction that fails changes nothing; one that succeeds keeps the changed game. -/
theorem transact_eq_some
    {change : Game → Exec (Except ServiceError (Game × GameTimerService))}
    (h : s.transact db gameID change = some (s', r)) :
    (s' = s ∧ ∃ e, r = .error e) ∨
    ∃ g g' timers, s.getGame db gameID = some (.ok (some g)) ∧
      change g = some (.ok (g', timers)) ∧
      s' = { (s.save db gameID g').1 with timers } ∧ r = .ok (s.save db gameID g').2 := by
  obtain ⟨loaded, hget, h⟩ := Option.bind_eq_some_iff.mp h
  cases loaded with
  | error e =>
    obtain ⟨rfl, rfl⟩ := Prod.mk.inj (Option.some.inj h)
    exact .inl ⟨rfl, _, rfl⟩
  | ok g =>
    cases g with
    | none => cases h
    | some g =>
      obtain ⟨changed, hchange, h⟩ := Option.bind_eq_some_iff.mp h
      cases changed with
      | error e =>
        obtain ⟨rfl, rfl⟩ := Prod.mk.inj (Option.some.inj h)
        exact .inl ⟨rfl, _, rfl⟩
      | ok changed =>
        obtain ⟨g', timers⟩ := changed
        obtain ⟨rfl, rfl⟩ := Prod.mk.inj (Option.some.inj h)
        exact .inr ⟨g, g', timers, hget, hchange, rfl, rfl⟩

theorem followed_eq_some {change : Game → Exec (Except ServiceError (Game × MoveResult))}
    {g : Game} {x : Except ServiceError (Game × GameTimerService)}
    (h : s.followed now change g = some x) :
    (∃ e, change g = some (.error e) ∧ x = .error e) ∨
    ∃ g' result timers, change g = some (.ok (g', result)) ∧
      s.timers.afterResult now g.currentTurn g' result = some timers ∧ x = .ok (g', timers) := by
  obtain ⟨changed, hchange, h⟩ := Option.bind_eq_some_iff.mp h
  cases changed with
  | error e => exact .inl ⟨e, hchange, (Option.some.inj h).symm⟩
  | ok changed =>
    obtain ⟨timers, hafter, h⟩ := Option.bind_eq_some_iff.mp h
    exact .inr ⟨changed.1, changed.2, timers, hchange, hafter, (Option.some.inj h).symm⟩

theorem forfeitAndStop_eq_some {playerID : ℤ} {g : Game}
    {x : Except ServiceError (Game × GameTimerService)}
    (h : s.forfeitAndStop now playerID g = some x) :
    (∃ e, g.forfeitRequest now playerID = some (.error e) ∧ x = .error e) ∨
    ∃ g' id, g.forfeitRequest now playerID = some (.ok g') ∧ g'.gameID = some id ∧
      x = .ok (g', s.timers.stopTimer id) := by
  obtain ⟨changed, hchange, h⟩ := Option.bind_eq_some_iff.mp h
  cases changed with
  | error e => exact .inl ⟨e, hchange, (Option.some.inj h).symm⟩
  | ok g' =>
    obtain ⟨id, hid, h⟩ := Option.bind_eq_some_iff.mp h
    exact .inr ⟨g', id, hchange, hid, (Option.some.inj h).symm⟩

theorem makeMoveRequest_eq_ok {isBotGame : Bool} {playerID row col : ℤ} {edge : EdgeType}
    {g g' : Game} {result : MoveResult}
    (h : g.makeMoveRequest isBotGame now playerID row col edge = some (.ok (g', result))) :
    g.makeMove now playerID row col edge = some (.ok (g', result)) := by
  obtain ⟨x, hx, h⟩ := Option.map_eq_some_iff.mp h
  cases isBotGame with
  | false => rw [hx, ← h]; rfl
  | true =>
    cases x with
    | error e => cases h
    | ok x => rw [hx, ← h]; rfl

/-- What a request that succeeds does to the game it loaded and to the timers. -/
inductive Played (now : Time) (t : GameTimerService) (g : Game) :
    Game → GameTimerService → Prop where
  | move {g' : Game} {t' : GameTimerService} {move : Move} {result : MoveResult} :
      g.applyMove now move = some (g', .ok result) →
      t.afterResult now g.currentTurn g' result = some t' → Played now t g g' t'
  | pass {g' : Game} {t' : GameTimerService} {result : MoveResult} :
      g.passTurnOnTimeout now = some (g', .ok result) →
      t.afterResult now g.currentTurn g' result = some t' → Played now t g g' t'
  | forfeit {g' : Game} {playerID id : ℤ} :
      g.forfeit now playerID = some g' → g'.gameID = some id → Played now t g g' (t.stopTimer id)

theorem Played.raises {t t' : GameTimerService} {g g' : Game} (h : Played now t g g' t') :
    g.Raises now g' := by
  cases h with
  | move hmove => exact Game.raises_of_applyMove hmove
  | pass hpass => exact Game.raises_of_passTurnOnTimeout hpass
  | forfeit hforfeit => exact Game.raises_of_forfeit hforfeit

theorem Played.quiets {t t' : GameTimerService} {g g' : Game} (h : Played now t g g' t') :
    t.Quiets t' := by
  cases h with
  | move _ hafter => exact GameTimerService.quiets_afterResult hafter
  | pass _ hafter => exact GameTimerService.quiets_afterResult hafter
  | forfeit => exact GameTimerService.quiets_stopTimer _ t

theorem request_eq_some {q : Request} (h : s.request db gameID q = some (s', r)) :
    (s' = s ∧ ∃ e, r = .error e) ∨
    ∃ g g' timers, s.getGame db gameID = some (.ok (some g)) ∧ Played q.now s.timers g g' timers ∧
      s' = { (s.save db gameID g').1 with timers } ∧ r = .ok (s.save db gameID g').2 := by
  cases q with
  | makeMove now playerID row col edge =>
    change s.makeMove db now gameID playerID row col edge = _ at h
    unfold makeMove at h
    cases hedge : parseEdge edge with
    | error e =>
      rw [hedge] at h
      obtain ⟨rfl, rfl⟩ := Prod.mk.inj (Option.some.inj h)
      exact .inl ⟨rfl, _, rfl⟩
    | ok edge =>
      rw [hedge] at h
      apply (transact_eq_some h).imp id
      rintro ⟨g, g', timers, hget, hchange, hs, hr⟩
      obtain ⟨e, -, hx⟩ | ⟨g₁, result, t, hmove, hafter, hx⟩ := followed_eq_some hchange
      · cases hx
      · obtain ⟨rfl, rfl⟩ := Prod.mk.inj (Except.ok.inj hx)
        obtain ⟨turnOrder, -, happly⟩ := makeMove_eq_ok (makeMoveRequest_eq_ok hmove)
        exact ⟨g, g', timers, hget, .move happly hafter, hs, hr⟩
  | passTurnOnTimeout now =>
    apply (transact_eq_some h).imp id
    rintro ⟨g, g', timers, hget, hchange, hs, hr⟩
    obtain ⟨e, -, hx⟩ | ⟨g₁, result, t, hpass, hafter, hx⟩ := followed_eq_some hchange
    · cases hx
    · obtain ⟨rfl, rfl⟩ := Prod.mk.inj (Except.ok.inj hx)
      exact ⟨g, g', timers, hget, .pass (passTurnRequest_eq_ok hpass) hafter, hs, hr⟩
  | forfeitGame now playerID =>
    apply (transact_eq_some h).imp id
    rintro ⟨g, g', timers, hget, hchange, hs, hr⟩
    obtain ⟨e, -, hx⟩ | ⟨g₁, id, hforfeit, hid, hx⟩ := forfeitAndStop_eq_some hchange
    · cases hx
    · obtain ⟨rfl, rfl⟩ := Prod.mk.inj (Except.ok.inj hx)
      exact ⟨g, g', _, hget, .forfeit (forfeitRequest_eq_ok hforfeit).2 hid, hs, hr⟩

inductive BotPlayed (chance : Chance) (now : Time) (g : Game) : Game → Prop where
  | move {g' : Game} {player : Player} {m : Move} {result : Except MoveError MoveResult} :
      g.getCurrentPlayer = some player →
      chooseBotMove chance g player.turnOrder = some (some m) →
      g.applyMove now m = some (g', result) → BotPlayed chance now g g'
  | noMove {player : Player} {currentTurn : ℤ} :
      g.getCurrentPlayer = some player →
      chooseBotMove chance g player.turnOrder = some none →
      g.nextTurn = some currentTurn → BotPlayed chance now g { g with currentTurn }

theorem BotPlayed.sameID {chance : Chance} {g g' : Game} (h : BotPlayed chance now g g') :
    g'.gameID = g.gameID := by
  cases h with
  | move _ _ hmove => exact (Game.raises_of_applyMove hmove).gameID
  | noMove => rfl

theorem playBotTurn_eq_some {chance : Chance} (h : s.playBotTurn chance now gameID = some s') :
    (s' = s ∧ ∀ g, s.bots.botGames gameID = some g → g.botToMove = false) ∨
    ∃ g g', s.bots.botGames gameID = some g ∧ g.botToMove = true ∧ BotPlayed chance now g g' ∧
      s' = { s with bots := s.bots.keep gameID g' } := by
  unfold playBotTurn at h
  cases hgame : s.bots.botGames gameID with
  | none =>
    rw [hgame] at h
    exact .inl ⟨(Option.some.inj h).symm, by simp⟩
  | some g =>
    rw [hgame] at h
    dsimp only at h
    have hidle (hs : some s = some s') (hbot : g.botToMove = false) :
        s' = s ∧ ∀ g', some g = some g' → g'.botToMove = false :=
      ⟨(Option.some.inj hs).symm, fun g' hg => Option.some.inj hg ▸ hbot⟩
    split at h
    case isTrue hended => exact .inl (hidle h (by simp [Game.botToMove, hended]))
    case isFalse hended =>
      split at h
      case h_1 hplayer => exact .inl (hidle h (by simp [Game.botToMove, hplayer]))
      case h_2 player hplayer =>
        split at h
        case isTrue hhuman =>
          refine .inl (hidle h ?_)
          cases huser : player.userID <;> simp_all [Game.botToMove]
        case isFalse hhuman =>
          have hbot : g.botToMove = true := by
            cases huser : player.userID <;> simp_all [Game.botToMove]
          obtain ⟨choice, hchoose, h⟩ := Option.bind_eq_some_iff.mp h
          cases choice with
          | none =>
            obtain ⟨currentTurn, hnext, h⟩ := Option.bind_eq_some_iff.mp h
            exact .inr ⟨g, _, rfl, hbot, .noMove hplayer hchoose hnext, (Option.some.inj h).symm⟩
          | some m =>
            obtain ⟨⟨g', result⟩, hmove, h⟩ := Option.bind_eq_some_iff.mp h
            exact .inr ⟨g, g', rfl, hbot, .move hplayer hchoose hmove, (Option.some.inj h).symm⟩

/-- On an id that is not that of a bot game, a transaction loads and appends stored events,
and leaves everything else but the timers alone. -/
theorem transact_stored (hbot : s.bots.isBotGame gameID = false)
    {change : Game → Exec (Except ServiceError (Game × GameTimerService))}
    {plain : Game → Exec (Except ServiceError Game)}
    (hplain : ∀ g x, change g = some x → plain g = some (x.map Prod.fst))
    (h : s.transact db gameID change = some (s', r)) :
    (db.loadAndAppend gameID plain).run (s.events gameID) = (s'.events gameID, some r) ∧
      s'.bots = s.bots ∧ ∀ other, other ≠ gameID → s'.events other = s.events other := by
  have hnone : s.bots.botGames gameID = none := by
    simpa [BotService.isBotGame] using hbot
  obtain ⟨loaded, hget, h⟩ := Option.bind_eq_some_iff.mp h
  rw [getGame, hnone] at hget
  rw [Database.loadAndAppend, Prog.run_read]
  dsimp only at hget
  cases loaded with
  | error e =>
    obtain ⟨rfl, rfl⟩ := Prod.mk.inj (Option.some.inj h)
    rw [hget]
    exact ⟨rfl, rfl, fun _ _ => rfl⟩
  | ok g =>
    cases g with
    | none => cases h
    | some g =>
      obtain ⟨changed, hchange, h⟩ := Option.bind_eq_some_iff.mp h
      rw [hget]
      dsimp only
      rw [hplain g changed hchange]
      cases changed with
      | error e =>
        obtain ⟨rfl, rfl⟩ := Prod.mk.inj (Option.some.inj h)
        exact ⟨rfl, rfl, fun _ _ => rfl⟩
      | ok changed =>
        have hsaved := (Option.some.inj h).symm
        rw [save_of_stored hbot] at hsaved
        obtain ⟨rfl, rfl⟩ := Prod.mk.inj hsaved
        exact ⟨by simp [Except.map, Prog.run], rfl, fun other hne => by simp [hne]⟩

end Server

inductive CreationError where
  | invalidBoardSize (boardSize : ℤ)
  | playerCount
  | duplicatePlayer (playerID : ℤ)
  | noHumanPlayer
  | invalidRoster (humans numBots : ℤ)
  | create (e : CreateError)
  deriving DecidableEq, Repr

def CreationError.message : CreationError → String
  | .invalidBoardSize boardSize =>
    s!"invalid board size: must be between 5 and 10, got: {boardSize}"
  | .playerCount => "game requires 2-4 players"
  | .duplicatePlayer playerID => s!"duplicate player ID: {playerID}"
  | .noHumanPlayer => "must provide at least one human player"
  | .invalidRoster humans numBots =>
    s!"invalid roster: {humans} human(s) + {numBots} bot(s) = {humans + numBots} players (need 2-4)"
  | .create .anonymousPlayer => "cannot create game with anonymous players in database"

/-- The first id that occurs again, after the ids seen before. -/
def firstDuplicate (seen : List ℤ) : List ℤ → Option ℤ
  | [] => none
  | id :: ids => if id ∈ seen then some id else firstDuplicate (id :: seen) ids

structure Shuffle where
  shuffle : List Player → List Player
  perm : ∀ players, (shuffle players).Perm players

/-- A player with a user id, under its name or else a name made from the id. -/
def humanPlayer (usernames : ℤ → String) (id : ℤ) : Player where
  userID := some id
  username := if usernames id = "" then s!"Player{id}" else usernames id
  turnOrder := 0
  isAnonymous := false
  score := 0

def botPlayer (i : ℕ) : Player where
  userID := some (-(i + 1))
  username := s!"Bot{i + 1}"
  turnOrder := 0
  isAnonymous := false
  score := 0

def seated (players : List Player) : List Player :=
  players.mapIdx fun i player => { player with turnOrder := i, score := 0 }

namespace Server

def createGame (db : Database) (now : Time) (shuffle : Shuffle) (usernames : ℤ → String)
    (playerIDs : List ℤ) (boardSize : ℤ) (s : Server) :
    Exec (Server × Except CreationError Game) :=
  if boardSize < 5 ∨ boardSize > 10 then some (s, .error (.invalidBoardSize boardSize))
  else if playerIDs.length < 2 ∨ playerIDs.length > 4 then some (s, .error .playerCount)
  else match firstDuplicate [] playerIDs with
  | some id => some (s, .error (.duplicatePlayer id))
  | none => do
    let players := seated (shuffle.shuffle (playerIDs.map (humanPlayer usernames)))
    let game ← Game.newGame now (some 0) boardSize players
    match db.create s.identity game with
    | .error e => return (s, .error (.create e))
    | .ok (game, rows) =>
      return ({ s with
        identity := s.identity + 1
        events := Function.update s.events s.identity rows }, .ok game)

def createBotGame (now : Time) (shuffle : Shuffle) (usernames : ℤ → String)
    (playerIDs : List ℤ) (numBots boardSize : ℤ) (s : Server) :
    Exec (Server × Except CreationError Game) :=
  if boardSize < 5 ∨ boardSize > 10 then some (s, .error (.invalidBoardSize boardSize))
  else if playerIDs.length = 0 then some (s, .error .noHumanPlayer)
  else
    let totalPlayers := playerIDs.length + numBots
    if totalPlayers < 2 ∨ totalPlayers > 4 then
      some (s, .error (.invalidRoster playerIDs.length numBots))
    else do
      let players := playerIDs.map (humanPlayer usernames) ++
        (List.range numBots.toNat).map botPlayer
      let gameID := s.bots.nextID
      let game ← Game.newGame now (some gameID) boardSize (seated (shuffle.shuffle players))
      return ({ s with
        bots := { s.bots.keep gameID game with nextID := gameID + 1 } }, .ok game)

variable {db : Database} {now : Time} {shuffle : Shuffle} {usernames : ℤ → String}
  {playerIDs : List ℤ} {numBots boardSize : ℤ} {s s' : Server} {g : Game}

theorem createGame_eq_ok
    (h : s.createGame db now shuffle usernames playerIDs boardSize = some (s', .ok g)) :
    ∃ g₀ rows, (5 ≤ boardSize ∧ boardSize ≤ 10) ∧ (2 ≤ playerIDs.length ∧ playerIDs.length ≤ 4) ∧
      Game.newGame now (some 0) boardSize
        (seated (shuffle.shuffle (playerIDs.map (humanPlayer usernames)))) = some g₀ ∧
      db.create s.identity g₀ = .ok (g, rows) ∧ s' = { s with
        identity := s.identity + 1
        events := Function.update s.events s.identity rows } := by
  unfold createGame at h
  split at h
  · cases h
  case isFalse hsize =>
    split at h
    · cases h
    case isFalse hplayers =>
      split at h
      · cases h
      obtain ⟨g₀, hnew, h⟩ := Option.bind_eq_some_iff.mp h
      cases hcreate : db.create s.identity g₀ with
      | error e => simp [hcreate] at h
      | ok created =>
        obtain ⟨g₁, rows⟩ := created
        rw [hcreate] at h
        obtain ⟨rfl, hg⟩ := Prod.mk.inj (Option.some.inj h)
        obtain rfl := Except.ok.inj hg
        exact ⟨g₀, rows, by omega, by omega, hnew, hcreate, rfl⟩

theorem createBotGame_eq_ok
    (h : s.createBotGame now shuffle usernames playerIDs numBots boardSize = some (s', .ok g)) :
    (5 ≤ boardSize ∧ boardSize ≤ 10) ∧
      (2 ≤ playerIDs.length + numBots ∧ playerIDs.length + numBots ≤ 4) ∧
      Game.newGame now (some s.bots.nextID) boardSize
        (seated (shuffle.shuffle (playerIDs.map (humanPlayer usernames) ++
          (List.range numBots.toNat).map botPlayer))) = some g ∧
      s' = { s with bots := { s.bots.keep s.bots.nextID g with nextID := s.bots.nextID + 1 } } := by
  unfold createBotGame at h
  split at h
  · cases h
  case isFalse hsize =>
    split at h
    · cases h
    dsimp only at h
    split at h
    · cases h
    case isFalse htotal =>
      obtain ⟨game, hnew, h⟩ := Option.bind_eq_some_iff.mp h
      obtain ⟨rfl, hg⟩ := Prod.mk.inj (Option.some.inj h)
      obtain rfl := Except.ok.inj hg
      exact ⟨by omega, by omega, hnew, rfl⟩

theorem newGame_gameID {gameID : ℤ} {players : List Player}
    (h : Game.newGame now (some gameID) boardSize players = some g) : g.gameID = some gameID := by
  rw [Game.newGame_eq] at h
  obtain ⟨grid, -, rfl⟩ := Option.map_eq_some_iff.mp h
  rfl

theorem create_gameID {gameID : ℤ} {g₀ : Game} {rows : List EventRow}
    (h : db.create gameID g₀ = .ok (g, rows)) : g.gameID = some gameID := by
  obtain ⟨-, rfl, -⟩ := Database.create_eq_ok h
  rfl

end Server

end DotsAndBoxes
