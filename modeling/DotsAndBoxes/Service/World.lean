import DotsAndBoxes.Library.Runs
import DotsAndBoxes.Service.Server

/-! # Calls in flight

The calls on one game run side by side: requests of clients, passes and forfeits of its timer,
and bot loops. On a persisted game a call loads the stored events, changes its own aggregate and
appends what that raised; on a bot game it changes the aggregate in memory while it holds the
mutex of the bot service. In either case a call that succeeds goes on to write the projection,
to switch or stop the timer and to publish, one effect after the other, while other calls run.
-/

namespace DotsAndBoxes

open Runs

structure Detail where
  userID : ℤ
  turnOrder : ℤ
  score : ℤ
  deriving DecidableEq, Repr

structure Projection where
  currentTurn : ℤ
  winnerID : Option ℤ
  endedAt : Option Time
  details : List Detail
  deriving DecidableEq, Repr

def Player.detail (p : Player) : Option Detail :=
  p.userID.map fun userID => ⟨userID, p.turnOrder, p.score⟩

def Projection.create (g : Game) : Projection where
  currentTurn := 0
  winnerID := none
  endedAt := none
  details := g.players.filterMap Player.detail

def Projection.updateScore (details : List Detail) (p : Player) : List Detail :=
  if p.userID.isNone then details
  else details.map fun d => if d.turnOrder = p.turnOrder then { d with score := p.score } else d

def Projection.update (db : Database) (g : Game) (projection : Projection) : Projection where
  currentTurn := g.currentTurn
  winnerID := g.winnerID
  endedAt := g.endedAt.map db.precision
  details := g.players.foldl updateScore projection.details

/-- Something a call does after it has changed the game. -/
inductive Effect where
  | updateProjection (g : Game)
  | switchTurn (newTurn : ℤ)
  | stopTimer
  /-- The stop that follows the forfeit of a player whose grace period is over. -/
  | stopAfterGrace
  | startTimer (g : Game)
  | publishCreated (g : Game)
  | publishState (g : Game)
  | publishCompleted (g : Game)
  /-- Publish the completion of a game that has ended. -/
  | publishIfOver
  /-- Start a bot loop if a bot is to move; at the creation of a game, unless it has ended. -/
  | kickBot (atStart : Bool)

inductive Task where
  /-- A move request, with the user of its session and the player that its body names. -/
  | makeMove (session : Option ℤ) (playerID row col : ℤ) (edge : String)
  /-- A forfeit request of the user of its session. -/
  | forfeit (userID : ℤ)
  /-- The pass of a timer that found the deadline of a seat expired. -/
  | passTurn (seat : ℤ)
  | graceOver (userID : ℤ)
  | playBotTurn
  | create

inductive Answer where
  | done
  | refused (e : ServiceError)
  | notLoaded
  | notAppended
  | noCurrentPlayer
  deriving DecidableEq, Repr

inductive Stage where
  | started
  /-- It has loaded a game, from the rows of that time. -/
  | loaded (base : List EventRow) (g : Game)
  /-- It has changed the game it loaded. -/
  | changed (base : List EventRow) (g : Game) (todo : List Effect)
  | finishing (answer : Answer) (todo : List Effect)
  /-- A bot loop before the check of a round. -/
  | checking
  /-- A bot loop during its delay. -/
  | asleep
  /-- A bot loop after a move. -/
  | moved (ended : Bool)

structure Job where
  task : Task
  stage : Stage

def Game.followUp (isBotGame : Bool) (previousTurn : ℤ) (g : Game) (result : MoveResult) :
    List Effect :=
  (if isBotGame then [] else [.updateProjection g.clearEvents]) ++
  (if result.nextTurn ≠ previousTurn then [.switchTurn result.nextTurn] else []) ++
  [.publishState g.clearEvents] ++
  (if isBotGame && !result.gameOver then [.kickBot false] else []) ++
  (if result.gameOver then [.stopTimer, .publishCompleted g.clearEvents] else [])

def Game.forfeitFollowUp (isBotGame : Bool) (g : Game) : List Effect :=
  (if isBotGame then [] else [.updateProjection g.clearEvents]) ++
  [.stopTimer, .publishState g.clearEvents, .publishCompleted g.clearEvents]

namespace Task

/-- The error of a move request that names no edge. -/
def edgeError : Task → Option ServiceError
  | .makeMove _ _ _ _ edge =>
    match parseEdge edge with
    | .error e => some e
    | .ok _ => none
  | _ => none

/-- What is done at the end of the call, even if it fails. -/
def atLast : Task → List Effect
  | .graceOver _ => [.stopAfterGrace]
  | _ => []

/-- What the call does to the game, and what it does afterwards. -/
def change (isBotGame : Bool) (now : Time) (g : Game) :
    Task → Exec (Except ServiceError (Game × List Effect))
  | .makeMove _ playerID row col edge =>
    match parseEdge edge with
    | .error e => some (.error e)
    | .ok edge => (g.makeMoveRequest isBotGame now playerID row col edge).map
        (·.map fun (g', result) => (g', g'.followUp isBotGame g.currentTurn result))
  | .passTurn _ => (g.passTurnRequest now).map
      (·.map fun (g', result) => (g', g'.followUp isBotGame g.currentTurn result))
  | .forfeit userID => (g.forfeitRequest now userID).map
      (·.map fun g' => (g', g'.forfeitFollowUp isBotGame))
  | .graceOver userID => (g.forfeitRequest now userID).map
      (·.map fun g' => (g', g'.forfeitFollowUp isBotGame ++ [.stopAfterGrace]))
  | .playBotTurn => none
  | .create => none

def fromClient : Task → Bool
  | .makeMove .. => true
  | .forfeit _ => true
  | _ => false

end Task

def Game.loopEnd (g : Game) : Stage := .finishing .done [.publishState g, .publishIfOver]

def Game.loopCheck (g : Game) : Stage :=
  if g.hasEnded then g.loopEnd
  else match g.getCurrentPlayer with
  | none => .finishing .noCurrentPlayer []
  | some currentPlayer => if currentPlayer.userID.all (· ≥ 0) then g.loopEnd else .asleep

inductive Woken where
  /-- The game has ended, or a human is to move. -/
  | idle
  | noCurrentPlayer
  | noMove (g : Game)
  | failed (e : MoveError)
  | moved (move : Move) (g : Game) (result : MoveResult)
  deriving DecidableEq, Repr

def Game.wake (chance : Chance) (now : Time) (g : Game) : Exec Woken :=
  if g.hasEnded then some .idle
  else match g.getCurrentPlayer with
  | none => some .noCurrentPlayer
  | some currentPlayer =>
    if currentPlayer.userID.all (· ≥ 0) then some .idle
    else do
      match ← chooseBotMove chance g currentPlayer.turnOrder with
      | none =>
        let currentTurn ← g.nextTurn
        return .noMove { g with currentTurn }
      | some move =>
        let (g, result) ← g.applyMove now move
        match result with
        | .error e => return .failed e
        | .ok result => return .moved move g result

def Woken.game (g : Game) : Woken → Game
  | .noMove g => g
  | .moved _ g _ => g
  | _ => g

def Woken.stage (g : Game) : Woken → Stage
  | .idle => g.loopEnd
  | .noCurrentPlayer => .finishing .noCurrentPlayer []
  | .noMove _ => .checking
  | .failed _ => g.loopEnd
  | .moved _ _ result => .moved result.gameOver

inductive Store where
  | persisted (rows : List EventRow) (projection : Projection)
  | bot (g : Game)

inductive Announcement where
  | created (g : Game)
  | state (g : Game)
  | completed (winnerID : Option ℤ)
  deriving DecidableEq, Repr

structure World where
  now : Time
  store : Store
  timer : Option GameTimer
  bus : List Announcement
  calls : ℕ → Option Job

namespace World

def set (i : ℕ) (task : Task) (stage : Stage) (w : World) : World :=
  { w with calls := Function.update w.calls i (some ⟨task, stage⟩) }

/-- The game as a call sees it: a bot game is shared. -/
def shown (g : Game) (w : World) : Game :=
  match w.store with
  | .bot live => live
  | .persisted _ _ => g

def kicks (atStart : Bool) (w : World) : Bool :=
  match w.store with
  | .bot g => if atStart then g.botToMove
      else g.getCurrentPlayer.any fun player => player.userID.any (· < 0)
  | .persisted _ _ => false

def perform (db : Database) (gameID : ℤ) (w : World) : Effect → World
  | .updateProjection g =>
    match w.store with
    | .persisted rows projection => { w with store := .persisted rows (projection.update db g) }
    | .bot _ => w
  | .switchTurn newTurn => { w with timer := w.timer.map (·.switchTurn w.now newTurn) }
  | .stopTimer => { w with timer := none }
  | .stopAfterGrace => { w with timer := none }
  | .startTimer g =>
    { w with timer := some (w.timer.getD
        (.start w.now gameID (w.shown g).players (w.shown g).currentTurn)) }
  | .publishCreated g => { w with bus := w.bus ++ [.created g] }
  | .publishState g => { w with bus := w.bus ++ [.state (w.shown g)] }
  | .publishCompleted g => { w with bus := w.bus ++ [.completed (w.shown g).winnerID] }
  | .publishIfOver =>
    match w.store with
    | .bot g => if g.hasEnded then { w with bus := w.bus ++ [.completed g.winnerID] } else w
    | .persisted _ _ => w
  | .kickBot _ => w

section Frame

variable {db : Database} {gameID : ℤ} {w : World} {i j : ℕ} {task : Task} {stage : Stage}

@[simp] theorem set_now : (w.set i task stage).now = w.now := rfl

@[simp] theorem set_store : (w.set i task stage).store = w.store := rfl

@[simp] theorem set_timer : (w.set i task stage).timer = w.timer := rfl

@[simp] theorem set_bus : (w.set i task stage).bus = w.bus := rfl

@[simp] theorem set_calls_self : (w.set i task stage).calls i = some ⟨task, stage⟩ :=
  Function.update_self ..

@[simp] theorem set_calls_of_ne (h : j ≠ i) : (w.set i task stage).calls j = w.calls j :=
  Function.update_of_ne h ..

@[simp] theorem perform_now (e : Effect) : (w.perform db gameID e).now = w.now := by
  cases e <;> simp only [perform] <;> split <;> first | rfl | (split <;> rfl)

@[simp] theorem perform_calls (e : Effect) : (w.perform db gameID e).calls = w.calls := by
  cases e <;> simp only [perform] <;> split <;> first | rfl | (split <;> rfl)

end Frame

/-- What a call does by itself, after reading the store. -/
inductive Advance (db : Database) (gameID : ℤ) (w : World) (task : Task) : Stage → Stage → Prop where
  | malformed {e : ServiceError} : task.edgeError = some e →
      Advance db gameID w task .started (.finishing (.refused e) [])
  | load {rows : List EventRow} {projection : Projection} {g : Game} : task.edgeError = none →
      w.store = .persisted rows projection → db.findByID gameID rows = some (.ok (some g)) →
      Advance db gameID w task .started (.loaded rows g)
  | unreadable {rows : List EventRow} {projection : Projection} {e : LoadError} :
      task.edgeError = none → w.store = .persisted rows projection →
      db.findByID gameID rows = some (.error e) →
      Advance db gameID w task .started (.finishing (.refused (.load e)) task.atLast)
  | refuse {base : List EventRow} {g : Game} {e : ServiceError} :
      task.change false w.now g = some (.error e) →
      Advance db gameID w task (.loaded base g) (.finishing (.refused e) task.atLast)
  | apply {base : List EventRow} {g g' : Game} {todo : List Effect} :
      task.change false w.now g = some (.ok (g', todo)) →
      Advance db gameID w task (.loaded base g) (.changed base g' todo)
  | excluded {g : Game} {e : ServiceError} : task.edgeError = none → w.store = .bot g →
      task.change true w.now g = some (.error e) →
      Advance db gameID w task .started (.finishing (.refused e) task.atLast)
  | notKicked {answer : Answer} {atStart : Bool} {rest : List Effect} :
      w.kicks atStart = false →
      Advance db gameID w task (.finishing answer (.kickBot atStart :: rest))
        (.finishing answer rest)
  | check {g : Game} : w.store = .bot g → Advance db gameID w task .checking g.loopCheck

/-- A transaction of a call fails. -/
inductive Fails (w : World) (task : Task) : Stage → Stage → Prop where
  | load {rows : List EventRow} {projection : Projection} : task.edgeError = none →
      w.store = .persisted rows projection →
      Fails w task .started (.finishing .notLoaded task.atLast)
  | append {base : List EventRow} {g : Game} {todo : List Effect} :
      Fails w task (.changed base g todo) (.finishing .notAppended task.atLast)
  | updateProjection {answer : Answer} {g : Game} {rest : List Effect} :
      Fails w task (.finishing answer (.updateProjection g :: rest)) (.finishing answer rest)

inductive Act where
  | elapse (d : Time)
  | disconnect (userID : ℤ)
  | reconnect (userID : ℤ)
  /-- A request comes in. -/
  | receive (i : ℕ)
  /-- The timer finds the deadline expired. -/
  | tick (i : ℕ)
  | graceOver (i : ℕ)
  | advance (i : ℕ)
  | fail (i : ℕ)
  | append (i : ℕ)
  /-- A call changes a bot game while it holds the mutex. -/
  | exclusive (i : ℕ)
  | effect (i : ℕ)
  | kick (i j : ℕ)
  /-- A bot loop makes its move while it holds the mutex. -/
  | wake (i : ℕ)
  /-- A bot loop publishes its move. -/
  | publish (i : ℕ)

def Act.call : Act → Option ℕ
  | .advance i | .fail i | .append i | .exclusive i | .effect i | .kick i _ | .wake i
  | .publish i => some i
  | _ => none

def Idle (w : World) : Prop :=
  ∀ i task stage, w.calls i = some ⟨task, stage⟩ → ∃ answer, stage = .finishing answer []

def Passing (w : World) : Prop :=
  ∃ i seat stage, w.calls i = some ⟨.passTurn seat, stage⟩ ∧ ∀ answer, stage ≠ .finishing answer []

inductive Step (db : Database) (gameID : ℤ) : World → Act → World → Prop where
  | elapse {w : World} {d : Time} : 0 ≤ d → Step db gameID w (.elapse d) { w with now := w.now + d }
  | disconnect {w : World} {userID : ℤ} :
      Step db gameID w (.disconnect userID)
        { w with timer := w.timer.map (·.handleDisconnect w.now userID) }
  | reconnect {w : World} {userID : ℤ} :
      Step db gameID w (.reconnect userID)
        { w with timer := w.timer.map (·.handleReconnect userID) }
  | receive {w : World} {i : ℕ} {task : Task} : w.calls i = none → task.fromClient = true →
      Step db gameID w (.receive i) (w.set i task .started)
  | tick {w : World} {i : ℕ} {timer : GameTimer} : w.calls i = none → w.timer = some timer →
      timer.turnEndsAt < w.now → ¬ w.Passing →
      Step db gameID w (.tick i) (w.set i (.passTurn timer.activeTurn) .started)
  | graceOver {w : World} {i : ℕ} {timer : GameTimer} {userID : ℤ} : w.calls i = none →
      w.timer = some timer → (timer.disconnectTimers userID).any (· ≤ w.now) = true →
      Step db gameID w (.graceOver i)
        (set i (.graceOver userID) .started { w with timer := some (timer.graceOver userID) })
  | advance {w : World} {i : ℕ} {task : Task} {stage stage' : Stage} :
      w.calls i = some ⟨task, stage⟩ → Advance db gameID w task stage stage' →
      Step db gameID w (.advance i) (w.set i task stage')
  | fail {w : World} {i : ℕ} {task : Task} {stage stage' : Stage} :
      w.calls i = some ⟨task, stage⟩ → Fails w task stage stage' →
      Step db gameID w (.fail i) (w.set i task stage')
  | append {w : World} {i : ℕ} {task : Task} {base rows : List EventRow} {projection : Projection}
      {g : Game} {todo : List Effect} : w.calls i = some ⟨task, .changed base g todo⟩ →
      w.store = .persisted rows projection →
      Step db gameID w (.append i) (set i task (.finishing .done todo)
        { w with store := .persisted (db.appendEvents rows g.uncommittedEvents) projection })
  | exclusive {w : World} {i : ℕ} {task : Task} {g g' : Game} {todo : List Effect} :
      w.calls i = some ⟨task, .started⟩ → task.edgeError = none → w.store = .bot g →
      task.change true w.now g = some (.ok (g', todo)) →
      Step db gameID w (.exclusive i)
        (set i task (.finishing .done todo) { w with store := .bot g' })
  | effect {w : World} {i : ℕ} {task : Task} {answer : Answer} {e : Effect} {rest : List Effect} :
      w.calls i = some ⟨task, .finishing answer (e :: rest)⟩ → (∀ atStart, e ≠ .kickBot atStart) →
      Step db gameID w (.effect i) (set i task (.finishing answer rest) (w.perform db gameID e))
  | kick {w : World} {i j : ℕ} {task : Task} {answer : Answer} {atStart : Bool}
      {rest : List Effect} :
      w.calls i = some ⟨task, .finishing answer (.kickBot atStart :: rest)⟩ →
      w.kicks atStart = true → w.calls j = none →
      Step db gameID w (.kick i j)
        (set i task (.finishing answer rest) (w.set j .playBotTurn .checking))
  | wake {w : World} {i : ℕ} {task : Task} {g : Game} {chance : Chance} {woken : Woken} :
      w.calls i = some ⟨task, .asleep⟩ → w.store = .bot g → g.wake chance w.now = some woken →
      Step db gameID w (.wake i)
        (set i task (woken.stage g) { w with store := .bot (woken.game g) })
  | publish {w : World} {i : ℕ} {task : Task} {g : Game} {ended : Bool} :
      w.calls i = some ⟨task, .moved ended⟩ → w.store = .bot g →
      Step db gameID w (.publish i)
        (set i task (if ended then g.loopEnd else .checking) { w with bus := w.bus ++ [.state g] })

inductive Starts (w : World) : Act → ℕ → Job → Prop where
  | receive {j : ℕ} {task : Task} : task.fromClient = true →
      Starts w (.receive j) j ⟨task, .started⟩
  | tick {j : ℕ} {timer : GameTimer} : w.timer = some timer → timer.turnEndsAt < w.now →
      ¬ w.Passing → Starts w (.tick j) j ⟨.passTurn timer.activeTurn, .started⟩
  | graceOver {j : ℕ} {userID : ℤ} : Starts w (.graceOver j) j ⟨.graceOver userID, .started⟩
  | kick {i j : ℕ} : Starts w (.kick i j) j ⟨.playBotTurn, .checking⟩

theorem Step.calls {db : Database} {gameID : ℤ} {w w' : World} {act : Act} {j : ℕ}
    (h : Step db gameID w act w') (hj : act.call ≠ some j) :
    w'.calls j = w.calls j ∨
      w.calls j = none ∧ ∃ job, Starts w act j job ∧ w'.calls j = some job := by
  have hset {w : World} {i : ℕ} {task : Task} {stage : Stage} (hi : some i ≠ some j) :
      (w.set i task stage).calls j = w.calls j :=
    set_calls_of_ne fun heq => hi (congrArg some heq.symm)
  cases h with
  | elapse => exact .inl rfl
  | disconnect => exact .inl rfl
  | reconnect => exact .inl rfl
  | @receive i task hfresh hclient =>
    by_cases hji : j = i
    · subst hji
      exact .inr ⟨hfresh, _, .receive hclient, set_calls_self⟩
    · exact .inl (set_calls_of_ne hji)
  | @tick i timer hfresh htimer hends hpassing =>
    by_cases hji : j = i
    · subst hji
      exact .inr ⟨hfresh, _, .tick htimer hends hpassing, set_calls_self⟩
    · exact .inl (set_calls_of_ne hji)
  | @graceOver i timer userID hfresh =>
    by_cases hji : j = i
    · subst hji
      exact .inr ⟨hfresh, _, .graceOver, set_calls_self⟩
    · exact .inl (set_calls_of_ne hji)
  | advance => exact .inl (hset hj)
  | fail => exact .inl (hset hj)
  | append => exact .inl (hset hj)
  | exclusive => exact .inl (hset hj)
  | effect => exact .inl ((hset hj).trans (congrFun (perform_calls _) j))
  | @kick i k _ _ _ _ _ _ hfresh =>
    rw [hset hj]
    by_cases hjk : j = k
    · subst hjk
      exact .inr ⟨hfresh, _, .kick, set_calls_self⟩
    · exact .inl (set_calls_of_ne hjk)
  | wake => exact .inl (hset hj)
  | publish => exact .inl (hset hj)

theorem Step.task {db : Database} {gameID : ℤ} {w w' : World} {act : Act} {i : ℕ}
    (h : Step db gameID w act w') (hi : act.call = some i) :
    ∃ task stage stage', w.calls i = some ⟨task, stage⟩ ∧ w'.calls i = some ⟨task, stage'⟩ := by
  cases h with
  | elapse => cases hi
  | disconnect => cases hi
  | reconnect => cases hi
  | receive => cases hi
  | tick => cases hi
  | graceOver => cases hi
  | advance hcall => cases hi; exact ⟨_, _, _, hcall, set_calls_self⟩
  | fail hcall => cases hi; exact ⟨_, _, _, hcall, set_calls_self⟩
  | append hcall => cases hi; exact ⟨_, _, _, hcall, set_calls_self⟩
  | exclusive hcall => cases hi; exact ⟨_, _, _, hcall, set_calls_self⟩
  | effect hcall => cases hi; exact ⟨_, _, _, hcall, set_calls_self⟩
  | kick hcall => cases hi; exact ⟨_, _, _, hcall, set_calls_self⟩
  | wake hcall => cases hi; exact ⟨_, _, _, hcall, set_calls_self⟩
  | publish hcall => cases hi; exact ⟨_, _, _, hcall, set_calls_self⟩

/-- The call that created the game, with what it still has to do. -/
def creating (todo : List Effect) : ℕ → Option Job :=
  Function.update (fun _ => none) 0 (some ⟨.create, .finishing .done todo⟩)

theorem eq_of_creating {todo : List Effect} {i : ℕ} {task : Task} {stage : Stage}
    (h : creating todo i = some ⟨task, stage⟩) :
    i = 0 ∧ task = .create ∧ stage = .finishing .done todo := by
  by_cases hi : i = 0
  · subst hi
    rw [creating, Function.update_self] at h
    cases h
    exact ⟨rfl, rfl, rfl⟩
  · simp [creating, hi] at h

/-- A game that has just been created under the id, by a call that goes on. -/
inductive Created (db : Database) (gameID : ℤ) : World → Prop where
  | persisted {s s' : Server} {now : Time} {shuffle : Shuffle} {usernames : ℤ → String}
      {playerIDs : List ℤ} {boardSize : ℤ} {g : Game} :
      s.createGame db now shuffle usernames playerIDs boardSize = some (s', .ok g) →
      g.gameID = some gameID →
      Created db gameID {
        now
        store := .persisted (s'.events gameID) (.create g)
        timer := none
        bus := []
        calls := creating [.publishCreated g, .startTimer g] }
  | bot {s s' : Server} {now : Time} {shuffle : Shuffle} {usernames : ℤ → String}
      {playerIDs : List ℤ} {numBots boardSize : ℤ} {g : Game} :
      s.createBotGame now shuffle usernames playerIDs numBots boardSize = some (s', .ok g) →
      g.gameID = some gameID →
      Created db gameID {
        now
        store := .bot g
        timer := none
        bus := []
        calls := creating [.publishState g, .startTimer g, .kickBot true] }

theorem Created.calls {db : Database} {gameID : ℤ} {w : World} (h : Created db gameID w) :
    ∃ todo, w.calls = creating todo := by
  cases h with
  | persisted => exact ⟨_, rfl⟩
  | bot => exact ⟨_, rfl⟩

end World

end DotsAndBoxes
