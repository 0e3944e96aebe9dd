import DotsAndBoxes.Game.Runs
import DotsAndBoxes.Service.World

/-! # Requests that fail

A request changes a bot game in place, while it holds the mutex, and whatever it has done to
it by the time of an error stays done. Of a persisted game it changes a copy, and the copy is
dropped when the transaction that appends its events is rolled back. The timers, the
projection and the bus are only touched after that.
-/

namespace DotsAndBoxes

inductive Panic where
  /-- A nil game is dereferenced. -/
  | nilGame
  /-- Any other panic: an index out of range, or a game without an id. -/
  | runtime
  deriving DecidableEq, Repr

abbrev MayPanic (α : Type) := Except Panic α

@[simp] theorem ok_bind {α β : Type} (a : α) (f : α → MayPanic β) :
    ((.ok a : MayPanic α) >>= f) = f a := rfl

@[simp] theorem error_bind {α β : Type} (p : Panic) (f : α → MayPanic β) :
    ((.error p : MayPanic α) >>= f) = .error p := rfl

@[simp] theorem pure_eq_ok {α : Type} (a : α) : (pure a : MayPanic α) = .ok a := rfl

theorem bind_eq_ok {α β : Type} {x : MayPanic α} {f : α → MayPanic β} {b : β} :
    (x >>= f) = .ok b ↔ ∃ a, x = .ok a ∧ f a = .ok b := by
  cases x with
  | error p => simp
  | ok a => simp

def panicking {α : Type} : Exec α → MayPanic α
  | none => .error .runtime
  | some a => .ok a

@[simp] theorem panicking_none {α : Type} :
    panicking (none : Exec α) = .error .runtime := rfl

@[simp] theorem panicking_some {α : Type} (a : α) : panicking (some a) = .ok a := rfl

theorem panicking_eq_ok {α : Type} {x : Exec α} {a : α} :
    panicking x = .ok a ↔ x = some a := by
  cases x with
  | none => simp
  | some b => simp

def deref : Option Game → MayPanic Game
  | none => .error .nilGame
  | some g => .ok g

@[simp] theorem deref_some (g : Game) : deref (some g) = .ok g := rfl

@[simp] theorem deref_none : deref none = .error .nilGame := rfl

/-- What goes wrong in the database during a request. -/
structure Faults where
  /-- The query for the events fails. -/
  load : Bool
  /-- The statement at which the transaction that appends events fails. The commit comes after
  the statements for the events. -/
  append : Option ℕ
  /-- The transaction that updates the projection fails. -/
  update : Bool
  deriving DecidableEq, Repr

def Faults.none : Faults := ⟨false, .none, false⟩

inductive RepositoryError where
  | query
  | load (e : LoadError)
  deriving DecidableEq, Repr

inductive RequestError where
  | refused (e : ServiceError)
  | notLoaded
  /-- What could not be saved. -/
  | notSaved (what : String)
  deriving DecidableEq, Repr

def RequestError.message (cause : String) : RequestError → String
  | .refused e => e.message cause
  | .notLoaded => s!"failed to load game: {cause}"
  | .notSaved what => s!"failed to save {what}: {cause}"

def RepositoryError.toRequestError : RepositoryError → RequestError
  | .query => .notLoaded
  | .load e => .refused (.load e)

namespace Database

/-- The rows that a transaction sees at its end, if none of its statements fails. -/
def transaction (db : Database) : Option ℕ → List EventRow → List DomainEvent →
    Option (List EventRow)
  | some 0, _, _ => none
  | _, rows, [] => some rows
  | fault, rows, event :: events =>
    db.transaction (fault.map (· - 1)) (rows ++ [db.row event]) events

/-- Append rows in a transaction, which is committed or else rolled back. -/
def appendOrRollback (db : Database) (fault : Option ℕ) (rows : List EventRow)
    (events : List DomainEvent) : List EventRow × Bool :=
  match db.transaction fault rows events with
  | some rows => (rows, true)
  | none => (rows, false)

theorem transaction_none (db : Database) (rows : List EventRow) (events : List DomainEvent) :
    db.transaction none rows events = some (db.appendEvents rows events) := by
  induction events generalizing rows with
  | nil => simp [transaction, appendEvents]
  | cons event events ih => simp [transaction, ih, appendEvents]

@[simp] theorem appendOrRollback_none (db : Database) (rows : List EventRow)
    (events : List DomainEvent) :
    db.appendOrRollback Faults.none.append rows events = (db.appendEvents rows events, true) := by
  rw [appendOrRollback, Faults.none, transaction_none]

theorem appendOrRollback_of_failed {db : Database} {fault : Option ℕ} {rows rows' : List EventRow}
    {events : List DomainEvent} (h : db.appendOrRollback fault rows events = (rows', false)) :
    rows' = rows := by
  unfold appendOrRollback at h
  split at h
  · cases h
  · exact (Prod.mk.inj h).1.symm

end Database

/-- A change of a game in place: what it has done to the game stays, also after an error. -/
abbrev Mutation (ρ : Type) := Game → Exec (Game × Except ServiceError ρ)

namespace Game

def moveInPlace (isBotGame : Bool) (now : Time) (playerID row col : ℤ) (edge : EdgeType) :
    Mutation MoveResult := fun g =>
  match g.seatOf playerID with
  | none => some (g, .error
      (if isBotGame then .botPlayerNotInGame playerID else .playerNotInGame playerID))
  | some turnOrder => do
    let (g, result) ← g.applyMove now { turnOrder, row, col, edge }
    return (g, result.mapError .invalidMove)

def passInPlace (now : Time) : Mutation MoveResult := fun g => do
  let (g, result) ← g.passTurnOnTimeout now
  return (g, result.mapError .passTurn)

def forfeitInPlace (now : Time) (playerID : ℤ) : Mutation Unit := fun g =>
  if g.endedAt.isSome then some (g, .error .gameEnded)
  else (g.forfeit now playerID).map fun g => (g, .ok ())

end Game

/-- A change that fails leaves the game as it was. -/
def Mutation.Atomic {ρ : Type} (mutate : Mutation ρ) : Prop :=
  ∀ g g' e, mutate g = some (g', .error e) → g' = g

/-- The change of a game, and what is done to the timers after it. -/
def Mutation.andTimers {ρ : Type} (mutate : Mutation ρ)
    (after : ℤ → Game → ρ → GameTimerService → Exec GameTimerService) (timers : GameTimerService)
    (g : Game) : Exec (Except ServiceError (Game × GameTimerService)) := do
  match ← mutate g with
  | (_, .error e) => return .error e
  | (g', .ok result) =>
    let timers ← after g.currentTurn g' result timers
    return .ok (g', timers)

theorem mapError_eq_error {α ε ε' : Type} {f : ε → ε'} {x : Except ε α} {e' : ε'}
    (h : x.mapError f = .error e') : ∃ e, x = .error e := by
  cases x with
  | error e => exact ⟨e, rfl⟩
  | ok a => cases h

theorem atomic_moveInPlace (isBotGame : Bool) (now : Time) (playerID row col : ℤ)
    (edge : EdgeType) : (Game.moveInPlace isBotGame now playerID row col edge).Atomic := by
  intro g g' e h
  unfold Game.moveInPlace at h
  split at h
  · exact (Prod.mk.inj (Option.some.inj h)).1.symm
  · obtain ⟨⟨g₁, result⟩, hmove, h⟩ := Option.bind_eq_some_iff.mp h
    obtain ⟨rfl, herror⟩ := Prod.mk.inj (Option.some.inj h)
    obtain ⟨err, rfl⟩ := mapError_eq_error herror
    exact Game.applyMove_eq_error hmove

theorem atomic_passInPlace (now : Time) : (Game.passInPlace now).Atomic := by
  intro g g' e h
  obtain ⟨⟨g₁, result⟩, hpass, h⟩ := Option.bind_eq_some_iff.mp h
  obtain ⟨rfl, herror⟩ := Prod.mk.inj (Option.some.inj h)
  obtain ⟨err, rfl⟩ := mapError_eq_error herror
  exact Game.passTurnOnTimeout_eq_error hpass

theorem atomic_forfeitInPlace (now : Time) (playerID : ℤ) :
    (Game.forfeitInPlace now playerID).Atomic := by
  intro g g' e h
  unfold Game.forfeitInPlace at h
  split at h
  · exact (Prod.mk.inj (Option.some.inj h)).1.symm
  · obtain ⟨g₁, -, h⟩ := Option.map_eq_some_iff.mp h
    cases (Prod.mk.inj h).2

/-- What the requests on games can reach: the stored events with the projections, the bot games
and the timers; what has been published about which game; and the bot loops that have been
started. -/
structure GameService extends Server where
  projections : ℤ → Option Projection
  bus : List (ℤ × Announcement)
  botLoops : List ℤ

namespace GameService

/-- Load a game from its stored events, with a nil game if there are none. -/
def findByID (db : Database) (faults : Faults) (gameID : ℤ) (s : GameService) :
    MayPanic (Except RepositoryError (Option Game)) :=
  if faults.load then .ok (.error .query)
  else (panicking (db.findByID gameID (s.events gameID))).map (·.mapError .load)

def getGame (db : Database) (faults : Faults) (gameID : ℤ) (s : GameService) :
    MayPanic (Except RepositoryError (Option Game)) :=
  match s.bots.botGames gameID with
  | some g => .ok (.ok (some g))
  | none => s.findByID db faults gameID

/-- The rows of a game are updated, if there are any and the transaction does not fail. The
error is only logged. -/
def updateProjection (db : Database) (faults : Faults) (g : Game) (s : GameService) :
    GameService :=
  match g.gameID with
  | none => s
  | some gameID =>
    if faults.update then s
    else { s with projections :=
      Function.update s.projections gameID ((s.projections gameID).map (·.update db g)) }

/-- Change a game and keep it, with its turn before the change. A bot game is kept as it is
after the change, whatever the change returns. -/
def mutate {ρ : Type} (db : Database) (faults : Faults) (gameID : ℤ) (saving : String)
    (change : Mutation ρ) (s : GameService) :
    MayPanic (GameService × Except RequestError (ℤ × Game × ρ)) :=
  match s.bots.botGames gameID with
  | some game => do
    let (g, result) ← panicking (change game)
    let s := { s with bots := s.bots.keep gameID g }
    match result with
    | .error e => return (s, .error (.refused e))
    | .ok result => return (s, .ok (game.currentTurn, g, result))
  | none => do
    match ← s.findByID db faults gameID with
    | .error e => return (s, .error e.toRequestError)
    | .ok game =>
      let game ← deref game
      let (g, result) ← panicking (change game)
      match result with
      | .error e => return (s, .error (.refused e))
      | .ok result =>
        let (rows, saved) := db.appendOrRollback faults.append (s.events gameID) g.uncommittedEvents
        let s := { s with events := Function.update s.events gameID rows }
        if saved then
          return (s.updateProjection db faults g.clearEvents,
            .ok (game.currentTurn, g.clearEvents, result))
        else return (s, .error (.notSaved saving))

def publish (gameID : ℤ) (a : Announcement) (s : GameService) : GameService :=
  { s with bus := s.bus ++ [(gameID, a)] }

def followUp (isBotGame : Bool) (now : Time) (previousTurn : ℤ) (g : Game) (result : MoveResult)
    (s : GameService) : MayPanic GameService := do
  let gameID ← panicking g.gameID
  let s := if result.nextTurn ≠ previousTurn then
      { s with timers := s.timers.switchTurn now gameID result.nextTurn } else s
  let s := s.publish gameID (.state g)
  let botToMove := g.getCurrentPlayer.any fun player => player.userID.any (· < 0)
  let s := if isBotGame && !result.gameOver && botToMove then
      { s with botLoops := s.botLoops ++ [gameID] } else s
  if result.gameOver then
    return publish gameID (.completed g.winnerID) { s with timers := s.timers.stopTimer gameID }
  else return s

def forfeitFollowUp (g : Game) (s : GameService) : MayPanic GameService := do
  let gameID ← panicking g.gameID
  let s := { s with timers := s.timers.stopTimer gameID }
  return (s.publish gameID (.state g)).publish gameID (.completed g.winnerID)

def operate {ρ : Type} (db : Database) (faults : Faults) (gameID : ℤ) (saving : String)
    (change : Mutation ρ) (follow : ℤ → Game → ρ → GameService → MayPanic GameService)
    (s : GameService) : MayPanic (GameService × Except RequestError Game) := do
  match ← s.mutate db faults gameID saving change with
  | (s, .error e) => return (s, .error e)
  | (s, .ok (previousTurn, g, result)) => return (← follow previousTurn g result s, .ok g)

def makeMove (db : Database) (faults : Faults) (now : Time) (gameID playerID row col : ℤ)
    (edge : String) (s : GameService) : MayPanic (GameService × Except RequestError Game) :=
  let isBotGame := s.bots.isBotGame gameID
  match parseEdge edge with
  | .error e => .ok (s, .error (.refused e))
  | .ok edge => s.operate db faults gameID "events"
    (Game.moveInPlace isBotGame now playerID row col edge) (followUp isBotGame now)

def passTurnOnTimeout (db : Database) (faults : Faults) (now : Time) (gameID : ℤ)
    (s : GameService) : MayPanic (GameService × Except RequestError Game) :=
  s.operate db faults gameID "timeout events" (Game.passInPlace now)
    (followUp (s.bots.isBotGame gameID) now)

def forfeitGame (db : Database) (faults : Faults) (now : Time) (gameID playerID : ℤ)
    (s : GameService) : MayPanic (GameService × Except RequestError Game) :=
  s.operate db faults gameID "forfeit events" (Game.forfeitInPlace now playerID)
    fun _ g _ => forfeitFollowUp g

def request (db : Database) (faults : Faults) (gameID : ℤ) (s : GameService) :
    Request → MayPanic (GameService × Except RequestError Game)
  | .makeMove now playerID row col edge => s.makeMove db faults now gameID playerID row col edge
  | .passTurnOnTimeout now => s.passTurnOnTimeout db faults now gameID
  | .forfeitGame now playerID => s.forfeitGame db faults now gameID playerID

variable {db : Database} {faults : Faults} {gameID : ℤ} {s s' : GameService} {ρ : Type}
  {saving : String} {change : Mutation ρ} {e : RequestError}

theorem keep_same {g : Game} (h : s.bots.botGames gameID = some g) :
    s.bots.keep gameID g = s.bots := by
  rw [BotService.keep, ← h, Function.update_eq_self]

/-- An error is that of the change, which has done nothing to the game, or that of the
repository, which has kept the rows. -/
theorem mutate_eq_error (hatomic : change.Atomic)
    (h : s.mutate db faults gameID saving change = .ok (s', .error e)) : s' = s := by
  unfold mutate at h
  split at h
  case h_1 game hgame =>
    obtain ⟨⟨g, result⟩, hchange, h⟩ := bind_eq_ok.mp h
    cases result with
    | error err =>
      obtain rfl : g = game := hatomic _ _ _ (panicking_eq_ok.mp hchange)
      obtain ⟨rfl, -⟩ := Prod.mk.inj (Except.ok.inj h)
      rw [keep_same hgame]
    | ok result => cases (Prod.mk.inj (Except.ok.inj h)).2
  case h_2 =>
    obtain ⟨loaded, -, h⟩ := bind_eq_ok.mp h
    cases loaded with
    | error err => exact (Prod.mk.inj (Except.ok.inj h)).1.symm
    | ok game =>
      obtain ⟨game, -, h⟩ := bind_eq_ok.mp h
      obtain ⟨⟨g, result⟩, -, h⟩ := bind_eq_ok.mp h
      cases result with
      | error err => exact (Prod.mk.inj (Except.ok.inj h)).1.symm
      | ok result =>
        dsimp only at h
        cases happend : db.appendOrRollback faults.append (s.events gameID) g.uncommittedEvents with
        | mk rows saved =>
          rw [happend] at h
          cases saved with
          | true => cases (Prod.mk.inj (Except.ok.inj h)).2
          | false =>
            obtain ⟨rfl, -⟩ := Prod.mk.inj (Except.ok.inj h)
            rw [Database.appendOrRollback_of_failed happend, Function.update_eq_self]

theorem operate_eq_error {follow : ℤ → Game → ρ → GameService → MayPanic GameService}
    (hatomic : change.Atomic)
    (h : s.operate db faults gameID saving change follow = .ok (s', .error e)) : s' = s := by
  obtain ⟨⟨s₁, result⟩, hmutate, h⟩ := bind_eq_ok.mp h
  cases result with
  | error err =>
    obtain ⟨rfl, -⟩ := Prod.mk.inj (Except.ok.inj h)
    exact mutate_eq_error hatomic hmutate
  | ok result =>
    obtain ⟨s₂, -, h⟩ := bind_eq_ok.mp h
    cases (Prod.mk.inj (Except.ok.inj h)).2

/-- A request that returns an error has changed nothing: no stored event, no projection, no bot
game, no timer and nothing on the bus. -/
theorem failed_request_changes_nothing {q : Request}
    (h : s.request db faults gameID q = .ok (s', .error e)) : s' = s := by
  cases q with
  | makeMove now playerID row col edge =>
    simp only [request, makeMove] at h
    cases hedge : parseEdge edge with
    | error err =>
      rw [hedge] at h
      exact (Prod.mk.inj (Except.ok.inj h)).1.symm
    | ok edge =>
      rw [hedge] at h
      exact operate_eq_error (atomic_moveInPlace _ now playerID row col edge) h
  | passTurnOnTimeout now => exact operate_eq_error (atomic_passInPlace now) h
  | forfeitGame now playerID => exact operate_eq_error (atomic_forfeitInPlace now playerID) h

def ofDuel : GameService where
  identity := 2
  events := Function.update (fun _ => []) 1 (Database.byInsertion.createdRows 1 duelStart)
  bots := { botGames := fun _ => none, nextID := 10000 }
  timers := GameTimerService.startTimer 0 1 duel 0 { timers := fun _ => none }
  projections := Function.update (fun _ => none) 1 (some (.create duelStart))
  bus := [(1, .created duelStart)]
  botLoops := []

/-- The first move of the duel fails at the second statement of its transaction. -/
theorem failed_request_changes_nothing_duel : ∃ s',
    ofDuel.request .byInsertion ⟨false, some 1, false⟩ 1 (.makeMove 1 7 0 0 "top") =
      .ok (s', .error (.notSaved "events")) ∧ s' = ofDuel := by
  have h : ofDuel.request .byInsertion ⟨false, some 1, false⟩ 1 (.makeMove 1 7 0 0 "top") =
      .ok (_, .error (.notSaved "events")) := rfl
  exact ⟨_, h, failed_request_changes_nothing h⟩

/-- What is left of the server and what is returned, unless there is a panic. -/
def onServer (x : MayPanic (GameService × Except RequestError Game)) :
    Exec (Server × Except RequestError Game) :=
  x.toOption.map fun x => (x.1.toServer, x.2)

@[simp] theorem onServer_ok (s : GameService) (r : Except RequestError Game) :
    onServer (.ok (s, r)) = some (s.toServer, r) := rfl

@[simp] theorem onServer_error (p : Panic) : onServer (.error p) = none := rfl

/-- What follows a change does to the server what is done to the timers. -/
structure Follows {ρ : Type} (follow : ℤ → Game → ρ → GameService → MayPanic GameService)
    (after : ℤ → Game → ρ → GameTimerService → Exec GameTimerService) : Prop where
  server : ∀ previousTurn g result s, (follow previousTurn g result s).toOption.map toServer =
    (after previousTurn g result s.timers).map fun timers => { s.toServer with timers }
  cleared : ∀ previousTurn g result timers,
    after previousTurn g.clearEvents result timers = after previousTurn g result timers

variable {follow : ℤ → Game → ρ → GameService → MayPanic GameService}
  {after : ℤ → Game → ρ → GameTimerService → Exec GameTimerService} {g g' : Game}

theorem Follows.onServer (h : Follows follow after) (previousTurn : ℤ) (g : Game) (result : ρ)
    (s : GameService) :
    onServer (do return (← follow previousTurn g result s, .ok g)) =
      (after previousTurn g result s.timers).map
        fun timers => ({ s.toServer with timers }, .ok g) := by
  have hserver := h.server previousTurn g result s
  cases hfollow : follow previousTurn g result s with
  | error p =>
    rw [hfollow] at hserver
    rw [error_bind, onServer_error]
    exact (Option.map_eq_none_iff.mpr (Option.map_eq_none_iff.mp hserver.symm)).symm
  | ok s' =>
    rw [hfollow] at hserver
    obtain ⟨timers, hafter, hs⟩ := Option.map_eq_some_iff.mp hserver.symm
    simp [hafter, hs]

@[simp] theorem updateProjection_toServer (db : Database) (faults : Faults) (g : Game)
    (s : GameService) : (s.updateProjection db faults g).toServer = s.toServer := by
  unfold updateProjection
  split
  · rfl
  · split <;> rfl

theorem operate_onServer_of_bot (hatomic : change.Atomic) (hfollow : Follows follow after)
    (hgame : s.bots.botGames gameID = some g) :
    onServer (s.operate db .none gameID saving change follow) =
      (s.toServer.transact db gameID (change.andTimers after s.timers)).map
        fun x => (x.1, x.2.mapError .refused) := by
  have hget : s.toServer.getGame db gameID = some (.ok (some g)) := by
    rw [Server.getGame, hgame]
  have hbot : s.bots.isBotGame gameID = true := by simp [BotService.isBotGame, hgame]
  cases hchange : change g with
  | none => simp [operate, mutate, hgame, hchange, Server.transact, hget, Mutation.andTimers]
  | some changed =>
    obtain ⟨g', result⟩ := changed
    cases result with
    | error err =>
      obtain rfl : g' = g := hatomic _ _ _ hchange
      simp [operate, mutate, hgame, hchange, Server.transact, hget, Mutation.andTimers,
        keep_same hgame, Except.mapError]
    | ok result =>
      have hoperate : s.operate db .none gameID saving change follow =
          (do return (← follow g.currentTurn g' result { s with bots := s.bots.keep gameID g' },
            .ok g')) := by
        simp [operate, mutate, hgame, hchange]
      rw [hoperate, hfollow.onServer]
      cases hafter : after g.currentTurn g' result s.timers with
      | none => simp [Server.transact, hget, Mutation.andTimers, hchange, hafter]
      | some timers =>
        simp [Server.transact, hget, Mutation.andTimers, hchange, hafter, Server.save, hbot,
          Except.mapError]

theorem operate_onServer_of_stored (hfollow : Follows follow after)
    (hgame : s.bots.botGames gameID = none) :
    onServer (s.operate db .none gameID saving change follow) =
      (s.toServer.transact db gameID (change.andTimers after s.timers)).map
        fun x => (x.1, x.2.mapError .refused) := by
  have hget : s.toServer.getGame db gameID = db.findByID gameID (s.events gameID) := by
    rw [Server.getGame, hgame]
  have hbot : s.bots.isBotGame gameID = false := by simp [BotService.isBotGame, hgame]
  have hload : s.findByID db .none gameID =
      (panicking (db.findByID gameID (s.events gameID))).map (·.mapError .load) := by
    simp [findByID, Faults.none]
  cases hfind : db.findByID gameID (s.events gameID) with
  | none => simp [operate, mutate, hgame, hload, hfind, Server.transact, hget, Except.map]
  | some loaded =>
    rcases loaded with e | _ | g
    · simp [operate, mutate, hgame, hload, hfind, Server.transact, hget, Except.map,
        Except.mapError, RepositoryError.toRequestError]
    · simp [operate, mutate, hgame, hload, hfind, Server.transact, hget, Except.map,
        Except.mapError]
    cases hchange : change g with
    | none =>
      simp [operate, mutate, hgame, hload, hfind, hchange, Server.transact, hget,
        Mutation.andTimers, Except.map, Except.mapError]
    | some changed =>
      obtain ⟨g', result⟩ := changed
      cases result with
      | error err =>
        simp [operate, mutate, hgame, hload, hfind, hchange, Server.transact, hget,
          Mutation.andTimers, Except.map, Except.mapError]
      | ok result =>
        have hoperate : s.operate db .none gameID saving change follow =
            (do return (← follow g.currentTurn g'.clearEvents result
              (updateProjection db .none g'.clearEvents { s with
                events := Function.update s.events gameID
                  (db.appendEvents (s.events gameID) g'.uncommittedEvents) }),
              .ok g'.clearEvents)) := by
          simp [operate, mutate, hgame, hload, hfind, hchange, Except.map, Except.mapError]
        rw [hoperate, hfollow.onServer, hfollow.cleared, updateProjection_toServer]
        cases hafter : after g.currentTurn g' result s.timers with
        | none => simp [Server.transact, hget, hfind, Mutation.andTimers, hchange, hafter]
        | some timers =>
          simp [Server.transact, hget, hfind, Mutation.andTimers, hchange, hafter, Server.save,
            hbot, Except.mapError]

theorem follows_followUp (isBotGame : Bool) (now : Time) :
    Follows (followUp isBotGame now) fun previousTurn g result t =>
      t.afterResult now previousTurn g result where
  server previousTurn g result s := by
    unfold followUp GameTimerService.afterResult
    cases hid : g.gameID with
    | none => rfl
    | some id =>
      simp only [panicking_some, ok_bind]
      split_ifs <;> rfl
  cleared _ _ _ _ := rfl

theorem follows_forfeitFollowUp :
    Follows (fun _ g (_ : Unit) => forfeitFollowUp g) fun _ g _ t =>
      g.gameID.map t.stopTimer where
  server previousTurn g result s := by
    unfold forfeitFollowUp
    cases hid : g.gameID with
    | none => rfl
    | some id => rfl
  cleared _ _ _ _ := rfl

theorem operate_onServer (hatomic : change.Atomic) (hfollow : Follows follow after) :
    onServer (s.operate db .none gameID saving change follow) =
      (s.toServer.transact db gameID (change.andTimers after s.timers)).map
        fun x => (x.1, x.2.mapError .refused) := by
  cases hgame : s.bots.botGames gameID with
  | some g => exact operate_onServer_of_bot hatomic hfollow hgame
  | none => exact operate_onServer_of_stored hfollow hgame

theorem andTimers_moveInPlace (isBotGame : Bool) (now : Time) (playerID row col : ℤ)
    (edge : EdgeType) (s : Server) :
    (Game.moveInPlace isBotGame now playerID row col edge).andTimers
      (fun previousTurn g result t => t.afterResult now previousTurn g result) s.timers =
    s.followed now (·.makeMoveRequest isBotGame now playerID row col edge) := by
  funext g
  cases hseat : g.seatOf playerID with
  | none =>
    cases isBotGame <;>
      simp [Mutation.andTimers, Game.moveInPlace, Server.followed, Game.makeMoveRequest,
        Game.makeMove, hseat, Except.mapError, ServiceError.ofBotGame]
  | some turnOrder =>
    rcases hmove : g.applyMove now { turnOrder, row, col, edge } with _ | ⟨g', e | result⟩ <;>
      cases isBotGame <;>
      simp [Mutation.andTimers, Game.moveInPlace, Server.followed, Game.makeMoveRequest,
        Game.makeMove, hseat, hmove, Except.mapError, ServiceError.ofBotGame]

theorem andTimers_passInPlace (now : Time) (s : Server) :
    (Game.passInPlace now).andTimers
      (fun previousTurn g result t => t.afterResult now previousTurn g result) s.timers =
    s.followed now (·.passTurnRequest now) := by
  funext g
  unfold Mutation.andTimers Game.passInPlace Server.followed Game.passTurnRequest
  rcases hpass : g.passTurnOnTimeout now with _ | ⟨g', e | result⟩
  · simp [hpass]
  · simp [hpass, Except.mapError]
  · simp [hpass, Except.mapError]

theorem andTimers_forfeitInPlace (now : Time) (playerID : ℤ) (s : Server) :
    (Game.forfeitInPlace now playerID).andTimers
      (fun _ g _ t => g.gameID.map t.stopTimer) s.timers = s.forfeitAndStop now playerID := by
  funext g
  unfold Mutation.andTimers Game.forfeitInPlace Server.forfeitAndStop Game.forfeitRequest
  split
  · rfl
  · cases g.forfeit now playerID with
    | none => rfl
    | some g' => cases hid : g'.gameID <;> simp [hid]

/-- Without failures, the service answers a request as the server does, which keeps a game only
when its change has succeeded. -/
theorem request_onServer (db : Database) (gameID : ℤ) (s : GameService) (q : Request) :
    onServer (s.request db .none gameID q) =
      (s.toServer.request db gameID q).map fun x => (x.1, x.2.mapError .refused) := by
  cases q with
  | makeMove now playerID row col edge =>
    simp only [request, makeMove, Server.request, Server.makeMove]
    cases parseEdge edge with
    | error e => rfl
    | ok edge =>
      dsimp only
      rw [← andTimers_moveInPlace]
      exact operate_onServer (atomic_moveInPlace _ now playerID row col edge)
        (follows_followUp _ now)
  | passTurnOnTimeout now =>
    simp only [request, passTurnOnTimeout, Server.request, Server.passTurnOnTimeout]
    rw [← andTimers_passInPlace]
    exact operate_onServer (atomic_passInPlace now) (follows_followUp _ now)
  | forfeitGame now playerID =>
    simp only [request, forfeitGame, Server.request, Server.forfeitGame]
    rw [← andTimers_forfeitInPlace]
    exact operate_onServer (atomic_forfeitInPlace now playerID) follows_forfeitFollowUp

end GameService

end DotsAndBoxes
