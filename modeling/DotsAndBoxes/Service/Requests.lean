import DotsAndBoxes.Game.Replay
import DotsAndBoxes.Library.Serial

/-! # Requests on persisted games

The game service answers a request on a persisted game by loading its events,
executing a command on the rebuilt aggregate, and appending the events this
raises. Nothing relates the log at the append to the log that was loaded.
-/

namespace DotsAndBoxes

open Serial

inductive ServiceError where
  | invalidEdge (edge : String)
  | load (e : LoadError)
  | playerNotInGame (playerID : ℤ)
  | botPlayerNotInGame (playerID : ℤ)
  | invalidMove (e : MoveError)
  | passTurn (e : MoveError)
  | gameEnded
  deriving DecidableEq, Repr

def ServiceError.message (json : String) : ServiceError → String
  | .invalidEdge edge => s!"invalid edge: {edge}"
  | .load .malformedPayload =>
    s!"failed to load game: failed to deserialize event payload: {json}"
  | .load (.unknownEventType eventType) =>
    s!"failed to load game: failed to deserialize event payload: unknown event type: {eventType}"
  | .playerNotInGame playerID => s!"player {playerID} not in game"
  | .botPlayerNotInGame playerID => s!"invalid move: player {playerID} not in game"
  | .invalidMove e => s!"invalid move: {e.message}"
  | .passTurn e => s!"pass turn on timeout: {e.message}"
  | .gameEnded => "game has already ended"

def parseEdge : String → Except ServiceError EdgeType
  | "top_edge" => .ok .top
  | "top" => .ok .top
  | "right_edge" => .ok .right
  | "right" => .ok .right
  | "bottom_edge" => .ok .bottom
  | "bottom" => .ok .bottom
  | "left_edge" => .ok .left
  | "left" => .ok .left
  | edge => .error (.invalidEdge edge)

def Game.seatOf (g : Game) (playerID : ℤ) : Option ℤ :=
  (g.players.find? fun p => p.userID = some playerID).map (·.turnOrder)

/-- Rebuild a game from its events. A game without events is a nil pointer. -/
def Database.findByID (db : Database) (gameID : ℤ) (rows : List EventRow) :
    Exec (Except LoadError (Option Game)) :=
  match db.loadEvents gameID rows with
  | .error e => some (.error e)
  | .ok domainEvents =>
    if domainEvents.length > 0 then
      (Game.loadFromEvents domainEvents).map fun g => .ok (some g)
    else some (.ok none)

def Game.makeMove (now : Time) (playerID row col : ℤ) (edge : EdgeType) (g : Game) :
    Exec (Except ServiceError (Game × MoveResult)) :=
  match g.seatOf playerID with
  | none => some (.error (.playerNotInGame playerID))
  | some turnOrder => do
    let (g, result) ← g.applyMove now { turnOrder, row, col, edge }
    match result with
    | .error e => return .error (.invalidMove e)
    | .ok result => return .ok (g, result)

def Game.passTurnRequest (now : Time) (g : Game) :
    Exec (Except ServiceError (Game × MoveResult)) := do
  let (g, result) ← g.passTurnOnTimeout now
  match result with
  | .error e => return .error (.passTurn e)
  | .ok result => return .ok (g, result)

def Game.forfeitRequest (now : Time) (playerID : ℤ) (g : Game) :
    Exec (Except ServiceError Game) :=
  if g.endedAt.isSome then some (.error .gameEnded)
  else (g.forfeit now playerID).map .ok

variable {g g' : Game} {now : Time}

theorem makeMove_eq_ok {playerID row col : ℤ} {edge : EdgeType}
    {result : MoveResult} (h : g.makeMove now playerID row col edge = some (.ok (g', result))) :
    ∃ turnOrder, g.seatOf playerID = some turnOrder ∧
      g.applyMove now ⟨turnOrder, row, col, edge⟩ = some (g', .ok result) := by
  unfold Game.makeMove at h
  cases hseat : g.seatOf playerID with
  | none => simp [hseat] at h
  | some turnOrder =>
    rw [hseat] at h
    obtain ⟨⟨g₁, r⟩, hmove, h⟩ := Option.bind_eq_some_iff.mp h
    cases r with
    | error e => simp at h
    | ok r =>
      obtain ⟨rfl, rfl⟩ := Prod.mk.inj (Except.ok.inj (Option.some.inj h))
      exact ⟨turnOrder, rfl, hmove⟩

theorem passTurnRequest_eq_ok {result : MoveResult}
    (h : g.passTurnRequest now = some (.ok (g', result))) :
    g.passTurnOnTimeout now = some (g', .ok result) := by
  obtain ⟨⟨g₁, r⟩, hpass, h⟩ := Option.bind_eq_some_iff.mp h
  cases r with
  | error e => simp at h
  | ok r =>
    obtain ⟨rfl, rfl⟩ := Prod.mk.inj (Except.ok.inj (Option.some.inj h))
    exact hpass

theorem forfeitRequest_eq_ok {playerID : ℤ}
    (h : g.forfeitRequest now playerID = some (.ok g')) :
    g.endedAt = none ∧ g.forfeit now playerID = some g' := by
  unfold Game.forfeitRequest at h
  split at h
  · cases h
  case isFalse hrun =>
    obtain ⟨g₁, hforfeit, heq⟩ := Option.map_eq_some_iff.mp h
    obtain rfl := Except.ok.inj heq
    exact ⟨by simpa using hrun, hforfeit⟩

theorem Stored.exists_findByID {gameID : ℤ} {rows : List EventRow} (hs : Stored gameID g rows)
    (hsize : g.boardSize ≠ 0) (db : Database) :
    ∃ g₀, db.findByID gameID rows = some (.ok (some g₀)) ∧ Rebuilt g g₀ := by
  obtain ⟨es, g₀, hload, hfold, hr⟩ := hs.loadEvents db
  have hne : es.length > 0 := by
    cases es with
    | cons e es => simp
    | nil =>
      obtain rfl := Option.some.inj hfold
      exact absurd (congrArg View.boardSize hr.sameView) hsize
  exact ⟨g₀, by simp [Database.findByID, hload, hne, hfold], hr⟩

/-- What a request returns: nothing after a panic, and else an error or the game. -/
abbrev Response := Exec (Except ServiceError Game)

/-- Load the game, change it, and append the events that the change raised. -/
def Database.loadAndAppend (db : Database) (gameID : ℤ)
    (change : Game → Exec (Except ServiceError Game)) : Prog (List EventRow) Response :=
  .read fun rows =>
    match db.findByID gameID rows with
    | none => .ret none
    | some (.error e) => .ret (some (.error (.load e)))
    | some (.ok none) => .ret none
    | some (.ok (some g)) =>
      match change g with
      | none => .ret none
      | some (.error e) => .ret (some (.error e))
      | some (.ok g') =>
        .write (db.appendEvents · g'.uncommittedEvents) (.ret (some (.ok g'.clearEvents)))

/-- A request on a persisted game, with the time at which it runs. -/
inductive Request where
  | makeMove (now : Time) (playerID row col : ℤ) (edge : String)
  | passTurnOnTimeout (now : Time)
  | forfeitGame (now : Time) (playerID : ℤ)
  deriving DecidableEq, Repr

def Request.program (db : Database) (gameID : ℤ) : Request → Prog (List EventRow) Response
  | .makeMove now playerID row col edge =>
    match parseEdge edge with
    | .error e => .ret (some (.error e))
    | .ok edge => db.loadAndAppend gameID fun g =>
      (g.makeMove now playerID row col edge).map (·.map Prod.fst)
  | .passTurnOnTimeout now => db.loadAndAppend gameID fun g =>
    (g.passTurnRequest now).map (·.map Prod.fst)
  | .forfeitGame now playerID => db.loadAndAppend gameID (·.forfeitRequest now playerID)

theorem oneWrite_loadAndAppend (db : Database) (gameID : ℤ)
    (change : Game → Exec (Except ServiceError Game)) :
    (db.loadAndAppend gameID change).OneWrite Prog.IsRet := by
  apply Prog.oneWrite_read
  intro rows
  split
  · exact .ret _
  · exact .ret _
  · exact .ret _
  · split
    · exact .ret _
    · exact .ret _
    · exact Prog.oneWrite_write _ ⟨_, rfl⟩

theorem Request.oneWrite_program (db : Database) (gameID : ℤ) (q : Request) :
    (q.program db gameID).OneWrite Prog.IsRet := by
  cases q with
  | makeMove now playerID row col edge =>
    simp only [Request.program]
    cases parseEdge edge with
    | error e => exact .ret _
    | ok edge => exact oneWrite_loadAndAppend db gameID _
  | passTurnOnTimeout now => exact oneWrite_loadAndAppend db gameID _
  | forfeitGame now playerID => exact oneWrite_loadAndAppend db gameID _

/-- A successful request appends the events that its change raised on the rebuilt game. -/
theorem run_loadAndAppend (db : Database) (gameID : ℤ)
    (change : Game → Exec (Except ServiceError Game)) (rows : List EventRow) :
    (∃ g g', db.findByID gameID rows = some (.ok (some g)) ∧ change g = some (.ok g') ∧
      (db.loadAndAppend gameID change).run rows =
        (db.appendEvents rows g'.uncommittedEvents, some (.ok g'.clearEvents))) ∨
    ∃ response, (db.loadAndAppend gameID change).run rows = (rows, response) ∧
      ∀ g, response ≠ some (.ok g) := by
  rw [Database.loadAndAppend, Prog.run_read]
  split
  · exact .inr ⟨none, rfl, by simp⟩
  · exact .inr ⟨_, rfl, by simp⟩
  · exact .inr ⟨none, rfl, by simp⟩
  case h_4 g hfind =>
    split
    · exact .inr ⟨none, rfl, by simp⟩
    · exact .inr ⟨_, rfl, by simp⟩
    case h_3 g' hchange => exact .inl ⟨g, g', hfind, hchange, rfl⟩

end DotsAndBoxes
