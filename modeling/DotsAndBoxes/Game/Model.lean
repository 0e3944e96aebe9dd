import DotsAndBoxes.Library.Slices

/-! # The game aggregate

The state of a game is projected from its domain events. A command validates
against the current state, raises events, and reads the state they leave. An
index out of range, a division by zero and a negative slice length are run-time
panics, so the functions that may reach one are partial.
-/

namespace DotsAndBoxes

open Slices

/-- The result of code that may panic: `none` is a run-time panic. -/
abbrev Exec (α : Type) := Option α

abbrev Time := ℤ

structure Player where
  userID : Option ℤ
  username : String
  turnOrder : ℤ
  isAnonymous : Bool
  score : ℤ
  deriving DecidableEq, Repr

structure Box where
  row : ℤ
  col : ℤ
  topEdge : Bool := false
  rightEdge : Bool := false
  bottomEdge : Bool := false
  leftEdge : Bool := false
  ownerTurn : Option ℤ := none
  deriving DecidableEq, Repr

/-- An edge name. The four constants are edges; any other string names none. -/
inductive EdgeType where
  | top
  | right
  | bottom
  | left
  | other (name : String)
  deriving DecidableEq, Repr

def EdgeType.ofString : String → EdgeType
  | "top" => .top
  | "right" => .right
  | "bottom" => .bottom
  | "left" => .left
  | name => .other name

def EdgeType.toString : EdgeType → String
  | .top => "top"
  | .right => "right"
  | .bottom => "bottom"
  | .left => "left"
  | .other name => name

structure Move where
  turnOrder : ℤ
  row : ℤ
  col : ℤ
  edge : EdgeType
  deriving DecidableEq, Repr

structure MoveResult where
  completedBoxes : List Box
  nextTurn : ℤ
  gameOver : Bool
  winnerID : Option ℤ
  deriving DecidableEq, Repr

inductive MoveError where
  | notYourTurn (turnOrder currentTurn : ℤ)
  | outOfBounds (row col : ℤ)
  | edgeTaken (edge : EdgeType) (row col : ℤ)
  | gameEnded
  deriving DecidableEq, Repr

def MoveError.message : MoveError → String
  | .notYourTurn turnOrder currentTurn =>
    s!"not player {turnOrder}'s turn (current turn: {currentTurn})"
  | .outOfBounds row col => s!"coordinates out of bounds: ({row}, {col})"
  | .edgeTaken edge row col => s!"edge {edge.toString} at ({row}, {col}) already taken"
  | .gameEnded => "game has already ended"

/-- The event type constants; `unknown` is any other string. -/
inductive EventType where
  | gameCreated
  | moveApplied
  | boxCompleted
  | turnPassed
  | gameEnded
  | gameForfeited
  | unknown (name : String)
  deriving DecidableEq, Repr

def EventType.toString : EventType → String
  | .gameCreated => "game.created"
  | .moveApplied => "game.move_applied"
  | .boxCompleted => "game.box_completed"
  | .turnPassed => "game.turn_passed"
  | .gameEnded => "game.ended"
  | .gameForfeited => "game.forfeited"
  | .unknown name => name

structure GameCreatedPayload where
  gameID : ℤ
  boardSize : ℤ
  players : List Player
  deriving DecidableEq, Repr

structure MoveAppliedPayload where
  turnOrder : ℤ
  row : ℤ
  col : ℤ
  edge : String
  deriving DecidableEq, Repr

structure BoxCompletedPayload where
  row : ℤ
  col : ℤ
  ownerTurn : ℤ
  deriving DecidableEq, Repr

structure TurnPassedPayload where
  nextTurn : ℤ
  deriving DecidableEq, Repr

structure GameEndedPayload where
  winnerID : Option ℤ
  deriving DecidableEq, Repr

structure GameForfeitedPayload where
  forfeitedBy : ℤ
  winnerID : Option ℤ
  deriving DecidableEq, Repr

inductive Payload where
  | gameCreated (p : GameCreatedPayload)
  | moveApplied (p : MoveAppliedPayload)
  | boxCompleted (p : BoxCompletedPayload)
  | turnPassed (p : TurnPassedPayload)
  | gameEnded (p : GameEndedPayload)
  | gameForfeited (p : GameForfeitedPayload)
  deriving DecidableEq, Repr

structure DomainEvent where
  type : EventType
  occurredAt : Time
  aggregateID : String
  version : ℤ
  payload : Payload
  deriving DecidableEq, Repr

/-- The aggregate root. The default values are those of the zero value `Game{}`. -/
structure Game where
  uncommittedEvents : List DomainEvent := []
  version : ℤ := 0
  gameID : Option ℤ := none
  boardSize : ℤ := 0
  currentTurn : ℤ := 0
  winnerID : Option ℤ := none
  createdAt : Time := 0
  endedAt : Option Time := none
  players : List Player := []
  grid : List (List Box) := []
  deriving DecidableEq, Repr

namespace Game

def recordEvent (g : Game) (event : DomainEvent) : Game :=
  { g with uncommittedEvents := g.uncommittedEvents ++ [event] }

def incrementVersion (g : Game) : Game := { g with version := g.version + 1 }

def clearEvents (g : Game) : Game := { g with uncommittedEvents := [] }

/-- A grid of unclaimed boxes; `make` panics on a negative size. -/
def makeEmptyGrid (size : ℤ) : Exec (List (List Box)) :=
  if size < 0 then none
  else some <| (List.range size.toNat).map fun (i : ℕ) =>
    (List.range size.toNat).map fun (j : ℕ) => { row := i, col := j }

/-- Set an edge in its box and in the box across, on a board of `boardSize` rows. -/
def markEdge (grid : List (List Box)) (boardSize row col : ℤ) (edge : EdgeType) :
    Exec (List (List Box)) :=
  (at2? grid row col).bind fun _ =>
    match edge with
    | .top => do
      let grid ← modify2? grid row col fun box => { box with topEdge := true }
      if row > 0 then modify2? grid (row - 1) col fun box => { box with bottomEdge := true }
      else some grid
    | .right => do
      let grid ← modify2? grid row col fun box => { box with rightEdge := true }
      if col < boardSize - 1 then
        modify2? grid row (col + 1) fun box => { box with leftEdge := true }
      else some grid
    | .bottom => do
      let grid ← modify2? grid row col fun box => { box with bottomEdge := true }
      if row < boardSize - 1 then
        modify2? grid (row + 1) col fun box => { box with topEdge := true }
      else some grid
    | .left => do
      let grid ← modify2? grid row col fun box => { box with leftEdge := true }
      if col > 0 then modify2? grid row (col - 1) fun box => { box with rightEdge := true }
      else some grid
    | .other _ => some grid

def setEdge (g : Game) (row col : ℤ) (edge : EdgeType) : Exec Game := do
  let grid ← markEdge g.grid g.boardSize row col edge
  return { g with grid }

/-- Project an event onto the state. An event whose payload has another dynamic type
than its event type changes nothing; an event of unknown type only counts. -/
def applyEvent (g : Game) (event : DomainEvent) : Exec Game :=
  match event.type, event.payload with
  | .gameCreated, .gameCreated p => do
    let grid ← makeEmptyGrid p.boardSize
    return incrementVersion
      { g with
        gameID := some p.gameID, boardSize := p.boardSize, currentTurn := 0,
        createdAt := event.occurredAt, players := p.players, grid }
  | .moveApplied, .moveApplied p => do
    let g ← g.setEdge p.row p.col (.ofString p.edge)
    return g.incrementVersion
  | .boxCompleted, .boxCompleted p => do
    let grid ← modify2? g.grid p.row p.col fun box => { box with ownerTurn := some p.ownerTurn }
    let players ← modify? g.players p.ownerTurn fun player =>
      { player with score := player.score + 1 }
    return incrementVersion { g with grid, players }
  | .turnPassed, .turnPassed p => some (incrementVersion { g with currentTurn := p.nextTurn })
  | .gameEnded, .gameEnded p =>
    some (incrementVersion { g with winnerID := p.winnerID, endedAt := some event.occurredAt })
  | .gameForfeited, .gameForfeited p =>
    some (incrementVersion { g with winnerID := p.winnerID, endedAt := some event.occurredAt })
  | .unknown _, _ => some g.incrementVersion
  | _, _ => some g

/-- Create a domain event, apply it, and record it as uncommitted. -/
def raise (now : Time) (g : Game) (eventType : EventType) (payload : Payload) : Exec Game := do
  let event : DomainEvent := {
    type := eventType
    occurredAt := now
    aggregateID := match g.gameID with
      | some id => toString id
      | none => ""
    version := g.version + 1
    payload }
  let g ← g.applyEvent event
  return g.recordEvent event

def newGame (now : Time) (gameID : Option ℤ) (boardSize : ℤ) (players : List Player) : Exec Game :=
  let id := gameID.getD 0
  raise now {} .gameCreated (.gameCreated { gameID := id, boardSize, players })

def loadFromEvents (domainEvents : List DomainEvent) : Exec Game :=
  domainEvents.foldlM applyEvent {}

/-- The exported `IsGameOver`: an end has been recorded. -/
def hasEnded (g : Game) : Bool := g.endedAt.isSome

def getCurrentPlayer (g : Game) : Option Player :=
  if g.currentTurn < 0 ∨ g.currentTurn ≥ g.players.length then none
  else at? g.players g.currentTurn

def outside (g : Game) (row col : ℤ) : Bool :=
  row < 0 ∨ row ≥ g.boardSize ∨ col < 0 ∨ col ≥ g.boardSize

def isEdgeAvailable (g : Game) (row col : ℤ) (edge : EdgeType) : Exec Bool :=
  if g.outside row col then some false
  else do
    let box ← at2? g.grid row col
    match edge with
    | .top => return !box.topEdge
    | .right => return !box.rightEdge
    | .bottom => return !box.bottomEdge
    | .left => return !box.leftEdge
    | .other _ => return false

def validateMove (g : Game) (move : Move) : Exec (Except MoveError Unit) :=
  if move.turnOrder ≠ g.currentTurn then
    some (.error (.notYourTurn move.turnOrder g.currentTurn))
  else if g.outside move.row move.col then some (.error (.outOfBounds move.row move.col))
  else do
    let available ← g.isEdgeAvailable move.row move.col move.edge
    if !available then return .error (.edgeTaken move.edge move.row move.col)
    else if g.endedAt.isSome then return .error .gameEnded
    else return .ok ()

def isBoxComplete (box : Box) : Bool :=
  box.topEdge && box.rightEdge && box.bottomEdge && box.leftEdge

/-- The box, if all its edges are set and it has no owner. -/
def findCompletableBox (g : Game) (row col : ℤ) : Exec (Option Box) :=
  if g.outside row col then some none
  else do
    let box ← at2? g.grid row col
    return if box.ownerTurn.isSome || !isBoxComplete box then none else some box

def getAdjacentBox (row col : ℤ) : EdgeType → ℤ × ℤ
  | .top => (row - 1, col)
  | .right => (row, col + 1)
  | .bottom => (row + 1, col)
  | .left => (row, col - 1)
  | .other _ => (-1, -1)

/-- The check of the adjacent box, which is skipped when its row is negative. -/
def findCompletableAdjacent (g : Game) (move : Move) : Exec (Option Box) :=
  let (adjRow, adjCol) := getAdjacentBox move.row move.col move.edge
  if adjRow ≥ 0 then g.findCompletableBox adjRow adjCol else some none

/-- The boxes that became complete, read from the grid the edge is set in. -/
def findNewlyCompletedBoxes (g : Game) (move : Move) : Exec (List Box) := do
  let box ← g.findCompletableBox move.row move.col
  let adjacent ← g.findCompletableAdjacent move
  return box.toList ++ adjacent.toList

/-- The unexported `isGameOver`: every box of the board is owned. -/
def isGameOver (g : Game) : Exec Bool :=
  (List.range g.boardSize.toNat).allM fun (row : ℕ) =>
    (List.range g.boardSize.toNat).allM fun (col : ℕ) =>
      (at2? g.grid row col).map fun box => box.ownerTurn.isSome

/-- The best score so far, the first player that has it, and whether another has it too. -/
def leader (best : ℤ × Player × Bool) (player : Player) : ℤ × Player × Bool :=
  let (maxScore, winner, tie) := best
  if player.score > maxScore then (player.score, player, false)
  else if player.score = maxScore then (maxScore, winner, true)
  else (maxScore, winner, tie)

def determineWinner (g : Game) : Option ℤ :=
  match g.players with
  | [] => none
  | first :: rest =>
    let (_, winner, tie) := rest.foldl leader (first.score, first, false)
    if tie then none else winner.userID

/-- The turn after the current one; the remainder by no players panics. -/
def nextTurn (g : Game) : Exec ℤ :=
  if g.players.length = 0 then none else some ((g.currentTurn + 1).tmod g.players.length)

def passTurn (now : Time) (g : Game) : Exec Game := do
  let nextTurn ← g.nextTurn
  g.raise now .turnPassed (.turnPassed { nextTurn })

/-- The turn passes after a move that completed no box. -/
def passUnlessCompleted (now : Time) (g : Game) (completedBoxes : List Box) : Exec Game :=
  if completedBoxes.length = 0 then g.passTurn now else some g

/-- Raise the end of the game when every box is owned, and complete the result. -/
def endIfOver (now : Time) (g : Game) (completedBoxes : List Box) : Exec (Game × MoveResult) := do
  let nextTurn := g.currentTurn
  let complete ← g.isGameOver
  if complete then
    let winnerID := g.determineWinner
    let g ← g.raise now .gameEnded (.gameEnded { winnerID })
    return (g, { completedBoxes, nextTurn, gameOver := true, winnerID })
  else
    return (g, { completedBoxes, nextTurn, gameOver := false, winnerID := none })

/-- Raise the completion of each box for the player that made the move. -/
def raiseCompleted (now : Time) (turnOrder : ℤ) (g : Game) (boxes : List Box) : Exec Game :=
  boxes.foldlM (fun g box => g.raise now .boxCompleted (.boxCompleted {
    row := box.row, col := box.col, ownerTurn := turnOrder })) g

def applyMove (now : Time) (g : Game) (move : Move) :
    Exec (Game × Except MoveError MoveResult) := do
  let valid ← g.validateMove move
  match valid with
  | .error err => return (g, .error err)
  | .ok () =>
    let g ← g.raise now .moveApplied (.moveApplied {
      turnOrder := move.turnOrder, row := move.row, col := move.col, edge := move.edge.toString })
    let completedBoxes ← g.findNewlyCompletedBoxes move
    let g ← g.raiseCompleted now move.turnOrder completedBoxes
    let g ← g.passUnlessCompleted now completedBoxes
    let (g, result) ← g.endIfOver now completedBoxes
    return (g, .ok result)

def passTurnOnTimeout (now : Time) (g : Game) : Exec (Game × Except MoveError MoveResult) :=
  if g.hasEnded then some (g, .error .gameEnded)
  else do
    let g ← g.passTurn now
    let (g, result) ← g.endIfOver now []
    return (g, .ok result)

/-- The best score among the other players so far, and the first of them that has it. -/
def forfeitLeader (playerID : ℤ) (best : ℤ × Option ℤ) (player : Player) : ℤ × Option ℤ :=
  if player.userID = some playerID then best
  else if player.score > best.1 then (player.score, player.userID)
  else best

/-- End the game for a player that gives up; the caller checks that it has not ended. -/
def forfeit (now : Time) (g : Game) (playerID : ℤ) : Exec Game :=
  let (_, winnerID) := g.players.foldl (forfeitLeader playerID) (-1, none)
  g.raise now .gameForfeited (.gameForfeited { forfeitedBy := playerID, winnerID })

end Game

end DotsAndBoxes
