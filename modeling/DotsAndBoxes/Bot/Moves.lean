import DotsAndBoxes.Game.Model
import Mathlib.Data.List.Sort

/-! # The moves of a bot

A bot collects the legal moves, keeps one name for each physical edge, and chooses
among those that complete the most boxes if one completes a box, and else among all.
The order of the candidates and the choice in the pool are left to chance: they
depend on a random stream and on scores in floating point.
-/

namespace DotsAndBoxes

open Slices

def edgeTypes : List EdgeType := [.top, .right, .bottom, .left]

def edgeTypeRank : EdgeType → ℤ
  | .top => 0
  | .right => 1
  | .bottom => 2
  | .left => 3
  | .other _ => 99

def moveLess (a b : Move) : Bool :=
  if a.row ≠ b.row then a.row < b.row
  else if a.col ≠ b.col then a.col < b.col
  else edgeTypeRank a.edge < edgeTypeRank b.edge

/-- A format of a physical edge, with what it is applied to. -/
inductive EdgeKey where
  | t (col : ℤ)
  | v (row col : ℤ)
  | b (col : ℤ)
  | l (row : ℤ)
  | h (row col : ℤ)
  | r (row : ℤ)
  | unknown (row col : ℤ) (name : String)
  deriving DecidableEq, Repr

def physicalEdgeKey (boardSize row col : ℤ) : EdgeType → EdgeKey
  | .top => if row = 0 then .t col else .v (row - 1) col
  | .bottom => if row = boardSize - 1 then .b col else .v row col
  | .left => if col = 0 then .l row else .h row (col - 1)
  | .right => if col = boardSize - 1 then .r row else .h row col
  | .other name => .unknown row col name

def sortMoves (moves : List Move) : List Move :=
  moves.insertionSort fun a b => moveLess b a = false

def keepBest (boardSize : ℤ) : List (EdgeKey × Move) → Move → List (EdgeKey × Move)
  | [], m => [(physicalEdgeKey boardSize m.row m.col m.edge, m)]
  | (key, existing) :: best, m =>
    if key = physicalEdgeKey boardSize m.row m.col m.edge then
      (key, if moveLess m existing then m else existing) :: best
    else (key, existing) :: keepBest boardSize best m

def dedupeMovesByPhysicalEdge (boardSize : ℤ) (moves : List Move) : List Move :=
  sortMoves ((moves.foldl (keepBest boardSize) []).map Prod.snd)

def positions (boardSize : ℤ) : List (ℤ × ℤ) :=
  (List.range boardSize.toNat).flatMap fun (row : ℕ) =>
    (List.range boardSize.toNat).map fun (col : ℕ) => ((row : ℤ), (col : ℤ))

def cloneEdgeGrid (g : Game) : Exec (List (List Box)) :=
  (List.range g.boardSize.toNat).mapM fun (row : ℕ) =>
    (List.range g.boardSize.toNat).mapM fun (col : ℕ) =>
      (at2? g.grid row col).map fun src => { src with row, col }

def applyEdgeToSimGrid (grid : List (List Box)) (boardSize row col : ℤ) (edge : EdgeType) :
    Exec (List (List Box)) :=
  (at2? grid row col).bind fun _ =>
    match edge with
    | .top => do
      let grid ← modify2? grid row col fun box => { box with topEdge := true }
      if row > 0 then modify2? grid (row - 1) col fun box => { box with bottomEdge := true }
      else some grid
    | .right => do
      let grid ← modify2? grid row col fun box => { box with rightEdge := true }
      if col < boardSize - 1 then
        modify2? grid row (col + 1) fun box => { box with leftEdge := true }
      else some grid
    | .bottom => do
      let grid ← modify2? grid row col fun box => { box with bottomEdge := true }
      if row < boardSize - 1 then
        modify2? grid (row + 1) col fun box => { box with topEdge := true }
      else some grid
    | .left => do
      let grid ← modify2? grid row col fun box => { box with leftEdge := true }
      if col > 0 then modify2? grid row (col - 1) fun box => { box with rightEdge := true }
      else some grid
    | .other _ => some grid

def countEdgesSim (box : Box) : ℕ :=
  [box.topEdge, box.rightEdge, box.bottomEdge, box.leftEdge].count true

def newlyCompleted (g : Game) (grid : List (List Box)) (row col : ℤ) : Exec Bool := do
  let box ← at2? g.grid row col
  let b ← at2? grid row col
  return box.ownerTurn.isNone && Game.isBoxComplete b

def countNewCompletions (g : Game) (move : Move) : Exec ℕ := do
  let grid ← cloneEdgeGrid g
  let grid ← applyEdgeToSimGrid grid g.boardSize move.row move.col move.edge
  let completed ← (positions g.boardSize).mapM fun p => newlyCompleted g grid p.1 p.2
  return completed.count true

def encodings (boardSize turnOrder : ℤ) : List Move :=
  (positions boardSize).flatMap fun p =>
    edgeTypes.map fun edge => { turnOrder, row := p.1, col := p.2, edge }

def collectAllLegalMoves (g : Game) (turnOrder : ℤ) : Exec (List Move) := do
  let moves ← select (fun m => g.isEdgeAvailable m.row m.col m.edge)
    (encodings g.boardSize turnOrder)
  return sortMoves moves

structure Chance where
  shuffle : List Move → List Move
  softmaxPick : List Move → Move
  perm : ∀ moves, (shuffle moves).Perm moves
  mem : ∀ moves, moves ≠ [] → softmaxPick moves ∈ moves

/-- The candidates that complete the most boxes, if one completes a box, and else all. -/
def movePool (g : Game) (candidates : List Move) : Exec (List Move) := do
  let maxCap ← candidates.foldlM (fun maxCap m => do
    let c ← countNewCompletions g m
    return if c > maxCap then c else maxCap) 0
  if maxCap > 0 then
    select (fun m => (countNewCompletions g m).map fun c => c = maxCap) candidates
  else return candidates

def chooseBotMove (chance : Chance) (g : Game) (turnOrder : ℤ) : Exec (Option Move) := do
  let moves ← collectAllLegalMoves g turnOrder
  let candidates := dedupeMovesByPhysicalEdge g.boardSize moves
  if candidates.length = 0 then return none
  else
    let pool ← movePool g (chance.shuffle candidates)
    if pool.length = 0 then return none
    else return some (chance.softmaxPick pool)

end DotsAndBoxes
