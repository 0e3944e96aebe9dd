import DotsAndBoxes.Game.Model
import DotsAndBoxes.Library.Grouping

/-! # The games that a user has played

One query has a row for each player of each finished game of the user, the newest games first.
The rows of games that were created at the same time may alternate. The rows are put together
to one entry for each game in one pass, through a map of pointers to the entries.
-/

namespace DotsAndBoxes

structure GameHistoryEntry where
  gameID : ℤ
  boardSize : ℤ
  winnerID : Option ℤ
  createdAt : Time
  endedAt : Option Time
  players : List Player
  deriving DecidableEq, Repr

/-- A row of the query: a game, and one of its players. -/
structure HistoryRow where
  gameID : ℤ
  boardSize : ℤ
  winnerID : Option ℤ
  createdAt : Time
  endedAt : Option Time
  playerUserID : ℤ
  username : String
  score : ℤ
  turnOrder : ℤ
  deriving DecidableEq, Repr

/-- The rows of a query as they are scanned, and the error after the last of them. -/
structure Rows where
  rows : List (Except String HistoryRow)
  err : Option String

/-- The player of a row. Each player has a pointer to a user id of its own. -/
def HistoryRow.player (row : HistoryRow) : Player where
  userID := some row.playerUserID
  username := row.username
  turnOrder := row.turnOrder
  isAnonymous := false
  score := row.score

namespace PgGameRepository

open Grouping

def historyEntries : Scheme HistoryRow ℤ GameHistoryEntry where
  key row := row.gameID
  opened row := ⟨row.gameID, row.boardSize, row.winnerID, row.createdAt, row.endedAt, []⟩
  add row entry := { entry with players := entry.players ++ [row.player] }

def scanHistory : List (Except String HistoryRow) → Table ℤ GameHistoryEntry →
    Except String (Table ℤ GameHistoryEntry)
  | [], gamesMap => .ok gamesMap
  | .error err :: _, _ => .error ("failed to scan game history row: " ++ err)
  | .ok row :: rows, gamesMap => scanHistory rows (historyEntries.insert gamesMap row)

def findUserGameHistory (query : Except String Rows) :
    Exec (Except String (List GameHistoryEntry)) :=
  match query with
  | .error err => some (.error ("failed to query game history: " ++ err))
  | .ok rows =>
    match scanHistory rows.rows .empty with
    | .error err => some (.error err)
    | .ok gamesMap =>
      match rows.err with
      | some err => some (.error ("game history rows error: " ++ err))
      | none => gamesMap.collect.map .ok

def rowsOfGame (rows : List HistoryRow) (gameID : ℤ) : List HistoryRow :=
  rows.filter (·.gameID = gameID)

/-- The history has one entry for each game of the rows, in the order of their first rows, and
each entry has the rows of its game, in their order. -/
structure GroupedByGame (rows : List HistoryRow) (history : List GameHistoryEntry) : Prop where
  nodup : (history.map (·.gameID)).Nodup
  games : ∀ gameID, gameID ∈ history.map (·.gameID) ↔ gameID ∈ rows.map (·.gameID)
  order : (history.map (·.gameID)).Pairwise fun a b =>
    (rows.map (·.gameID)).idxOf a < (rows.map (·.gameID)).idxOf b
  entry : ∀ entry ∈ history, ∃ first, (rowsOfGame rows entry.gameID).head? = some first ∧
    entry = ⟨first.gameID, first.boardSize, first.winnerID, first.createdAt, first.endedAt,
      (rowsOfGame rows entry.gameID).map fun row =>
        { userID := some row.playerUserID, username := row.username, turnOrder := row.turnOrder,
          isAnonymous := false, score := row.score }⟩
  /-- No row is lost, or there twice, or with another game. -/
  perm : (history.flatMap fun entry => entry.players.map fun p => (entry.gameID, p)).Perm
    (rows.map fun row => (row.gameID,
      { userID := some row.playerUserID, username := row.username, turnOrder := row.turnOrder,
        isAnonymous := false, score := row.score }))

variable {rows : List HistoryRow} {gameID : ℤ} {entry : GameHistoryEntry}

@[simp] theorem mem_rowsOfGame {row : HistoryRow} :
    row ∈ rowsOfGame rows gameID ↔ row ∈ rows ∧ row.gameID = gameID := by
  simp [rowsOfGame]

theorem foldl_add (rows : List HistoryRow) (entry : GameHistoryEntry) :
    rows.foldl (fun entry row => historyEntries.add row entry) entry =
      { entry with players := entry.players ++ rows.map (·.player) } := by
  induction rows generalizing entry with
  | nil => simp
  | cons row rows ih =>
    rw [List.foldl_cons, ih]
    simp [historyEntries]

theorem groupOf_eq_some_iff : historyEntries.groupOf rows gameID = some entry ↔
    ∃ first, (rowsOfGame rows gameID).head? = some first ∧
      entry = ⟨first.gameID, first.boardSize, first.winnerID, first.createdAt, first.endedAt,
        (rowsOfGame rows gameID).map (·.player)⟩ := by
  rw [Scheme.groupOf, Option.map_eq_some_iff]
  apply exists_congr
  intro first
  rw [foldl_add, eq_comm (a := entry)]
  rfl

theorem gameID_of_groupOf (h : historyEntries.groupOf rows gameID = some entry) :
    entry.gameID = gameID := by
  obtain ⟨first, hfirst, rfl⟩ := groupOf_eq_some_iff.mp h
  exact (mem_rowsOfGame.mp (List.mem_of_head? hfirst)).2

theorem scanHistory_eq_ok {rows : List (Except String HistoryRow)}
    {gamesMap gamesMap' : Table ℤ GameHistoryEntry} : scanHistory rows gamesMap = .ok gamesMap' ↔
      ∃ scanned : List HistoryRow, rows = scanned.map .ok ∧
        gamesMap' = scanned.foldl historyEntries.insert gamesMap := by
  constructor
  · intro h
    induction rows generalizing gamesMap with
    | nil =>
      cases h
      exact ⟨[], rfl, rfl⟩
    | cons row rows ih =>
      cases row with
      | error err => cases h
      | ok row =>
        obtain ⟨scanned, rfl, rfl⟩ := ih h
        exact ⟨row :: scanned, rfl, rfl⟩
  · rintro ⟨scanned, rfl, rfl⟩
    induction scanned generalizing gamesMap with
    | nil => rfl
    | cons row scanned ih => exact ih

theorem findUserGameHistory_ok (rows : List HistoryRow) :
    findUserGameHistory (.ok ⟨rows.map .ok, none⟩) = some (.ok (historyEntries.groups rows)) := by
  rw [findUserGameHistory, scanHistory_eq_ok.mpr ⟨rows, rfl, rfl⟩]
  exact congrArg (Option.map Except.ok) (Scheme.collect_scan historyEntries rows)

theorem groupedByGame_groups (rows : List HistoryRow) :
    GroupedByGame rows (historyEntries.groups rows) := by
  have hids : (historyEntries.groups rows).map (·.gameID) = (rows.map (·.gameID)).eraseDups :=
    Scheme.map_groups fun _ _ h => gameID_of_groupOf h
  constructor
  · rw [hids]
    exact nodup_eraseDups _
  · intro gameID
    rw [hids, List.mem_eraseDups]
  · rw [hids]
    exact pairwise_idxOf_eraseDups _
  · intro entry hentry
    obtain ⟨gameID, -, hgroup⟩ := List.mem_filterMap.mp hentry
    rw [gameID_of_groupOf hgroup]
    exact groupOf_eq_some_iff.mp hgroup
  · apply Scheme.flatMap_groups_perm
    intro gameID entry hgroup
    have hid := gameID_of_groupOf hgroup
    obtain ⟨first, -, rfl⟩ := groupOf_eq_some_iff.mp hgroup
    rw [List.map_map]
    apply List.map_congr_left
    intro row hrow
    obtain ⟨-, hgame⟩ := mem_rowsOfGame.mp hrow
    exact congrArg (·, row.player) (hid.trans hgame.symm)

/-- Whatever rows the query has, they are grouped by their games. -/
theorem findUserGameHistory_groups_rows (rows : List HistoryRow) :
    ∃ history, findUserGameHistory (.ok ⟨rows.map .ok, none⟩) = some (.ok history) ∧
      GroupedByGame rows history :=
  ⟨_, findUserGameHistory_ok rows, groupedByGame_groups rows⟩

end PgGameRepository

end DotsAndBoxes
