import DotsAndBoxes.Game.History
import DotsAndBoxes.Stats.Leaderboard

/-! # The history of a user

The history of a user has an entry for each finished game that the user took part in, the newest
first, whatever order the query leaves open. The players of an entry have their final scores, in
the order of their seats. The entries add up to the statistics of the user.
-/

namespace DotsAndBoxes

open Queries PgGameRepository

namespace WideTables

/-- The columns of a game, of a seat in it, and of the user who has the seat. -/
def historyRow (x : (GameRecord × DetailRecord) × UserRecord) : HistoryRow where
  gameID := x.1.1.gameID
  boardSize := x.1.1.boardSize
  winnerID := x.1.1.winnerID
  createdAt := x.1.1.createdAt
  endedAt := x.1.1.endedAt
  playerUserID := x.1.2.userID
  username := x.2.username
  score := x.1.2.score
  turnOrder := x.1.2.turnOrder

variable (t : WideTables) (userID : ℤ)

def historyRows : List HistoryRow :=
  ((join (fun x u => u.userID = x.2.userID)
    (join (fun g gd => g.gameID = gd.gameID) t.games t.gameDetails) t.users).filter fun x =>
      x.1.1.gameID ∈ (t.gameDetails.filter (·.userID = userID)).map (·.gameID) ∧
        x.1.1.endedAt.isSome).map historyRow

end WideTables

/-- The newest games first, and in each of them the seats in order. -/
def HistoryRow.Before (a b : HistoryRow) : Prop :=
  b.createdAt < a.createdAt ∨ a.createdAt = b.createdAt ∧ a.turnOrder ≤ b.turnOrder

namespace WideTables

variable (t : WideTables) (userID : ℤ)

def seats (gameID : ℤ) : List Player :=
  (t.gameDetails.filter (·.gameID = gameID)).filterMap fun gd =>
    (t.users.find? (·.userID = gd.userID)).map fun u =>
      { userID := some gd.userID, username := u.username, turnOrder := gd.turnOrder,
        isAnonymous := false, score := gd.score }

def scoreIn (userID : ℤ) (entry : GameHistoryEntry) : ℤ :=
  ((entry.players.filter (·.userID = some userID)).map (·.score)).sum

structure SameGame (e : GameHistoryEntry) (g : GameRecord) : Prop where
  gameID : e.gameID = g.gameID
  boardSize : e.boardSize = g.boardSize
  winnerID : e.winnerID = g.winnerID
  createdAt : e.createdAt = g.createdAt
  endedAt : e.endedAt = g.endedAt

structure IsHistory (history : List GameHistoryEntry) : Prop where
  /-- Each game once. -/
  games : (history.map fun e => ⟨e.gameID, e.winnerID, e.endedAt⟩).Perm (t.tables.played userID)
  newest : history.Pairwise fun a b => b.createdAt ≤ a.createdAt
  entry : ∀ e ∈ history, ∃ g ∈ t.games, SameGame e g
  players : ∀ e ∈ history, e.players.Perm (t.seats e.gameID)
  seated : ∀ e ∈ history, e.players.Pairwise fun p q => p.turnOrder ≤ q.turnOrder

/-- The history says how often the user has played and won, and for how many boxes. -/
structure AddsUp (history : List GameHistoryEntry) (stats : UserStats) : Prop where
  gamesPlayed : stats.gamesPlayed = history.length
  wins : stats.wins = history.countP (·.winnerID = some userID)
  totalBoxes : stats.totalBoxes = (history.map (scoreIn userID)).sum

/-- The keys of the tables: no user and no game is there twice, and every seat has a user. -/
structure Keyed : Prop where
  users : (t.users.map (·.userID)).Nodup
  games : (t.games.map (·.gameID)).Nodup
  seated : ∀ gd ∈ t.gameDetails, ∃ u ∈ t.users, u.userID = gd.userID

def finishedGames : List GameRecord :=
  t.games.filter fun g =>
    g.gameID ∈ (t.gameDetails.filter (·.userID = userID)).map (·.gameID) ∧ g.endedAt.isSome

variable {t userID} {g : GameRecord} {rows : List HistoryRow} {row : HistoryRow}

theorem played_tables (t : WideTables) (userID : ℤ) :
    t.tables.played userID = (t.finishedGames userID).map (·.toGamesRow) := by
  unfold Tables.played finishedGames tables
  rw [List.filter_map]
  congr 1
  apply List.filter_congr
  intro g _
  rw [Function.comp_apply, decide_eq_decide, and_comm]
  refine and_congr_left fun _ => ?_
  constructor
  · rintro ⟨_, hmem, hid, huser⟩
    obtain ⟨gd, hgd, rfl⟩ := List.mem_map.mp hmem
    exact List.mem_map.mpr ⟨gd, List.mem_filter.mpr ⟨hgd, by simpa using huser⟩, hid⟩
  · intro hmem
    obtain ⟨gd, hgd, hid⟩ := List.mem_map.mp hmem
    obtain ⟨hgd, huser⟩ := List.mem_filter.mp hgd
    exact ⟨_, List.mem_map_of_mem hgd, hid, of_decide_eq_true huser⟩

theorem historyRows_eq (t : WideTables) (userID : ℤ) : t.historyRows userID =
    (join (fun x u => u.userID = x.2.userID) (join (fun g gd => g.gameID = gd.gameID)
      (t.finishedGames userID) t.gameDetails) t.users).map historyRow := by
  let wanted (g : GameRecord) : Bool :=
    g.gameID ∈ (t.gameDetails.filter (·.userID = userID)).map (·.gameID) ∧ g.endedAt.isSome
  rw [historyRows, filter_join fun x : GameRecord × DetailRecord => wanted x.1, filter_join wanted]
  rfl

theorem historyRows_eq_filterMap (ht : t.Keyed) (userID : ℤ) : t.historyRows userID =
    (join (fun g gd => g.gameID = gd.gameID) (t.finishedGames userID) t.gameDetails).filterMap
      fun x => (t.users.find? (·.userID = x.2.userID)).map fun u => historyRow (x, u) := by
  rw [historyRows_eq, join_key_eq_filterMap ht.users, List.map_filterMap]
  simp only [Option.map_map]
  rfl

theorem mem_finishedGames : g ∈ t.finishedGames userID ↔ g ∈ t.games ∧
    g.endedAt.isSome = true ∧ ∃ gd ∈ t.gameDetails, gd.gameID = g.gameID ∧ gd.userID = userID := by
  simp only [finishedGames, List.mem_filter, List.mem_map, decide_eq_true_eq]
  constructor
  · rintro ⟨hg, ⟨gd, ⟨hgd, huser⟩, hid⟩, hended⟩
    exact ⟨hg, hended, gd, hgd, hid, huser⟩
  · rintro ⟨hg, hended, gd, hgd, hid, huser⟩
    exact ⟨hg, ⟨gd, ⟨hgd, huser⟩, hid⟩, hended⟩

theorem mem_historyRows (h : row ∈ t.historyRows userID) : ∃ g ∈ t.finishedGames userID,
    row.gameID = g.gameID ∧ row.boardSize = g.boardSize ∧ row.winnerID = g.winnerID ∧
      row.createdAt = g.createdAt ∧ row.endedAt = g.endedAt := by
  rw [historyRows_eq] at h
  obtain ⟨⟨⟨g, gd⟩, u⟩, hx, rfl⟩ := List.mem_map.mp h
  exact ⟨g, (mem_join.mp (mem_join.mp hx).1).1, rfl, rfl, rfl, rfl, rfl⟩

theorem rowsOfGame_historyRows (ht : t.Keyed) (hg : g ∈ t.finishedGames userID) :
    (rowsOfGame (t.historyRows userID) g.gameID).map (·.player) = t.seats g.gameID := by
  have hids : ((t.finishedGames userID).map (·.gameID)).Nodup :=
    ht.games.sublist (List.filter_sublist.map _)
  rw [historyRows_eq, rowsOfGame, List.filter_map]
  have hone : (join (fun x u => u.userID = x.2.userID) (join (fun g gd => g.gameID = gd.gameID)
        (t.finishedGames userID) t.gameDetails) t.users).filter (fun x => x.1.1.gameID = g.gameID) =
      join (fun x u => u.userID = x.2.userID)
        ((t.gameDetails.filter fun gd => g.gameID = gd.gameID).map (g, ·)) t.users := by
    rw [filter_join fun x : GameRecord × DetailRecord => x.1.gameID = g.gameID,
      filter_join_of_unique hids hg]
  have hrow : (fun row : HistoryRow => decide (row.gameID = g.gameID)) ∘ historyRow =
      fun x => decide (x.1.1.gameID = g.gameID) := rfl
  rw [hrow, hone, join_key_eq_filterMap ht.users, List.filterMap_map, List.map_filterMap,
    List.map_filterMap, seats]
  simp only [eq_comm (a := g.gameID)]
  apply List.filterMap_congr
  intro gd _
  simp only [Function.comp_apply, Option.map_map]
  rfl

variable {history : List GameHistoryEntry} {e : GameHistoryEntry}

theorem mem_map_historyRows (ht : t.Keyed) {gameID : ℤ} :
    gameID ∈ (t.historyRows userID).map (·.gameID) ↔
      gameID ∈ (t.finishedGames userID).map (·.gameID) := by
  constructor
  · intro hmem
    obtain ⟨row, hrow, rfl⟩ := List.mem_map.mp hmem
    obtain ⟨g, hg, hid, -⟩ := mem_historyRows hrow
    exact List.mem_map.mpr ⟨g, hg, hid.symm⟩
  · intro hmem
    obtain ⟨g, hg, rfl⟩ := List.mem_map.mp hmem
    obtain ⟨-, -, gd, hgd, hid, -⟩ := mem_finishedGames.mp hg
    obtain ⟨u, hu, huser⟩ := ht.seated gd hgd
    rw [historyRows_eq, List.map_map]
    exact List.mem_map.mpr ⟨((g, gd), u), mem_join.mpr ⟨mem_join.mpr ⟨hg, hgd, by simp [hid]⟩, hu,
      by simpa using huser⟩, rfl⟩

theorem exists_game (h : GroupedByGame rows history) (hrows : rows.Perm (t.historyRows userID))
    (he : e ∈ history) : ∃ g ∈ t.finishedGames userID, SameGame e g := by
  obtain ⟨first, hfirst, heq⟩ := h.entry e he
  have hmem : first ∈ t.historyRows userID :=
    hrows.mem_iff.mp (mem_rowsOfGame.mp (List.mem_of_head? hfirst)).1
  obtain ⟨g, hg, hid, hsize, hwinner, hcreated, hended⟩ := mem_historyRows hmem
  refine ⟨g, hg, ?_⟩
  rw [heq]
  exact ⟨hid, hsize, hwinner, hcreated, hended⟩

theorem createdAt_of_row (ht : t.Keyed) (h : GroupedByGame rows history)
    (hrows : rows.Perm (t.historyRows userID)) (he : e ∈ history) (hrow : row ∈ rows)
    (hid : row.gameID = e.gameID) : row.createdAt = e.createdAt := by
  obtain ⟨g, hg, hsame⟩ := exists_game h hrows he
  obtain ⟨g', hg', hid', -, -, hcreated, -⟩ := mem_historyRows (hrows.mem_iff.mp hrow)
  have hgame : g' = g := List.inj_on_of_nodup_map ht.games (mem_finishedGames.mp hg').1
    (mem_finishedGames.mp hg).1 (by rw [← hid', hid, hsame.gameID])
  rw [hcreated, hgame, hsame.createdAt]

theorem newest_of_ordered (ht : t.Keyed) (h : GroupedByGame rows history)
    (hrows : Ordered HistoryRow.Before (t.historyRows userID) rows) :
    history.Pairwise fun a b => b.createdAt ≤ a.createdAt := by
  refine List.Pairwise.imp_of_mem ?_ (List.pairwise_map.mp h.order)
  intro a b ha hb hlt
  have hfirst (e : GameHistoryEntry) (he : e ∈ history) :
      ∃ hi : (rows.map (·.gameID)).idxOf e.gameID < rows.length,
        rows[(rows.map (·.gameID)).idxOf e.gameID].createdAt = e.createdAt := by
    have hmem := (h.games e.gameID).mp (List.mem_map_of_mem he)
    have hi := List.idxOf_lt_length_of_mem hmem
    have hid := List.getElem_idxOf hi
    rw [List.getElem_map] at hid
    rw [List.length_map] at hi
    exact ⟨hi, createdAt_of_row ht h hrows.perm he (List.getElem_mem hi) hid⟩
  obtain ⟨hi, hcreated⟩ := hfirst a ha
  obtain ⟨hj, hcreated'⟩ := hfirst b hb
  rw [← hcreated, ← hcreated']
  rcases List.pairwise_iff_getElem.mp hrows.sorted _ _ hi hj hlt with hnewer | ⟨hsame, -⟩
  · exact hnewer.le
  · exact hsame.ge

theorem players_of_entry (h : GroupedByGame rows history) (he : e ∈ history) :
    e.players = (rowsOfGame rows e.gameID).map (·.player) := by
  obtain ⟨first, -, heq⟩ := h.entry e he
  exact congrArg (·.players) heq

theorem games_perm (ht : t.Keyed) (h : GroupedByGame rows history)
    (hrows : rows.Perm (t.historyRows userID)) :
    (history.map fun e => (⟨e.gameID, e.winnerID, e.endedAt⟩ : GamesRow)).Perm
      (t.tables.played userID) := by
  rw [played_tables]
  apply (List.perm_ext_iff_of_nodup ?_ ?_).mpr
  · intro x
    rw [List.mem_map, List.mem_map]
    constructor
    · rintro ⟨e, he, rfl⟩
      obtain ⟨g, hg, hsame⟩ := exists_game h hrows he
      exact ⟨g, hg, by rw [hsame.gameID, hsame.winnerID, hsame.endedAt]⟩
    · rintro ⟨g, hg, rfl⟩
      have hmem : g.gameID ∈ rows.map (·.gameID) :=
        (hrows.map _).mem_iff.mpr ((mem_map_historyRows ht).mpr (List.mem_map_of_mem hg))
      obtain ⟨e, he, hid⟩ := List.mem_map.mp ((h.games _).mpr hmem)
      obtain ⟨g', hg', hsame⟩ := exists_game h hrows he
      have hgame : g' = g := List.inj_on_of_nodup_map ht.games (mem_finishedGames.mp hg').1
        (mem_finishedGames.mp hg).1 (by rw [← hsame.gameID, hid])
      exact ⟨e, he, by rw [hsame.gameID, hsame.winnerID, hsame.endedAt, hgame]⟩
  · apply List.Nodup.of_map (·.gameID)
    rw [List.map_map]
    exact h.nodup
  · apply List.Nodup.of_map (·.gameID)
    rw [List.map_map]
    exact ht.games.sublist (List.filter_sublist.map _)

theorem isHistory_of_ordered (ht : t.Keyed) (h : GroupedByGame rows history)
    (hrows : Ordered HistoryRow.Before (t.historyRows userID) rows) :
    t.IsHistory userID history where
  games := games_perm ht h hrows.perm
  newest := newest_of_ordered ht h hrows
  entry e he := by
    obtain ⟨g, hg, hsame⟩ := exists_game h hrows.perm he
    exact ⟨g, (mem_finishedGames.mp hg).1, hsame⟩
  players e he := by
    obtain ⟨g, hg, hsame⟩ := exists_game h hrows.perm he
    rw [players_of_entry h he, hsame.gameID, ← rowsOfGame_historyRows ht hg]
    exact (hrows.perm.filter _).map _
  seated e he := by
    rw [players_of_entry h he, List.pairwise_map]
    have hsorted : (rowsOfGame rows e.gameID).Pairwise HistoryRow.Before :=
      hrows.sorted.sublist List.filter_sublist
    refine hsorted.imp_of_mem ?_
    intro a b ha hb hab
    obtain ⟨ha, hid⟩ := mem_rowsOfGame.mp ha
    obtain ⟨hb, hid'⟩ := mem_rowsOfGame.mp hb
    have hcreated := createdAt_of_row ht h hrows.perm he ha hid
    have hcreated' := createdAt_of_row ht h hrows.perm he hb hid'
    rcases hab with hnewer | ⟨-, hseat⟩
    · rw [hcreated, hcreated'] at hnewer
      exact absurd hnewer (lt_irrefl _)
    · exact hseat

theorem sum_scoreIn (userID : ℤ) (history : List GameHistoryEntry) :
    (history.map (scoreIn userID)).sum =
      (((history.flatMap (·.players)).filter (·.userID = some userID)).map (·.score)).sum := by
  induction history with
  | nil => rfl
  | cons e history ih =>
    rw [List.map_cons, List.sum_cons, ih, List.flatMap_cons, List.filter_append, List.map_append,
      List.sum_append, scoreIn]

theorem ownSeats_perm (t : WideTables) (userID : ℤ) :
    ((join (fun g gd => g.gameID = gd.gameID) (t.finishedGames userID) t.gameDetails).filter
      fun x => x.2.userID = userID).Perm
        ((t.finishedSeats.filter (·.1.userID = userID)).map Prod.swap) := by
  let pairs := join (fun (g : GameRecord) (gd : DetailRecord) => g.gameID = gd.gameID) t.games
    t.gameDetails
  have hswap : (t.finishedSeats.map Prod.swap).Perm (pairs.filter fun x => x.1.endedAt.isSome) := by
    have hperm : ((join (fun gd g => decide (g.gameID = gd.gameID) && g.endedAt.isSome)
        t.gameDetails t.games).map Prod.swap).Perm
          (join (fun g gd => decide (g.gameID = gd.gameID) && g.endedAt.isSome) t.games
            t.gameDetails) := join_swap_perm _ _
    rw [join_and (fun g : GameRecord => g.endedAt.isSome), ← filter_join fun g : GameRecord =>
      g.endedAt.isSome] at hperm
    simpa only [finishedSeats, Bool.decide_and, Bool.decide_eq_true] using hperm
  have hown : (join (fun g gd => g.gameID = gd.gameID) (t.finishedGames userID)
      t.gameDetails).filter (fun x => x.2.userID = userID) =
        (pairs.filter fun x => x.1.endedAt.isSome).filter fun x => x.2.userID = userID := by
    unfold finishedGames
    rw [← filter_join, List.filter_filter, List.filter_filter]
    apply List.filter_congr
    rintro ⟨g, gd⟩ hmem
    obtain ⟨-, hgd, hid⟩ := mem_join.mp hmem
    by_cases huser : gd.userID = userID
    · have hplayed : g.gameID ∈ (t.gameDetails.filter (·.userID = userID)).map (·.gameID) :=
        List.mem_map.mpr ⟨gd, List.mem_filter.mpr ⟨hgd, by simpa using huser⟩,
          (of_decide_eq_true hid).symm⟩
      simp only [hplayed, true_and, Bool.decide_eq_true]
    · simp only [huser, decide_false, Bool.false_and]
  rw [hown]
  have hfilter := (hswap.filter fun x => x.2.userID = userID).symm
  rwa [List.filter_map] at hfilter

theorem map_historyRows (ht : t.Keyed) (userID : ℤ) :
    (t.historyRows userID).map (fun row => (row.playerUserID, row.score)) =
      (join (fun g gd => g.gameID = gd.gameID) (t.finishedGames userID) t.gameDetails).map
        fun x => (x.2.userID, x.2.score) := by
  rw [historyRows_eq_filterMap ht, List.map_filterMap, ← List.filterMap_eq_map]
  apply List.filterMap_congr
  rintro ⟨g, gd⟩ hmem
  obtain ⟨u, hu, huser⟩ := ht.seated gd (mem_join.mp hmem).2.1
  obtain ⟨u', hu'⟩ : ∃ u', t.users.find? (·.userID = gd.userID) = some u' := by
    rw [← Option.isSome_iff_exists, List.find?_isSome]
    exact ⟨u, hu, by simpa using huser⟩
  rw [hu']
  rfl

theorem totalBoxes_eq (ht : t.Keyed) (h : GroupedByGame rows history)
    (hrows : rows.Perm (t.historyRows userID)) :
    (history.map (scoreIn userID)).sum = (t.tables.countGames userID).2 := by
  have hplayers : (history.flatMap (·.players)).Perm ((t.historyRows userID).map (·.player)) := by
    have hperm := h.perm.map Prod.snd
    rw [List.map_flatMap, List.map_map] at hperm
    simp only [List.map_map, Function.comp_def, List.map_id'] at hperm
    exact hperm.trans (hrows.map _)
  have hrowSum : ((((t.historyRows userID).map (·.player)).filter (·.userID = some userID)).map
      (·.score)).sum = ((((t.historyRows userID).map fun row =>
        (row.playerUserID, row.score)).filter (·.1 = userID)).map Prod.snd).sum := by
    simp only [List.filter_map, List.map_map, Function.comp_def, HistoryRow.player,
      Option.some.injEq]
  have hseats := ((ownSeats_perm t userID).map fun x => x.2.score).sum_eq
  rw [sum_scoreIn, ((hplayers.filter _).map _).sum_eq, hrowSum, map_historyRows ht,
    Tables.countGames, finishedSeats_tables]
  simpa only [List.filter_map, List.map_map, Function.comp_def, Prod.swap] using hseats

theorem addsUp_of_grouped (ht : t.Keyed) (hconsistent : t.tables.Consistent) {u : UserRecord}
    (hu : u ∈ t.users) (h : GroupedByGame rows history)
    (hrows : rows.Perm (t.historyRows u.userID)) :
    ∃ stats, t.tables.getUserStats u.userID = .ok stats ∧ AddsUp u.userID history stats := by
  obtain ⟨stats, hfound, -, hwins, hplayed, hboxes⟩ := getUserStats_of_mem ht.users hu
  have hperm := games_perm ht h hrows
  refine ⟨stats, hfound, ?_, ?_, ?_⟩
  · rw [hplayed, hconsistent.countGames_eq, ← hperm.length_eq, List.length_map]
  · rw [hwins, hconsistent.countWins_eq, Tables.results, List.count_eq_countP, List.countP_map,
      ← hperm.countP_eq, List.countP_map]
    congr 2
    funext e
    rw [Bool.eq_iff_iff]
    simp only [Function.comp_apply, beq_iff_eq, decide_eq_true_eq]
    exact Tables.resultFor_eq_won_iff
  · rw [hboxes, totalBoxes_eq ht h hrows]

/-- The rows of games with their ids. The database sets the time at which a row is inserted. -/
def ofGames (createdAt : ℤ → Time) (users : List UserRecord) (games : List (ℤ × Game)) :
    WideTables where
  users
  games := games.map fun (gameID, g) =>
    ⟨⟨gameID, g.projection.winnerID, g.projection.endedAt⟩, g.boardSize, createdAt gameID⟩
  gameDetails := games.flatMap fun (gameID, g) =>
    g.projection.details.map fun d => ⟨⟨gameID, d.userID, d.score⟩, d.turnOrder⟩

/-- What an entry says of a player, but for the name. -/
def seatOf (p : Player) : Option ℤ × ℤ × ℤ := (p.userID, p.turnOrder, p.score)

/-- Games that are played by the rules, each with an id, by users who are known. -/
structure Played (users : List UserRecord) (games : List (ℤ × Game)) : Prop where
  distinctUsers : (users.map (·.userID)).Nodup
  distinctGames : (games.map Prod.fst).Nodup
  known : ∀ game ∈ games, ∀ p ∈ game.2.players, ∀ userID, p.userID = some userID →
    ∃ u ∈ users, u.userID = userID
  rules : ∀ game ∈ games, ∃ roster n, 0 < n ∧ 0 < roster.length ∧ Seated roster ∧
    DotsAndBoxes.Reachable roster n game.2

variable {createdAt : ℤ → Time} {users : List UserRecord} {games : List (ℤ × Game)} {gameID : ℤ}
  {game : Game}

theorem tables_ofGames (createdAt : ℤ → Time) (users : List UserRecord)
    (games : List (ℤ × Game)) : (ofGames createdAt users games).tables = .ofGames (users.map (·.toUsersRow)) games := by
  simp only [tables, ofGames, Tables.ofGames, List.map_map, List.map_flatMap, Function.comp_def]

theorem Played.keyed (h : Played users games) : (ofGames createdAt users games).Keyed where
  users := h.distinctUsers
  games := by
    rw [ofGames, List.map_map]
    exact h.distinctGames
  seated gd hgd := by
    obtain ⟨⟨gameID, g⟩, hg, hgd⟩ := List.mem_flatMap.mp hgd
    obtain ⟨d, hd, rfl⟩ := List.mem_map.mp hgd
    obtain ⟨p, hp, hdetail⟩ := List.mem_filterMap.mp hd
    obtain ⟨userID, huser, rfl⟩ := Option.map_eq_some_iff.mp hdetail
    exact h.known _ hg p hp userID huser

theorem Played.consistent (h : Played users games) :
    (ofGames createdAt users games).tables.Consistent := by
  rw [tables_ofGames]
  apply Tables.ofGames_consistent _ h.distinctGames
  intro game hgame
  obtain ⟨roster, n, -, -, -, hreach⟩ := h.rules game hgame
  exact ⟨roster, n, hreach⟩

theorem pairwise_turnOrder {roster : List Player} {n : ℕ} (hn : 0 < n) (hk : 0 < roster.length)
    (hseat : Seated roster) (hg : DotsAndBoxes.Reachable roster n game) :
    game.players.Pairwise fun p q => p.turnOrder < q.turnOrder := by
  obtain ⟨pos, hpos, -⟩ := hg.tracks_natural hn hk
  rw [hpos.players_eq, List.pairwise_iff_getElem]
  intro i j hi hj hij
  rw [List.length_ofFn] at hi hj
  simp only [List.getElem_ofFn, seatView, (hseat ⟨i, hi⟩).1, (hseat ⟨j, hj⟩).1]
  exact_mod_cast hij

theorem gameDetails_of_game (hids : (games.map Prod.fst).Nodup) (hg : (gameID, game) ∈ games) :
    (ofGames createdAt users games).gameDetails.filter (·.gameID = gameID) =
      game.projection.details.map fun d => ⟨⟨gameID, d.userID, d.score⟩, d.turnOrder⟩ := by
  unfold ofGames
  dsimp only
  induction games with
  | nil => cases hg
  | cons head games ih =>
    obtain ⟨headID, first⟩ := head
    rw [List.map_cons, List.nodup_cons] at hids
    rw [List.flatMap_cons, List.filter_append]
    rcases List.mem_cons.mp hg with heq | hg
    · cases heq
      have hrest : (games.flatMap fun (id, g) => g.projection.details.map fun d =>
          (⟨⟨id, d.userID, d.score⟩, d.turnOrder⟩ : DetailRecord)).filter
            (·.gameID = gameID) = [] := by
        apply List.filter_eq_nil_iff.mpr
        intro gd hgd heq
        obtain ⟨⟨id, g⟩, hg', hgd⟩ := List.mem_flatMap.mp hgd
        obtain ⟨d, -, rfl⟩ := List.mem_map.mp hgd
        exact hids.1 (List.mem_map.mpr ⟨_, hg', of_decide_eq_true heq⟩)
      rw [hrest, List.append_nil, List.filter_eq_self.mpr]
      intro gd hgd
      obtain ⟨d, -, rfl⟩ := List.mem_map.mp hgd
      simp
    · have hne : headID ≠ gameID := fun heq => hids.1 (List.mem_map.mpr ⟨_, hg, heq.symm⟩)
      rw [ih hids.2 hg, List.filter_eq_nil_iff.mpr, List.nil_append]
      intro gd hgd
      obtain ⟨d, -, rfl⟩ := List.mem_map.mp hgd
      simpa using hne

theorem seats_ofGames (h : Played users games) (hg : (gameID, game) ∈ games) :
    ((ofGames createdAt users games).seats gameID).map seatOf =
      (game.players.filter (·.userID.isSome)).map seatOf := by
  rw [seats, gameDetails_of_game h.distinctGames hg, List.filterMap_map, List.map_filterMap,
    Game.projection, List.filterMap_filterMap, ← List.filterMap_eq_filter, List.map_filterMap]
  apply List.filterMap_congr
  intro p hp
  cases huser : p.userID with
  | none => simp [Player.detail, huser, Option.guard]
  | some userID =>
    obtain ⟨u, hu, hid⟩ := h.known _ hg p hp userID huser
    obtain ⟨u', hfind⟩ : ∃ u', users.find? (·.userID = userID) = some u' := by
      rw [← Option.isSome_iff_exists, List.find?_isSome]
      exact ⟨u, hu, by simpa using hid⟩
    simp [Player.detail, huser, Option.guard, ofGames, hfind, seatOf]

theorem Played.players_eq (h : Played users games) (hg : (gameID, game) ∈ games)
    {players : List Player} (hperm : players.Perm ((ofGames createdAt users games).seats gameID))
    (hsorted : players.Pairwise fun p q => p.turnOrder ≤ q.turnOrder) :
    players.map seatOf = (game.players.filter (·.userID.isSome)).map seatOf := by
  obtain ⟨roster, n, hn, hk, hseat, hreach⟩ := h.rules _ hg
  have hstrict : ((ofGames createdAt users games).seats gameID).Pairwise
      fun p q => p.turnOrder < q.turnOrder := by
    have hgame : ((game.players.filter (·.userID.isSome)).map seatOf).Pairwise
        fun a b => a.2.1 < b.2.1 :=
      List.pairwise_map.mpr ((pairwise_turnOrder hn hk hseat hreach).sublist List.filter_sublist)
    rwa [← seats_ofGames h hg, List.pairwise_map] at hgame
  have hdistinct : (((ofGames createdAt users games).seats gameID).map (·.turnOrder)).Nodup :=
    List.pairwise_map.mpr (hstrict.imp fun hlt => hlt.ne)
  rw [← seats_ofGames h hg]
  congr 1
  refine List.Perm.eq_of_pairwise ?_ hsorted (hstrict.imp fun hlt => hlt.le) hperm
  intro p q hp hq hle hle'
  exact List.inj_on_of_nodup_map hdistinct (hperm.mem_iff.mp hp) hq (le_antisymm hle hle')

/-- The history of a user shows every finished game of the user once, the newest first, with the
final scores of its players in the order of their seats, and adds up to the user's statistics. -/
theorem findUserGameHistory_ofGames (h : Played users games) {u : UserRecord} (hu : u ∈ users)
    (hrows : Ordered HistoryRow.Before ((ofGames createdAt users games).historyRows u.userID) rows) :
    ∃ history stats, findUserGameHistory (.ok ⟨rows.map .ok, none⟩) = some (.ok history) ∧
      (ofGames createdAt users games).IsHistory u.userID history ∧
      (ofGames createdAt users games).tables.getUserStats u.userID = .ok stats ∧
      AddsUp u.userID history stats ∧
      ∀ e ∈ history, ∃ g, (e.gameID, g) ∈ games ∧ e.boardSize = g.boardSize ∧
        e.winnerID = g.winnerID ∧ e.createdAt = createdAt e.gameID ∧ e.endedAt = g.endedAt ∧
        e.players.map seatOf = (g.players.filter (·.userID.isSome)).map seatOf := by
  have hgrouped := groupedByGame_groups rows
  have hhistory := isHistory_of_ordered h.keyed hgrouped hrows
  obtain ⟨stats, hstats, hadds⟩ := addsUp_of_grouped h.keyed h.consistent hu hgrouped hrows.perm
  refine ⟨_, stats, findUserGameHistory_ok rows, hhistory, hstats, hadds, ?_⟩
  intro e he
  obtain ⟨record, hrecord, hsame⟩ := hhistory.entry e he
  obtain ⟨⟨gameID, g⟩, hg, rfl⟩ := List.mem_map.mp hrecord
  have hid : e.gameID = gameID := hsame.gameID
  have hplayers := hhistory.players e he
  rw [hid] at hplayers
  exact ⟨g, hid ▸ hg, hsame.boardSize, hsame.winnerID, hid ▸ hsame.createdAt, hsame.endedAt,
    h.players_eq hg hplayers (hhistory.seated e he)⟩

/-- The first player gives up at once. -/
def forfeitedDuel : Game := ((Game.newGame 5 (some 1) 2 duel).bind (·.forfeit 9 7)).getD {}

theorem played_forfeitedDuel :
    Played [⟨⟨7, "ann"⟩, some false⟩, ⟨⟨8, "bob"⟩, some true⟩] [(1, forfeitedDuel)] where
  distinctUsers := by decide
  distinctGames := by decide
  known game hgame p hp userID huser := by
    rw [List.mem_singleton.mp hgame] at hp
    have hall : ∀ p ∈ forfeitedDuel.players, p.userID = some 7 ∨ p.userID = some 8 := by decide
    rcases hall p hp with h | h <;> rw [huser] at h <;> cases h
    · exact ⟨⟨⟨7, "ann"⟩, some false⟩, by simp, rfl⟩
    · exact ⟨⟨⟨8, "bob"⟩, some true⟩, by simp, rfl⟩
  rules game hgame := by
    rw [List.mem_singleton.mp hgame]
    refine ⟨duel, 2, by decide, by decide, by decide, ?_⟩
    obtain ⟨g, hg⟩ := Option.isSome_iff_exists.mp
      (show ((Game.newGame 5 (some 1) 2 duel).bind (·.forfeit 9 7)).isSome = true by decide)
    have hforfeited : forfeitedDuel = g := by rw [forfeitedDuel, hg, Option.getD_some]
    obtain ⟨g₀, hnew, hforfeit⟩ := Option.bind_eq_some_iff.mp hg
    rw [hforfeited]
    exact ⟨5, some 1, g₀, hnew, .tail .refl (.forfeit hforfeit)⟩

theorem findUserGameHistory_ofGames_forfeit :
    let t := ofGames (fun _ => 6) [⟨⟨7, "ann"⟩, some false⟩, ⟨⟨8, "bob"⟩, some true⟩]
      [(1, forfeitedDuel)]
    ∃ history stats,
      findUserGameHistory (.ok ⟨(t.historyRows 8).map .ok, none⟩) = some (.ok history) ∧
      t.tables.getUserStats 8 = .ok stats ∧ AddsUp 8 history stats ∧
      ∀ e ∈ history, e.gameID = 1 ∧ e.winnerID = some 8 := by
  intro t
  have hrows : Ordered HistoryRow.Before (t.historyRows 8) (t.historyRows 8) := by
    refine ⟨.refl _, ?_⟩
    unfold HistoryRow.Before
    decide
  obtain ⟨history, stats, hfound, -, hstats, hadds, hentries⟩ := findUserGameHistory_ofGames
    played_forfeitedDuel (u := ⟨⟨8, "bob"⟩, some true⟩) (by simp) hrows
  refine ⟨history, stats, hfound, hstats, hadds, ?_⟩
  intro e he
  obtain ⟨g, hg, -, hwinner, -⟩ := hentries e he
  obtain ⟨hid, rfl⟩ := Prod.mk.inj (List.mem_singleton.mp hg)
  exact ⟨hid, hwinner.trans (by decide)⟩

end WideTables

end DotsAndBoxes
