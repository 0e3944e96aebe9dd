import DotsAndBoxes.Hub.Chat
import DotsAndBoxes.Library.Queries
import DotsAndBoxes.Stats.UserStats

/-! # The leaderboard

Two queries rank the users who are no guests: by the games that they have won, and by the boxes
that they have completed in finished games. Who has none of them is left out. The entries have
what the statistics of the users say, and whoever is not there has no more than anybody who is.
-/

namespace DotsAndBoxes

open Queries

structure LeaderboardEntry where
  rank : ℤ
  userID : ℤ
  username : String
  value : ℤ
  deriving DecidableEq, Repr

structure Leaderboard where
  mostWins : List LeaderboardEntry
  mostBoxes : List LeaderboardEntry
  deriving DecidableEq, Repr

structure ValueRow where
  userID : ℤ
  username : String
  value : ℤ
  deriving DecidableEq, Repr

def ValueRow.of (group : (ℤ × String) × ℤ) : ValueRow := ⟨group.1.1, group.1.2, group.2⟩

/-- The rows of a query as they are scanned, and the error after the last of them. -/
structure ValueRows where
  rows : List (Except String ValueRow)
  err : Option String

namespace PgStatsRepository

def scanEntries (board : String) :
    List (Except String ValueRow) → ℤ → Except String (List LeaderboardEntry)
  | [], _ => .ok []
  | .error err :: _, _ => .error ("failed to scan " ++ board ++ " entry: " ++ err)
  | .ok row :: rows, rank =>
    (scanEntries board rows (rank + 1)).map (⟨rank, row.userID, row.username, row.value⟩ :: ·)

def entries (board : String) (query : Except String ValueRows) :
    Except String (List LeaderboardEntry) :=
  match query with
  | .error err => .error ("failed to query " ++ board ++ " leaderboard: " ++ err)
  | .ok rows =>
    match scanEntries board rows.rows 1, rows.err with
    | .error err, _ => .error err
    | .ok _, some err => .error err
    | .ok entries, none => .ok entries

def getLeaderboard (limit : ℤ) (wins boxes : ℤ → Except String ValueRows) :
    Except String Leaderboard := do
  let limit := if limit ≤ 0 then 10 else limit
  let mostWins ← entries "wins" (wins limit)
  let mostBoxes ← entries "boxes" (boxes limit)
  return ⟨mostWins, mostBoxes⟩

end PgStatsRepository

namespace StatsHandler

def limit (param : String) : ℤ :=
  if param = "" then 10
  else match atoi param.toList with
    | some parsed => if 0 < parsed ∧ parsed ≤ 50 then parsed else 10
    | none => 10

def getLeaderboard (param : String) (wins boxes : ℤ → Except String ValueRows) :
    Except String Leaderboard :=
  (PgStatsRepository.getLeaderboard (limit param) wins boxes).mapError
    ("failed to get leaderboard: " ++ ·)

end StatsHandler

structure UserRecord extends UsersRow where
  isGuest : Option Bool

structure GameRecord extends GamesRow where
  boardSize : ℤ
  createdAt : Time

structure DetailRecord extends GameDetailsRow where
  turnOrder : ℤ

/-- The tables with the columns that the other queries read. -/
structure WideTables where
  users : List UserRecord
  games : List GameRecord
  gameDetails : List DetailRecord

namespace WideTables

def tables (t : WideTables) : Tables where
  users := t.users.map (·.toUsersRow)
  games := t.games.map (·.toGamesRow)
  gameDetails := t.gameDetails.map (·.toGameDetailsRow)

variable (t : WideTables)

/-- The users who are no guests, with the finished games that they have won. -/
def wonGames : List (UserRecord × GameRecord) :=
  (join (fun u g => g.winnerID = some u.userID ∧ g.endedAt.isSome) t.users t.games).filter
    fun x => x.1.isGuest = some false

def wins : List ValueRow :=
  (groupBy (fun x => (x.1.userID, x.1.username)) (fun rows => (rows.length : ℤ))
    t.wonGames).map .of

def finishedSeats : List (DetailRecord × GameRecord) :=
  join (fun gd g => g.gameID = gd.gameID ∧ g.endedAt.isSome) t.gameDetails t.games

def totalBoxes : List ValueRow :=
  (groupBy (fun x => (x.1.userID, x.1.username)) (fun rows => (rows.map (·.2.1.score)).sum)
    ((join (fun u x => x.1.userID = u.userID) t.users t.finishedSeats).filter
      fun x => x.1.isGuest = some false)).map .of

/-- The query answers with the first of the rows, those with the highest values first. -/
def RanksByValue (rows : List ValueRow) (query : ℤ → Except String ValueRows) : Prop :=
  ∀ limit, ∃ result, query limit = .ok ⟨result.map .ok, none⟩ ∧
    Top (fun a b => b.value ≤ a.value) limit.toNat rows result

/-- The statistics of a user who is no guest, if they count. -/
structure Listed (counts : UserStats → Prop) (userID : ℤ) (stats : UserStats) : Prop where
  user : ∃ u ∈ t.users, u.userID = userID ∧ u.isGuest = some false
  found : t.tables.getUserStats userID = .ok stats
  counted : counts stats

structure Ranking (score : UserStats → ℤ) (counts : UserStats → Prop) (limit : ℤ)
    (entries : List LeaderboardEntry) : Prop where
  ranks : entries.map (·.rank) = (List.range entries.length).map fun i : ℕ => (i : ℤ) + 1
  distinct : (entries.map (·.userID)).Nodup
  entry : ∀ e ∈ entries, ∃ stats, t.Listed counts e.userID stats ∧
    e.username = stats.username ∧ e.value = score stats
  sorted : entries.Pairwise fun a b => b.value ≤ a.value
  length_le : entries.length ≤ limit
  /-- Who is left out has no more than those who are there, and there was no place left. -/
  best : ∀ userID stats, t.Listed counts userID stats → userID ∉ entries.map (·.userID) →
    entries.length = limit ∧ ∀ e ∈ entries, score stats ≤ e.value

/-- The rows are the statistics that count, each user once. -/
structure Tallies (score : UserStats → ℤ) (counts : UserStats → Prop) (rows : List ValueRow) :
    Prop where
  distinct : (rows.map (·.userID)).Nodup
  row : ∀ row, row ∈ rows ↔ ∃ stats, t.Listed counts row.userID stats ∧
    row.username = stats.username ∧ row.value = score stats

variable {t} {score : UserStats → ℤ} {counts : UserStats → Prop} {rows result : List ValueRow}
  {limit : ℤ}

def ranked (rows : List ValueRow) : List LeaderboardEntry :=
  rows.mapIdx fun i row => ⟨(i : ℤ) + 1, row.userID, row.username, row.value⟩

theorem scanEntries_ok (board : String) (rows : List ValueRow) (rank : ℤ) :
    PgStatsRepository.scanEntries board (rows.map .ok) rank =
      .ok (rows.mapIdx fun i row => ⟨rank + i, row.userID, row.username, row.value⟩) := by
  induction rows generalizing rank with
  | nil => rfl
  | cons row rows ih =>
    rw [List.map_cons, PgStatsRepository.scanEntries, ih, List.mapIdx_cons]
    simp only [Except.map, Nat.cast_add, Nat.cast_one, Nat.cast_zero, add_zero]
    simp only [add_assoc, add_comm (1 : ℤ)]

theorem entries_ok (board : String) (rows : List ValueRow) :
    PgStatsRepository.entries board (.ok ⟨rows.map .ok, none⟩) = .ok (ranked rows) := by
  simp only [PgStatsRepository.entries, scanEntries_ok, ranked, add_comm (1 : ℤ)]

theorem mem_ranked {e : LeaderboardEntry} (h : e ∈ ranked rows) :
    ⟨e.userID, e.username, e.value⟩ ∈ rows := by
  obtain ⟨i, hi, rfl⟩ := List.mem_mapIdx.mp h
  exact List.getElem_mem hi

theorem map_ranked {α : Type} (f : LeaderboardEntry → α) (f' : ValueRow → α)
    (hf : ∀ rank row, f ⟨rank, row.userID, row.username, row.value⟩ = f' row) :
    (ranked rows).map f = rows.map f' := by
  apply List.ext_getElem
  · simp [ranked]
  · intro i _ _
    simp [ranked, hf]

theorem Tallies.ranking (h : t.Tallies score counts rows) (hlimit : 0 ≤ limit)
    (htop : Top (fun a b => b.value ≤ a.value) limit.toNat rows result) :
    t.Ranking score counts limit (ranked result) := by
  have hvalues : (ranked result).map (·.value) = result.map (·.value) :=
    map_ranked _ _ fun _ _ => rfl
  have hids : (ranked result).map (·.userID) = result.map (·.userID) :=
    map_ranked _ _ fun _ _ => rfl
  constructor
  · apply List.ext_getElem
    · simp [ranked]
    · intro i _ _
      simp only [ranked, List.getElem_map, List.getElem_mapIdx, List.getElem_range]
  · rw [hids]
    exact htop.nodup_map h.distinct
  · intro e he
    exact (h.row _).mp (htop.mem_rows (mem_ranked he))
  · have hsorted := htop.sorted
    rw [← List.pairwise_map (f := fun r : ValueRow => r.value) (R := fun a b => b ≤ a)] at hsorted
    rwa [← List.pairwise_map (f := fun e : LeaderboardEntry => e.value) (R := fun a b => b ≤ a),
      hvalues]
  · have hlength := htop.length_eq
    simp only [ranked, List.length_mapIdx]
    omega
  · intro userID stats hlisted hout
    have hrow := (h.row ⟨userID, stats.username, score stats⟩).mpr ⟨stats, hlisted, rfl, rfl⟩
    have hout' : ⟨userID, stats.username, score stats⟩ ∉ result := by
      intro hmem
      rw [hids] at hout
      exact hout (List.mem_map_of_mem hmem)
    refine ⟨?_, fun e he => htop.le_of_notMem hrow hout' _ (mem_ranked he)⟩
    have hfull := htop.length_of_notMem hrow hout'
    simp [ranked, hfull, hlimit]

variable {u : UserRecord} {stats : UserStats}

theorem find?_users {users : List UserRecord} (hnodup : (users.map (·.userID)).Nodup)
    (hu : u ∈ users) :
    (users.map (·.toUsersRow)).find? (·.userID = u.userID) = some u.toUsersRow := by
  induction users with
  | nil => cases hu
  | cons u' users ih =>
    rw [List.map_cons, List.nodup_cons] at hnodup
    rw [List.map_cons]
    rcases List.mem_cons.mp hu with rfl | hu
    · exact List.find?_cons_of_pos (by simp)
    · have hne : u'.userID ≠ u.userID := fun heq => hnodup.1 (heq ▸ List.mem_map_of_mem hu)
      rw [List.find?_cons_of_neg (by simpa using hne), ih hnodup.2 hu]

theorem getUserStats_of_mem (hnodup : (t.users.map (·.userID)).Nodup) (hu : u ∈ t.users) :
    ∃ stats, t.tables.getUserStats u.userID = .ok stats ∧ stats.username = u.username ∧
      stats.wins = t.tables.countWins u.userID ∧
      stats.gamesPlayed = (t.tables.countGames u.userID).1 ∧
      stats.totalBoxes = (t.tables.countGames u.userID).2 := by
  have hfind : t.tables.findUser u.userID = .ok u.username := by
    rw [Tables.findUser, tables, find?_users hnodup hu]
  rw [Tables.getUserStats, hfind]
  exact ⟨_, rfl, rfl, rfl, rfl, rfl⟩

theorem countWins_eq (t : WideTables) (userID : ℤ) : t.tables.countWins userID =
    (t.games.filter fun g => g.winnerID = some userID ∧ g.endedAt.isSome).length := by
  rw [Tables.countWins, tables, List.filter_map, List.length_map]
  rfl

theorem finishedSeats_tables (t : WideTables) (userID : ℤ) : t.tables.finishedSeats userID =
    (t.finishedSeats.filter (·.1.userID = userID)).map fun (gd, g) =>
      (gd.toGameDetailsRow, g.toGamesRow) := by
  unfold Tables.finishedSeats finishedSeats tables
  generalize t.gameDetails = details
  induction details with
  | nil => rfl
  | cons gd details ih =>
    rw [join_cons, List.filter_append, List.map_append, ← ih, List.map_cons, List.flatMap_cons,
      List.filter_append]
    congr 1
    simp only [List.filter_map, List.map_map, List.filter_filter, Function.comp_def]
    congr 1
    apply List.filter_congr
    intro g _
    simp only [Bool.decide_and, Bool.decide_eq_true, Bool.and_comm, Bool.and_left_comm]

theorem tallies_groupBy {σ : Type} {rows' : List σ} {on : UserRecord → σ → Bool}
    {aggregate : List (UserRecord × σ) → ℤ} (hnodup : (t.users.map (·.userID)).Nodup)
    (hstats : ∀ u ∈ t.users, ∃ stats, t.tables.getUserStats u.userID = .ok stats ∧
      stats.username = u.username ∧ (counts stats ↔ rows'.filter (on u) ≠ []) ∧
      score stats = aggregate ((rows'.filter (on u)).map (u, ·))) :
    t.Tallies score counts ((groupBy (fun x => (x.1.userID, x.1.username)) aggregate
      ((join on t.users rows').filter fun x => x.1.isGuest = some false)).map .of) := by
  have hjoin : (join on t.users rows').filter (fun x => x.1.isGuest = some false) =
      join on (t.users.filter fun u => u.isGuest = some false) rows' :=
    filter_join (fun u : UserRecord => u.isGuest = some false) _
  rw [hjoin]
  have hsub := t.users.filter_sublist (p := fun u => u.isGuest = some false)
  have hids := hnodup.sublist (hsub.map (·.userID))
  have hkeys : ((t.users.filter fun u => u.isGuest = some false).map fun u =>
      (u.userID, u.username)).Nodup := by
    apply List.Nodup.of_map Prod.fst
    rwa [List.map_map]
  constructor
  · rw [List.map_map]
    have hfst : (·.userID) ∘ ValueRow.of = Prod.fst ∘ Prod.fst := rfl
    rw [hfst, ← List.map_map, map_fst_groupBy]
    apply List.Nodup.map_on _ (List.nodup_dedup _)
    intro k hk k' hk' heq
    obtain ⟨⟨u, s⟩, hu, rfl⟩ := List.mem_map.mp (List.mem_dedup.mp hk)
    obtain ⟨⟨u', s'⟩, hu', rfl⟩ := List.mem_map.mp (List.mem_dedup.mp hk')
    have hsame := List.inj_on_of_nodup_map hids (mem_join.mp hu).1 (mem_join.mp hu').1 heq
    dsimp only at hsame ⊢
    rw [hsame]
  · intro row
    rw [List.mem_map]
    constructor
    · rintro ⟨⟨k, value⟩, hgroup, rfl⟩
      obtain ⟨u, hu, hsome, rfl, rfl⟩ := (mem_groupBy_join hkeys).mp hgroup
      obtain ⟨hu, hguest⟩ := List.mem_filter.mp hu
      obtain ⟨stats, hfound, hname, hcounts, hscore⟩ := hstats u hu
      exact ⟨stats, ⟨⟨u, hu, rfl, of_decide_eq_true hguest⟩, hfound, hcounts.mpr hsome⟩,
        hname.symm, hscore.symm⟩
    · rintro ⟨stats, ⟨⟨u, hu, hid, hguest⟩, hfound, hcounted⟩, hname, hvalue⟩
      obtain ⟨stats', hfound', hname', hcounts, hscore⟩ := hstats u hu
      rw [← hid, hfound'] at hfound
      cases hfound
      refine ⟨((u.userID, u.username), score stats), ?_, ?_⟩
      · exact (mem_groupBy_join hkeys).mpr ⟨u, List.mem_filter.mpr ⟨hu, by simpa using hguest⟩,
          hcounts.mp hcounted, rfl, hscore⟩
      · rw [ValueRow.of, ← hname', ← hname, hid, ← hvalue]

theorem tallies_wins (hnodup : (t.users.map (·.userID)).Nodup) :
    t.Tallies (·.wins) (0 < ·.wins) t.wins := by
  apply tallies_groupBy hnodup
  intro u hu
  obtain ⟨stats, hfound, hname, hwins, -, -⟩ := getUserStats_of_mem hnodup hu
  rw [countWins_eq] at hwins
  refine ⟨stats, hfound, hname, ?_, ?_⟩
  · rw [hwins, Nat.cast_pos, List.length_pos_iff]
  · rw [hwins, List.length_map]

theorem tallies_totalBoxes (hnodup : (t.users.map (·.userID)).Nodup) :
    t.Tallies (·.totalBoxes) (0 < ·.gamesPlayed) t.totalBoxes := by
  apply tallies_groupBy hnodup
  intro u hu
  obtain ⟨stats, hfound, hname, -, hplayed, hboxes⟩ := getUserStats_of_mem hnodup hu
  rw [Tables.countGames, finishedSeats_tables] at hplayed hboxes
  refine ⟨stats, hfound, hname, ?_, ?_⟩
  · rw [hplayed, Nat.cast_pos, List.length_pos_iff]
    simp
  · simp only [hboxes, List.map_map, Function.comp_def]

theorem limit_bounds (param : String) :
    0 < StatsHandler.limit param ∧ StatsHandler.limit param ≤ 50 := by
  unfold StatsHandler.limit
  split_ifs
  · decide
  · cases atoi param.toList with
    | none => decide
    | some parsed =>
      dsimp only
      split_ifs with h
      · exact h
      · decide

theorem limit_of_atoi {param : String} {asked : ℤ} (hparam : atoi param.toList = some asked)
    (hpos : 0 < asked) (hle : asked ≤ 50) : StatsHandler.limit param = asked := by
  have hsome : param ≠ "" := by
    rintro rfl
    cases hparam
  rw [StatsHandler.limit, if_neg hsome, hparam]
  exact if_pos ⟨hpos, hle⟩

/-- The leaderboard of any request ranks the users by what their statistics say, as many of them
as the request asks for if it asks for 1 to 50. -/
theorem getLeaderboard_ranking (hnodup : (t.users.map (·.userID)).Nodup) (param : String)
    {wins boxes : ℤ → Except String ValueRows} (hwins : RanksByValue t.wins wins)
    (hboxes : RanksByValue t.totalBoxes boxes) :
    ∃ leaderboard, StatsHandler.getLeaderboard param wins boxes = .ok leaderboard ∧
      (0 < StatsHandler.limit param ∧ StatsHandler.limit param ≤ 50) ∧
      (∀ asked, atoi param.toList = some asked → 0 < asked → asked ≤ 50 →
        StatsHandler.limit param = asked) ∧
      t.Ranking (·.wins) (0 < ·.wins) (StatsHandler.limit param) leaderboard.mostWins ∧
      t.Ranking (·.totalBoxes) (0 < ·.gamesPlayed) (StatsHandler.limit param)
        leaderboard.mostBoxes := by
  obtain ⟨hpos, hle⟩ := limit_bounds param
  obtain ⟨winRows, hwinRows, htopWins⟩ := hwins (StatsHandler.limit param)
  obtain ⟨boxRows, hboxRows, htopBoxes⟩ := hboxes (StatsHandler.limit param)
  refine ⟨⟨ranked winRows, ranked boxRows⟩, ?_, ⟨hpos, hle⟩, ?_,
    (tallies_wins hnodup).ranking hpos.le htopWins,
    (tallies_totalBoxes hnodup).ranking hpos.le htopBoxes⟩
  · rw [StatsHandler.getLeaderboard, PgStatsRepository.getLeaderboard]
    simp only [if_neg hpos.not_ge, hwinRows, hboxRows, entries_ok]
    rfl
  · intro asked hparam hsome hmost
    exact limit_of_atoi hparam hsome hmost

/-- An answer that keeps the order of the tables as far as it may. -/
def topByValue (rows : List ValueRow) (limit : ℤ) : Except String ValueRows :=
  .ok ⟨((rows.insertionSort fun a b => b.value ≤ a.value).take limit.toNat).map .ok, none⟩

theorem ranksByValue_topByValue (rows : List ValueRow) : RanksByValue rows (topByValue rows) := by
  intro limit
  refine ⟨_, rfl, _, ⟨List.perm_insertionSort _ _, ?_⟩, rfl⟩
  have : Std.Total fun a b : ValueRow => b.value ≤ a.value := ⟨fun a b => le_total b.value a.value⟩
  have : IsTrans ValueRow fun a b => b.value ≤ a.value := ⟨fun _ _ _ hab hbc => hbc.trans hab⟩
  exact List.pairwise_insertionSort _ _

def threeDuels : WideTables where
  users := [⟨⟨7, "ann"⟩, some false⟩, ⟨⟨8, "bob"⟩, some false⟩, ⟨⟨9, "guest"⟩, some true⟩]
  games := [⟨⟨1, some 7, some 50⟩, 5, 10⟩, ⟨⟨2, some 8, some 40⟩, 5, 20⟩,
    ⟨⟨3, some 9, some 60⟩, 5, 30⟩, ⟨⟨4, none, none⟩, 5, 40⟩]
  gameDetails := [⟨⟨1, 7, 14⟩, 0⟩, ⟨⟨1, 8, 11⟩, 1⟩, ⟨⟨2, 8, 20⟩, 0⟩, ⟨⟨2, 9, 5⟩, 1⟩,
    ⟨⟨3, 9, 13⟩, 0⟩, ⟨⟨3, 7, 12⟩, 1⟩, ⟨⟨4, 7, 2⟩, 0⟩, ⟨⟨4, 8, 0⟩, 1⟩]

theorem getLeaderboard_ranking_duels : ∃ leaderboard,
    StatsHandler.getLeaderboard "1" (topByValue threeDuels.wins)
      (topByValue threeDuels.totalBoxes) = .ok leaderboard ∧
    leaderboard.mostBoxes = [⟨1, 8, "bob", 31⟩] ∧
    threeDuels.Ranking (·.totalBoxes) (0 < ·.gamesPlayed) 1 leaderboard.mostBoxes := by
  obtain ⟨leaderboard, hanswer, -, hasked, -, hboxes⟩ := getLeaderboard_ranking
    (show (threeDuels.users.map (·.userID)).Nodup by decide) "1"
    (ranksByValue_topByValue threeDuels.wins) (ranksByValue_topByValue threeDuels.totalBoxes)
  rw [hasked 1 (by decide) (by decide) (by decide)] at hboxes
  refine ⟨leaderboard, hanswer, ?_, hboxes⟩
  have hone : StatsHandler.getLeaderboard "1" (topByValue threeDuels.wins)
      (topByValue threeDuels.totalBoxes) =
        .ok ⟨[⟨1, 7, "ann", 1⟩], [⟨1, 8, "bob", 31⟩]⟩ := by decide
  rw [hone] at hanswer
  cases hanswer
  rfl

end WideTables

end DotsAndBoxes
