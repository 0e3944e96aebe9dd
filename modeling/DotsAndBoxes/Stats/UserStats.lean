import DotsAndBoxes.Game.Winner
import DotsAndBoxes.Service.Projections

/-! # The statistics of a user

The statistics of a user are read from the rows of the games by three queries: one finds the
user, one counts the finished games that the user has a seat in, and one counts the finished
games that name the user as the winner. The games that were lost are not counted: they are the
games that were played but not won. So a game without a winner is lost by all of its players.
-/

namespace DotsAndBoxes

structure UserStats where
  userID : ℤ
  username : String
  gamesPlayed : ℤ
  wins : ℤ
  losses : ℤ
  winRate : Float
  totalBoxes : ℤ

namespace PgStatsRepository

/-- The statistics that are made of the answers to the queries. -/
def getUserStats (userID : ℤ) (user : Except String String) (played : Except String (ℤ × ℤ))
    (won : Except String ℤ) : Except String UserStats :=
  match user with
  | .error err => .error ("failed to find user " ++ toString userID ++ ": " ++ err)
  | .ok username =>
    match played with
    | .error err => .error ("failed to get game stats for user " ++ toString userID ++ ": " ++ err)
    | .ok (gamesPlayed, totalBoxes) =>
      match won with
      | .error err => .error ("failed to get win count for user " ++ toString userID ++ ": " ++ err)
      | .ok wins =>
        let winRate :=
          if gamesPlayed > 0 then Float.ofInt wins / Float.ofInt gamesPlayed * 100 else 0
        let losses := gamesPlayed - wins
        .ok { userID, username, gamesPlayed, wins, losses, winRate, totalBoxes }

end PgStatsRepository

structure UsersRow where
  userID : ℤ
  username : String

structure GamesRow where
  gameID : ℤ
  winnerID : Option ℤ
  endedAt : Option Time

structure GameDetailsRow where
  gameID : ℤ
  userID : ℤ
  score : ℤ

structure Tables where
  users : List UsersRow
  games : List GamesRow
  gameDetails : List GameDetailsRow

namespace Tables

def ofGames (users : List UsersRow) (games : List (ℤ × Game)) : Tables where
  users
  games := games.map fun (gameID, g) => ⟨gameID, g.projection.winnerID, g.projection.endedAt⟩
  gameDetails := games.flatMap fun (gameID, g) =>
    g.projection.details.map fun d => ⟨gameID, d.userID, d.score⟩

variable (t : Tables) (userID : ℤ)

def findUser : Except String String :=
  match t.users.find? (·.userID = userID) with
  | none => .error "no rows in result set"
  | some user => .ok user.username

/-- The seats of the user in finished games, joined with the games. -/
def finishedSeats : List (GameDetailsRow × GamesRow) :=
  (t.gameDetails.flatMap fun gd =>
    (t.games.filter (·.gameID = gd.gameID)).map fun g => (gd, g)).filter
      fun (gd, g) => gd.userID = userID ∧ g.endedAt.isSome

def countGames : ℤ × ℤ :=
  (((t.finishedSeats userID).map (·.2.gameID)).dedup.length,
    ((t.finishedSeats userID).map (·.1.score)).sum)

def countWins : ℤ := (t.games.filter fun g => g.winnerID = some userID ∧ g.endedAt.isSome).length

def getUserStats : Except String UserStats :=
  PgStatsRepository.getUserStats userID (t.findUser userID) (.ok (t.countGames userID))
    (.ok (t.countWins userID))

end Tables

inductive GameResult where
  | won
  | lost
  | drawn
  deriving DecidableEq, Repr

def GamesRow.resultFor (userID : ℤ) (g : GamesRow) : GameResult :=
  match g.winnerID with
  | none => .drawn
  | some winnerID => if winnerID = userID then .won else .lost

namespace Tables

def TakesPart (t : Tables) (userID : ℤ) (g : GamesRow) : Prop :=
  ∃ gd ∈ t.gameDetails, gd.gameID = g.gameID ∧ gd.userID = userID

instance (t : Tables) (userID : ℤ) (g : GamesRow) : Decidable (t.TakesPart userID g) :=
  inferInstanceAs (Decidable (∃ gd ∈ t.gameDetails, _))

def played (t : Tables) (userID : ℤ) : List GamesRow :=
  t.games.filter fun g => g.endedAt.isSome ∧ t.TakesPart userID g

def results (t : Tables) (userID : ℤ) : List GameResult :=
  (t.played userID).map (·.resultFor userID)

/-- Every game that was played is counted once, for what it was. -/
structure Agrees (t : Tables) (userID : ℤ) (stats : UserStats) : Prop where
  gamesPlayed : stats.gamesPlayed = (t.results userID).length
  wins : stats.wins = (t.results userID).count .won
  losses : stats.losses = (t.results userID).count .lost
  total : stats.wins + stats.losses + (t.results userID).count .drawn = stats.gamesPlayed

/-- No two games have one id, and who has won a finished game took part in it. -/
structure Consistent (t : Tables) : Prop where
  distinct : (t.games.map (·.gameID)).Nodup
  winner : ∀ g ∈ t.games, g.endedAt.isSome = true →
    ∀ winnerID, g.winnerID = some winnerID → t.TakesPart winnerID g

variable {t : Tables} {userID : ℤ} {username : String} {stats : UserStats}

theorem mem_played {g : GamesRow} :
    g ∈ t.played userID ↔ g ∈ t.games ∧ g.endedAt.isSome = true ∧ t.TakesPart userID g := by
  simp [played]

theorem mem_finishedSeats {gd : GameDetailsRow} {g : GamesRow} :
    (gd, g) ∈ t.finishedSeats userID ↔ gd ∈ t.gameDetails ∧ g ∈ t.games ∧
      g.gameID = gd.gameID ∧ gd.userID = userID ∧ g.endedAt.isSome = true := by
  simp [finishedSeats, and_assoc]

/-- The distinct ids that are counted are those of the games that were played. -/
theorem Consistent.countGames_eq (ht : t.Consistent) (userID : ℤ) :
    (t.countGames userID).1 = (t.played userID).length := by
  have hids : ∀ gameID, gameID ∈ ((t.finishedSeats userID).map (·.2.gameID)).dedup ↔
      gameID ∈ (t.played userID).map (·.gameID) := by
    intro gameID
    rw [List.mem_dedup, List.mem_map, List.mem_map]
    constructor
    · rintro ⟨⟨gd, g⟩, hseat, rfl⟩
      obtain ⟨hgd, hg, hid, huser, hended⟩ := mem_finishedSeats.mp hseat
      exact ⟨g, mem_played.mpr ⟨hg, hended, gd, hgd, hid.symm, huser⟩, rfl⟩
    · rintro ⟨g, hplayed, rfl⟩
      obtain ⟨hg, hended, gd, hgd, hid, huser⟩ := mem_played.mp hplayed
      exact ⟨(gd, g), mem_finishedSeats.mpr ⟨hgd, hg, hid.symm, huser, hended⟩, rfl⟩
  have hnodup : ((t.played userID).map (·.gameID)).Nodup :=
    ht.distinct.sublist (List.filter_sublist.map _)
  have hperm := (List.perm_ext_iff_of_nodup (List.nodup_dedup _) hnodup).mpr hids
  rw [countGames, hperm.length_eq, List.length_map]

theorem resultFor_eq_won_iff {g : GamesRow} :
    g.resultFor userID = .won ↔ g.winnerID = some userID := by
  unfold GamesRow.resultFor
  cases g.winnerID <;> simp

theorem resultFor_eq_drawn_iff {g : GamesRow} :
    g.resultFor userID = .drawn ↔ g.winnerID = none := by
  unfold GamesRow.resultFor
  cases g.winnerID with
  | none => simp
  | some winnerID =>
    by_cases h : winnerID = userID <;> simp [h]

/-- The finished games that name the user are those that the user took part in and won. -/
theorem Consistent.countWins_eq (ht : t.Consistent) (userID : ℤ) :
    t.countWins userID = (t.results userID).count .won := by
  rw [countWins, results, played, List.count_eq_countP, List.countP_map, List.countP_filter,
    ← List.countP_eq_length_filter, Nat.cast_inj]
  apply List.countP_congr
  intro g hg
  simp only [Function.comp_apply, Bool.and_eq_true, decide_eq_true_eq, beq_iff_eq,
    resultFor_eq_won_iff]
  constructor
  · rintro ⟨hwinner, hended⟩
    exact ⟨hwinner, hended, ht.winner g hg hended userID hwinner⟩
  · rintro ⟨hwinner, hended, -⟩
    exact ⟨hwinner, hended⟩

theorem length_eq_sum_count (results : List GameResult) :
    results.length = results.count .won + results.count .lost + results.count .drawn := by
  induction results with
  | nil => rfl
  | cons result results ih =>
    cases result <;> simp [ih] <;> omega

theorem Consistent.getUserStats_eq (ht : t.Consistent) (huser : t.findUser userID = .ok username) :
    ∃ stats, t.getUserStats userID = .ok stats ∧
      stats.gamesPlayed = (t.results userID).length ∧
      stats.wins = (t.results userID).count .won ∧
      stats.losses = stats.gamesPlayed - stats.wins := by
  rw [getUserStats, huser]
  refine ⟨_, rfl, ?_, ht.countWins_eq userID, rfl⟩
  rw [results, List.length_map]
  exact ht.countGames_eq userID

/-- The games that are not won are counted as lost, so the statistics are right exactly if none
of them was drawn. -/
theorem agrees_iff (hplayed : stats.gamesPlayed = (t.results userID).length)
    (hwins : stats.wins = (t.results userID).count .won)
    (hlosses : stats.losses = stats.gamesPlayed - stats.wins) :
    t.Agrees userID stats ↔ (t.results userID).count .drawn = 0 := by
  have hsum := length_eq_sum_count (t.results userID)
  constructor
  · intro h
    have hlost := h.losses
    omega
  · intro hnone
    refine ⟨hplayed, hwins, ?_, ?_⟩ <;> omega

theorem count_drawn_eq_zero_iff : (t.results userID).count .drawn = 0 ↔
    ∀ g ∈ t.games, g.endedAt.isSome = true → t.TakesPart userID g → g.winnerID ≠ none := by
  rw [List.count_eq_zero, results, List.mem_map]
  simp only [mem_played, resultFor_eq_drawn_iff, not_exists, not_and, and_imp, ne_eq]

/-- The statistics of a user say what has become of every game that the user has played, exactly
if the user took part in no finished game that has no winner. -/
theorem getUserStats_agrees_iff (ht : t.Consistent) (huser : t.findUser userID = .ok username) :
    ∃ stats, t.getUserStats userID = .ok stats ∧ (t.Agrees userID stats ↔
      ∀ g ∈ t.games, g.endedAt.isSome = true → t.TakesPart userID g → g.winnerID ≠ none) := by
  obtain ⟨stats, hstats, hplayed, hwins, hlosses⟩ := ht.getUserStats_eq huser
  refine ⟨stats, hstats, ?_⟩
  rw [agrees_iff hplayed hwins hlosses, count_drawn_eq_zero_iff]

def twoDuels : Tables where
  users := [⟨7, "ann"⟩, ⟨8, "bob"⟩]
  games := [⟨1, some 7, some 5⟩, ⟨2, none, none⟩]
  gameDetails := [⟨1, 7, 14⟩, ⟨1, 8, 11⟩, ⟨2, 8, 0⟩, ⟨2, 7, 3⟩]

theorem getUserStats_agrees_iff_duel :
    ∃ stats, twoDuels.getUserStats 7 = .ok stats ∧ twoDuels.Agrees 7 stats := by
  obtain ⟨stats, hstats, hagrees⟩ := getUserStats_agrees_iff
    (show twoDuels.Consistent from ⟨by decide, by decide⟩)
    (show twoDuels.findUser 7 = .ok "ann" by decide)
  exact ⟨stats, hstats, hagrees.mpr (by decide)⟩

theorem mem_gameDetails_ofGames {users : List UsersRow} {games : List (ℤ × Game)} {gameID : ℤ}
    {g : Game} (hg : (gameID, g) ∈ games) {p : Player} (hp : p ∈ g.players)
    (huser : p.userID = some userID) :
    ⟨gameID, userID, p.score⟩ ∈ (ofGames users games).gameDetails := by
  have hdetail : ⟨userID, p.turnOrder, p.score⟩ ∈ g.projection.details := by
    refine List.mem_filterMap.mpr ⟨p, hp, ?_⟩
    rw [Player.detail, huser, Option.map_some]
  exact List.mem_flatMap.mpr ⟨(gameID, g), hg, List.mem_map_of_mem hdetail⟩

theorem ofGames_consistent (users : List UsersRow) {games : List (ℤ × Game)}
    (hids : (games.map Prod.fst).Nodup)
    (hgames : ∀ game ∈ games, ∃ roster n, Reachable roster n game.2) :
    (ofGames users games).Consistent := by
  constructor
  · rw [ofGames, List.map_map]
    exact hids
  · intro row hrow _ winnerID hwinner
    obtain ⟨⟨gameID, g⟩, hg, rfl⟩ := List.mem_map.mp hrow
    obtain ⟨roster, n, hreach⟩ := hgames _ hg
    have hwinner : g.winnerID = some winnerID := hwinner
    rcases hreach.wonByPlayer with hnone | hin
    · rw [hwinner] at hnone
      cases hnone
    · obtain ⟨p, hp, hid⟩ := List.mem_map.mp hin
      rw [hwinner] at hid
      exact ⟨_, mem_gameDetails_ofGames hg hp hid, rfl, rfl⟩

end Tables

/-- The edges of a board: those above and to the left of its boxes, and then the others. -/
def edgesOf (n : ℕ) : List (ℤ × ℤ × EdgeType) :=
  ((List.range n).flatMap fun r => (List.range n).flatMap fun c =>
    [((r : ℤ), (c : ℤ), .top), ((r : ℤ), (c : ℤ), .left)]) ++
  ((List.range n).map fun c => ((n - 1 : ℤ), (c : ℤ), .bottom)) ++
  ((List.range n).map fun r => ((r : ℤ), (n - 1 : ℤ), .right))

/-- The edges are claimed in turn, each by the player who is to move. -/
def Game.claimAll (edges : List (ℤ × ℤ × EdgeType)) (g : Game) : Exec Game :=
  edges.foldlM (fun g (row, col, edge) =>
    (g.applyMove 1 ⟨g.currentTurn, row, col, edge⟩).map Prod.fst) g

theorem Reachable.claimAll {roster : List Player} {n : ℕ} {g g' : Game}
    {edges : List (ℤ × ℤ × EdgeType)} (hg : Reachable roster n g)
    (h : g.claimAll edges = some g') : Reachable roster n g' := by
  induction edges generalizing g with
  | nil => exact Option.some.inj h ▸ hg
  | cons e edges ih =>
    obtain ⟨g₁, hclaim, hrest⟩ := Option.bind_eq_some_iff.mp h
    obtain ⟨⟨g₂, result⟩, hmove, rfl⟩ := Option.map_eq_some_iff.mp hclaim
    obtain ⟨now, gameID, g₀, hnew, hsteps⟩ := hg
    exact ih ⟨now, gameID, g₀, hnew, hsteps.tail (.applyMove hmove)⟩ hrest

/-- A duel on the smallest even board, in which both players get eighteen boxes. -/
def drawnDuel : Game :=
  ((Game.newGame 0 (some 1) 6 duel).bind (Game.claimAll ((edgesOf 6).rotate 2))).getD {}

theorem reachable_drawnDuel : Reachable duel 6 drawnDuel := by
  obtain ⟨g, hg⟩ := Option.isSome_iff_exists.mp (show ((Game.newGame 0 (some 1) 6 duel).bind
    (Game.claimAll ((edgesOf 6).rotate 2))).isSome = true by decide +kernel)
  have hdrawn : drawnDuel = g := by rw [drawnDuel, hg, Option.getD_some]
  obtain ⟨g₀, hnew, hclaim⟩ := Option.bind_eq_some_iff.mp hg
  have hstart : Reachable duel 6 g₀ := ⟨0, some 1, g₀, hnew, .refl⟩
  exact hdrawn ▸ hstart.claimAll hclaim

def drawnTables : Tables := .ofGames [⟨7, "ann"⟩, ⟨8, "bob"⟩] [(1, drawnDuel)]

theorem drawnTables_consistent : drawnTables.Consistent :=
  Tables.ofGames_consistent _ (by simp) (by simpa using ⟨duel, 6, reachable_drawnDuel⟩)

/-- A draw is counted as lost. -/
theorem draw_is_counted_as_lost : Reachable duel 6 drawnDuel ∧
    drawnDuel.hasEnded = true ∧ drawnDuel.players.map (·.score) = [18, 18] ∧
    ∃ stats, drawnTables.getUserStats 7 = .ok stats ∧ stats.losses = 1 ∧
      ¬ drawnTables.Agrees 7 stats := by
  obtain ⟨stats, hstats, hplayed, hwins, hlosses⟩ :=
    drawnTables_consistent.getUserStats_eq (show drawnTables.findUser 7 = .ok "ann" by decide)
  have hresults : drawnTables.results 7 = [.drawn] := by decide +kernel
  have hagrees := Tables.agrees_iff hplayed hwins hlosses
  rw [hresults] at hplayed hwins hagrees
  refine ⟨reachable_drawnDuel, by decide +kernel, by decide +kernel, stats, hstats, ?_, ?_⟩
  · rw [hlosses, hplayed, hwins]
    rfl
  · rw [hagrees]
    decide

end DotsAndBoxes
