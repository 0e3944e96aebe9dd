import DotsAndBoxes.Game.Counting
import DotsAndBoxes.Service.BotLoops
import DotsAndBoxes.Service.Failures

/-! # Bot turns

`PlayBotTurn` moves for the bots until a human is to move or the game has ended. Its loop has no
counter. It ends because every move claims a free segment, and because a bot that is to move on
a game that goes on always finds one.
-/

namespace DotsAndBoxes

open Slices Enclosure

inductive BotTurnError where
  | notFound (gameID : ℤ)
  | noCurrentPlayer
  deriving DecidableEq, Repr

def BotTurnError.message : BotTurnError → String
  | .notFound gameID => s!"bot game {gameID} not found"
  | .noCurrentPlayer => "no current player found"

inductive Iteration where
  /-- The loop is left, and no move has been made. -/
  | left
  | failed (e : BotTurnError)
  /-- The bot has no move and gives up its turn. -/
  | noMove
  | moved (g : Game) (gameOver : Bool)

structure BotTurn where
  service : GameService
  /-- The game after each of the moves. -/
  moves : List Game
  /-- The number of iterations in which a bot had no move. -/
  givenUp : ℕ
  result : Except BotTurnError Unit

namespace GameService

/-- The bot game with the bot that is to move, or the way out of the loop. -/
def currentBot (gameID : ℤ) (s : GameService) : Except Iteration (Game × Player) :=
  match s.bots.botGames gameID with
  | none => .error (.failed (.notFound gameID))
  | some game =>
    if game.hasEnded then .error .left
    else match game.getCurrentPlayer with
    | none => .error (.failed .noCurrentPlayer)
    | some currentPlayer =>
      if currentPlayer.userID.all (· ≥ 0) then .error .left else .ok (game, currentPlayer)

def botIteration (chance : Chance) (now : Time) (gameID : ℤ) (s : GameService) :
    MayPanic (GameService × Iteration) :=
  match s.currentBot gameID with
  | .error way => .ok (s, way)
  | .ok _ =>
    -- the delay, without the mutex; then the game is looked up again
    match s.currentBot gameID with
    | .error way => .ok (s, way)
    | .ok (game, currentPlayer) => do
      match ← panicking (chooseBotMove chance game currentPlayer.turnOrder) with
      | none =>
        let currentTurn ← panicking game.nextTurn
        return ({ s with bots := s.bots.keep gameID { game with currentTurn } }, .noMove)
      | some move =>
        let (g, result) ← panicking (game.applyMove now move)
        let s := { s with bots := s.bots.keep gameID g }
        match result with
        | .error _ => return (s, .left)
        | .ok result => return (s.publish gameID (.state g), .moved g result.gameOver)

/-- The loop, with the random stream and the time of each iteration. It returns nothing when
it has not been left after the given number of iterations. -/
def playBotLoop (chance : ℕ → Chance) (now : ℕ → Time) (gameID : ℤ) :
    ℕ → ℕ → GameService → MayPanic (Option BotTurn)
  | 0, _, _ => .ok none
  | fuel + 1, k, s => do
    match ← s.botIteration (chance k) (now k) gameID with
    | (s, .left) => return some ⟨s, [], 0, .ok ()⟩
    | (s, .failed e) => return some ⟨s, [], 0, .error e⟩
    | (s, .noMove) =>
      let turn ← playBotLoop chance now gameID fuel (k + 1) s
      return turn.map fun turn => { turn with givenUp := turn.givenUp + 1 }
    | (s, .moved g gameOver) =>
      if gameOver then return some ⟨s, [g], 0, .ok ()⟩
      else
        let turn ← playBotLoop chance now gameID fuel (k + 1) s
        return turn.map fun turn => { turn with moves := g :: turn.moves }

def publishLast (gameID : ℤ) (s : GameService) : GameService :=
  match s.bots.botGames gameID with
  | none => s
  | some g =>
    let s := s.publish gameID (.state g)
    if g.hasEnded then s.publish gameID (.completed g.winnerID) else s

def playBotTurn (chance : ℕ → Chance) (now : ℕ → Time) (gameID : ℤ) (fuel : ℕ)
    (s : GameService) : MayPanic (Option BotTurn) := do
  match ← s.playBotLoop chance now gameID fuel 0 with
  | none => return none
  | some ⟨s, moves, givenUp, .error e⟩ => return some ⟨s, moves, givenUp, .error e⟩
  | some ⟨s, moves, givenUp, .ok ()⟩ => return some ⟨s.publishLast gameID, moves, givenUp, .ok ()⟩

end GameService

def Woken.iteration : Woken → Iteration
  | .idle => .left
  | .noCurrentPlayer => .failed .noCurrentPlayer
  | .noMove _ => .noMove
  | .failed _ => .left
  | .moved _ g result => .moved g result.gameOver

def Woken.published (gameID : ℤ) : Woken → List (ℤ × Announcement)
  | .moved _ g _ => [(gameID, .state g)]
  | _ => []

namespace GameService

variable {chance : Chance} {now : Time} {gameID : ℤ} {s : GameService} {g : Game}

theorem botIteration_of_wake {woken : Woken} (hgame : s.bots.botGames gameID = some g)
    (hwake : g.wake chance now = some woken) :
    s.botIteration chance now gameID = .ok ({ s with
      bots := s.bots.keep gameID (woken.game g)
      bus := s.bus ++ woken.published gameID }, woken.iteration) := by
  -- the iteration leaves the game as it is
  have hsame (way : Iteration) : (.ok (s, way) : MayPanic (GameService × Iteration)) =
      .ok ({ s with bots := s.bots.keep gameID g, bus := s.bus ++ [] }, way) := by
    rw [keep_same hgame, List.append_nil]
  unfold Game.wake at hwake
  split at hwake
  case isTrue hended =>
    obtain rfl := Option.some.inj hwake
    have hway : s.currentBot gameID = .error .left := by simp [currentBot, hgame, hended]
    rw [botIteration, hway]
    exact hsame .left
  case isFalse hrun =>
    split at hwake
    case h_1 hplayer =>
      obtain rfl := Option.some.inj hwake
      have hway : s.currentBot gameID = .error (.failed .noCurrentPlayer) := by
        simp [currentBot, hgame, hrun, hplayer]
      rw [botIteration, hway]
      exact hsame (.failed .noCurrentPlayer)
    case h_2 player hplayer =>
      split at hwake
      case isTrue hhuman =>
        obtain rfl := Option.some.inj hwake
        have hway : s.currentBot gameID = .error .left := by
          simp [currentBot, hgame, hrun, hplayer, hhuman]
        rw [botIteration, hway]
        exact hsame .left
      case isFalse hbot =>
        have hway : s.currentBot gameID = .ok (g, player) := by
          simp [currentBot, hgame, hrun, hplayer, hbot]
        rw [botIteration, hway]
        obtain ⟨choice, hchoose, hwake⟩ := Option.bind_eq_some_iff.mp hwake
        cases choice with
        | none =>
          obtain ⟨currentTurn, hnext, hwake⟩ := Option.bind_eq_some_iff.mp hwake
          obtain rfl := Option.some.inj hwake
          simp [hchoose, hnext, Woken.game, Woken.published, Woken.iteration]
        | some move =>
          obtain ⟨⟨g', result⟩, hmove, hwake⟩ := Option.bind_eq_some_iff.mp hwake
          cases result with
          | error e =>
            obtain rfl := Option.some.inj hwake
            obtain rfl : g' = g := Game.applyMove_eq_error hmove
            simp [hchoose, hmove, Woken.game, Woken.published, Woken.iteration]
          | ok result =>
            obtain rfl := Option.some.inj hwake
            simp [hchoose, hmove, publish, Woken.game, Woken.published, Woken.iteration]

end GameService

variable {n : ℕ} {roster : List Player} {g g' : Game} {pos : BoardPosition n roster.length}
  {gameID : ℤ}

def Game.unclaimed (g : Game) (n : ℕ) : Finset (Segment n) := Finset.univ \ g.claimed n

theorem Game.card_unclaimed_le (g : Game) (n : ℕ) : (g.unclaimed n).card ≤ 2 * n * (n + 1) := by
  rw [← card_segment n]
  exact Finset.card_le_univ _

theorem Tracks.unclaimed_of_accepted (h : Tracks roster n g pos) {now : Time} {move : Move}
    {result : MoveResult} (hmove : g.applyMove now move = some (g', .ok result)) :
    ∃ pos', Tracks roster n g' pos' ∧ (g'.unclaimed n).card + 1 = (g.unclaimed n).card := by
  obtain ⟨c, s, ha, h'⟩ := h.accepted hmove
  refine ⟨_, h', ?_⟩
  have hclaimed : g'.claimed n = insert (Segment.of c s) (g.claimed n) := by
    rw [h'.claimed_eq, h.claimed_eq]
    rfl
  have hfree : Segment.of c s ∉ g.claimed n := by
    rw [h.claimed_eq]
    exact ha.free
  rw [Game.unclaimed, Game.unclaimed, hclaimed, Finset.sdiff_insert, Finset.card_erase_add_one]
  exact Finset.mem_sdiff.mpr ⟨Finset.mem_univ _, hfree⟩

/-- The current seat is that of a human, or of a player without a user id. -/
def Game.HumanToMove (g : Game) : Prop :=
  ∃ player, g.getCurrentPlayer = some player ∧ player.userID.all (· ≥ 0) = true

theorem Tracks.of_not_botToMove (h : Tracks roster n g pos) (hbot : g.botToMove = false) :
    g.hasEnded = true ∨ g.HumanToMove := by
  have hplayer := h.getCurrentPlayer
  cases hended : g.hasEnded with
  | true => exact .inl rfl
  | false =>
    refine .inr ⟨_, hplayer, ?_⟩
    cases huser : (seatView roster pos pos.turn).userID with
    | none => rfl
    | some userID => simpa [Game.botToMove, hended, hplayer, huser] using hbot

/-- How a bot turn on the game ends: each iteration has made a move and left fewer free segments,
and then the game has ended or a human is to move. -/
structure BotTurn.Ends (n : ℕ) (gameID : ℤ) (g : Game) (turn : BotTurn) : Prop where
  result : turn.result = .ok ()
  found : turn.givenUp = 0
  decreasing : (g :: turn.moves).IsChain fun g g' =>
    (g'.unclaimed n).card < (g.unclaimed n).card
  length : turn.moves.length ≤ (g.unclaimed n).card
  game : turn.service.bots.botGames gameID = some (turn.moves.getLast?.getD g)
  quiet : (turn.moves.getLast?.getD g).hasEnded = true ∨ (turn.moves.getLast?.getD g).HumanToMove

theorem botGames_keep (b : BotService) (gameID : ℤ) (g : Game) :
    (b.keep gameID g).botGames gameID = some g := Function.update_self ..

theorem ends_of_quiet {turn : BotTurn} (hresult : turn.result = .ok ()) (hmoves : turn.moves = [])
    (hfound : turn.givenUp = 0) (hgame : turn.service.bots.botGames gameID = some g)
    (hquiet : g.hasEnded = true ∨ g.HumanToMove) : turn.Ends n gameID g where
  result := hresult
  found := hfound
  decreasing := by simp [hmoves]
  length := by simp [hmoves]
  game := by simpa [hmoves] using hgame
  quiet := by simpa [hmoves] using hquiet

theorem BotTurn.Ends.cons {turn : BotTurn} (h : turn.Ends n gameID g')
    (hfewer : (g'.unclaimed n).card + 1 = (g.unclaimed n).card) :
    BotTurn.Ends n gameID g { turn with moves := g' :: turn.moves } where
  result := h.result
  found := h.found
  decreasing := .cons_cons (by omega) h.decreasing
  length := by
    have := h.length
    simp only [List.length_cons]
    omega
  game := by simpa [List.getLast?_cons] using h.game
  quiet := by simpa [List.getLast?_cons] using h.quiet

theorem Tracks.exists_botTurn (h : Tracks roster n g pos) (hseat : Seated roster)
    (chance : ℕ → Chance) (now : ℕ → Time) (k : ℕ) {s : GameService}
    (hgame : s.bots.botGames gameID = some g) :
    ∃ turn, (∀ fuel, (g.unclaimed n).card < fuel →
      s.playBotLoop chance now gameID fuel k = .ok (some turn)) ∧ turn.Ends n gameID g := by
  induction hm : (g.unclaimed n).card using Nat.strong_induction_on generalizing k s g pos with
  | _ m ih =>
    obtain ⟨woken, hwake, hround⟩ := h.wake hseat (chance k) (now k)
    obtain ⟨s', hgame', hiteration⟩ : ∃ s', s'.bots.botGames gameID = some (woken.game g) ∧
        s.botIteration (chance k) (now k) gameID = .ok (s', woken.iteration) :=
      ⟨_, botGames_keep s.bots gameID _, s.botIteration_of_wake hgame hwake⟩
    cases hround with
    | idle hbot =>
      refine ⟨⟨s', [], 0, .ok ()⟩, ?_, ends_of_quiet rfl rfl rfl hgame' (h.of_not_botToMove hbot)⟩
      intro fuel hfuel
      obtain ⟨fuel, rfl⟩ := Nat.exists_eq_add_one_of_ne_zero (by omega : fuel ≠ 0)
      rw [GameService.playBotLoop, hiteration]
      rfl
    | @moved player userID move g' result hrun _ _ _ _ _ _ hmove =>
      obtain ⟨pos', h', hfewer⟩ := h.unclaimed_of_accepted hmove
      have hover : g'.hasEnded = result.gameOver := (h.toRepresents.shaped.applyMove hmove).2
      cases hgameOver : result.gameOver with
      | true =>
        have hquiet : BotTurn.Ends n gameID g' ⟨s', [], 0, .ok ()⟩ :=
          ends_of_quiet rfl rfl rfl hgame' (.inl (hover.trans hgameOver))
        refine ⟨_, ?_, hquiet.cons hfewer⟩
        intro fuel hfuel
        obtain ⟨fuel, rfl⟩ := Nat.exists_eq_add_one_of_ne_zero (by omega : fuel ≠ 0)
        rw [GameService.playBotLoop, hiteration]
        simp [Woken.iteration, hgameOver]
      | false =>
        obtain ⟨turn, hturn, hends⟩ := ih _ (by omega) h' (k + 1) hgame' rfl
        refine ⟨_, ?_, hends.cons hfewer⟩
        intro fuel hfuel
        obtain ⟨fuel, rfl⟩ := Nat.exists_eq_add_one_of_ne_zero (by omega : fuel ≠ 0)
        rw [GameService.playBotLoop, hiteration]
        simp [Woken.iteration, hgameOver, hturn fuel (by omega)]

theorem GameService.publishLast_bots (gameID : ℤ) (s : GameService) :
    (s.publishLast gameID).bots = s.bots := by
  unfold publishLast
  split
  · rfl
  · dsimp only
    split <;> rfl

/-- Undisturbed, `PlayBotTurn` comes to an end on every game that seated players can reach on any
board. In every iteration the bot has a move; it makes at most as many as there are free segments,
each of which leaves fewer of them, and when it returns the game has ended or a human is to
move. -/
theorem bot_turn_ends {players : List Player} (hn : 0 < n) (hk : 0 < players.length)
    (hg : Reachable (seated players) n g) {s : GameService}
    (hgame : s.bots.botGames gameID = some g) (chance : ℕ → Chance) (now : ℕ → Time) :
    ∃ turn, (∀ fuel, (g.unclaimed n).card < fuel →
      s.playBotTurn chance now gameID fuel = .ok (some turn)) ∧ turn.result = .ok () ∧
    turn.givenUp = 0 ∧ turn.moves.length ≤ (g.unclaimed n).card ∧ (g.unclaimed n).card ≤ 2 * n * (n + 1) ∧
    (g :: turn.moves).IsChain (fun g g' => (g'.unclaimed n).card < (g.unclaimed n).card) ∧
    ∃ g', turn.service.bots.botGames gameID = some g' ∧ g' = turn.moves.getLast?.getD g ∧
      (g'.hasEnded = true ∨ g'.HumanToMove) := by
  have hlength : 0 < (seated players).length := by simpa [seated] using hk
  obtain ⟨pos, h⟩ := hg.tracks hn hlength
  obtain ⟨⟨s', moves, givenUp, result⟩, hturn, hends⟩ :=
    h.exists_botTurn (seated_seated players) chance now 0 hgame
  obtain rfl : result = .ok () := hends.result
  refine ⟨⟨s'.publishLast gameID, moves, givenUp, .ok ()⟩, ?_, rfl, hends.found, hends.length,
    g.card_unclaimed_le n, hends.decreasing, _, ?_, rfl, hends.quiet⟩
  · intro fuel hfuel
    rw [GameService.playBotTurn, hturn fuel hfuel]
    rfl
  · rw [← hends.game, GameService.publishLast_bots]

def botsStart : Game :=
  (Game.newGame 0 (some 10000) (1 : ℕ) (seated [botPlayer 0, botPlayer 1])).getD {}

def GameService.ofBots : GameService where
  identity := 1
  events _ := []
  bots := BotService.keep { botGames := fun _ => none, nextID := 10001 } 10000 botsStart
  timers := { timers := fun _ => none }
  projections _ := none
  bus := []
  botLoops := []

/-- Two bots play to the end in one turn. -/
theorem bot_turn_ends_bots : ∃ turn,
    GameService.ofBots.playBotTurn (fun _ => .first) (fun k => k) 10000 5 = .ok (some turn) ∧
    turn.givenUp = 0 ∧ turn.moves.length ≤ 4 ∧ turn.result = .ok () := by
  have hnew : Game.newGame 0 (some 10000) (1 : ℕ) (seated [botPlayer 0, botPlayer 1]) =
      some botsStart := by decide
  have hreach : Reachable (seated [botPlayer 0, botPlayer 1]) 1 botsStart :=
    ⟨0, some 10000, botsStart, hnew, .refl⟩
  obtain ⟨turn, hturn, hresult, hfound, hlength, hfree, -⟩ :=
    bot_turn_ends (by decide) (by decide) hreach (s := GameService.ofBots) (botGames_keep _ _ _)
      (fun _ => .first) fun k => k
  exact ⟨turn, hturn 5 (by omega), hfound, by omega, hresult⟩

end DotsAndBoxes
