import DotsAndBoxes.Service.Calls
import DotsAndBoxes.Service.Script

/-! # Bot loops

Any number of bot loops sleep and wake while requests and the timer change the game. A loop
looks at the game again after its delay, while it holds the mutex. So what it plays is a legal
move of the bot to move, however the turn went during the delay, and the recorded events
replay to the game.
-/

namespace DotsAndBoxes

open Slices Enclosure Runs Game

variable {n : ℕ} {roster : List Player} {g g' : Game} {pos : BoardPosition n roster.length}
  {now : Time} {db : Database} {gameID : ℤ}

/-- What a bot loop may do when it wakes: nothing while no bot is to move, or a legal move of
the bot to move on a game that goes on. -/
inductive BotRound (now : Time) (g : Game) : Woken → Prop where
  | idle : g.botToMove = false → BotRound now g .idle
  | moved {player : Player} {userID : ℤ} {move : Move} {g' : Game} {result : MoveResult} :
      g.endedAt = none → g.getCurrentPlayer = some player → player.userID = some userID →
      userID < 0 → player.turnOrder = g.currentTurn → move.turnOrder = g.currentTurn →
      g.isEdgeAvailable move.row move.col move.edge = some true →
      g.applyMove now move = some (g', .ok result) → BotRound now g (.moved move g' result)

theorem Tracks.wake (h : Tracks roster n g pos) (hseat : Seated roster) (chance : Chance)
    (now : Time) : ∃ woken, g.wake chance now = some woken ∧ BotRound now g woken := by
  have hplayer := h.getCurrentPlayer
  have hseated : (seatView roster pos pos.turn).turnOrder = pos.turn.val := (hseat pos.turn).1
  by_cases hended : g.hasEnded = true
  · exact ⟨.idle, by rw [Game.wake, if_pos hended], .idle (by simp [botToMove, hended])⟩
  have hrun : pos.ended = false := by
    rw [← h.ended]
    exact Bool.eq_false_iff.mpr hended
  cases huser : (seatView roster pos pos.turn).userID with
  | none =>
    refine ⟨.idle, ?_, .idle (by simp [botToMove, hplayer, huser])⟩
    rw [Game.wake, if_neg hended, hplayer]
    simp [huser]
  | some userID =>
    by_cases hhuman : 0 ≤ userID
    · refine ⟨.idle, ?_, .idle (by simp [botToMove, hplayer, huser, hhuman])⟩
      rw [Game.wake, if_neg hended, hplayer]
      simp [huser, hhuman]
    obtain ⟨move, c, s, hchoose, hallowed, -⟩ := h.chosen hrun chance
    obtain ⟨g', result, -, -, hmove, -, -⟩ := h.applyMove hallowed now
    refine ⟨.moved move g' result, ?_, .moved ?_ hplayer huser (by omega) ?_ ?_ ?_ hmove⟩
    · rw [Game.wake, if_neg hended, hplayer]
      simp [huser, hhuman, hseated, hchoose, hmove]
    · simpa [hasEnded] using hended
    · rw [hseated, h.turn]
    · rw [hallowed.turn, h.turn]
    · rw [hallowed.row, hallowed.col, hallowed.edge, isEdgeAvailable_side h.toRepresents]
      simp [hallowed.free]

/-- A bot game in memory: a live game of the roster, whose events replay to it. -/
structure BotGame (roster : List Player) (n : ℕ) (g : Game) : Prop where
  live : ∃ pos, Live n roster g pos
  replays : g.Replays

theorem BotGame.execute (h : BotGame roster n g) {c : Command} {reply : Reply}
    (hc : g.execute c = some (g', reply)) : BotGame roster n g' := by
  obtain ⟨pos, hlive⟩ := h.live
  constructor
  · obtain ⟨g₁, outcome, pos', hstep, hlive'⟩ := hlive.step c
    rw [liveStep, hc] at hstep
    obtain ⟨rfl, -⟩ := Prod.mk.inj (Option.some.inj hstep)
    exact ⟨pos', hlive'⟩
  · obtain ⟨now, payloads, -, hraise⟩ := raises_of_execute hc
    exact h.replays.raiseAll hraise

theorem BotGame.shaped (h : BotGame roster n g) : Shaped roster n g := by
  obtain ⟨pos, hlive⟩ := h.live
  exact hlive.toRepresents.shaped

theorem BotGame.wake (h : BotGame roster n g) (hseat : Seated roster) (chance : Chance)
    (now : Time) : ∃ woken, g.wake chance now = some woken ∧ BotRound now g woken := by
  obtain ⟨pos, hlive⟩ := h.live
  exact hlive.toTracks.wake hseat chance now

theorem BotGame.botRound (h : BotGame roster n g) (hseat : Seated roster) {chance : Chance}
    {woken : Woken} (hwake : g.wake chance now = some woken) : BotRound now g woken := by
  obtain ⟨woken', hwake', hround⟩ := h.wake hseat chance now
  obtain rfl := Option.some.inj (hwake.symm.trans hwake')
  exact hround

theorem BotGame.round (h : BotGame roster n g) {woken : Woken} (hround : BotRound now g woken) :
    BotGame roster n (woken.game g) := by
  cases hround with
  | idle => exact h
  | @moved _ _ move g' _ _ _ _ _ _ _ _ hmove =>
    exact h.execute (c := .applyMove now move) (by rw [Game.execute, hmove]; rfl)

theorem botGame_newGame (hn : 0 < n) (hk : 0 < roster.length) {gameID : Option ℤ}
    (hnew : newGame now gameID n roster = some g) : BotGame roster n g :=
  ⟨⟨_, live_newGame hn hk hnew⟩, replays_newGame hnew⟩

namespace World

variable {w w' : World} {act : Act}

theorem perform_store_bot (hw : w.store = .bot g) (e : Effect) :
    (w.perform db gameID e).store = .bot g := by
  cases e <;> simp only [perform, hw]
  case publishIfOver => split <;> first | exact hw | rfl

theorem Step.bot (h : Step db gameID w act w') (hw : w.store = .bot g) :
    ∃ g', w'.store = .bot g' ∧ (g' = g ∨
      (∃ (i : ℕ) (task : Task) (todo : List Effect), act = .exclusive i ∧
        task.change true w.now g = some (.ok (g', todo))) ∨
      ∃ i chance woken, act = .wake i ∧ g.wake chance w.now = some woken ∧ g' = woken.game g) := by
  cases h with
  | elapse => exact ⟨g, hw, .inl rfl⟩
  | disconnect => exact ⟨g, hw, .inl rfl⟩
  | reconnect => exact ⟨g, hw, .inl rfl⟩
  | receive => exact ⟨g, hw, .inl rfl⟩
  | tick => exact ⟨g, hw, .inl rfl⟩
  | graceOver => exact ⟨g, hw, .inl rfl⟩
  | advance => exact ⟨g, hw, .inl rfl⟩
  | fail => exact ⟨g, hw, .inl rfl⟩
  | append _ hstore =>
    rw [hw] at hstore
    cases hstore
  | @exclusive i task g₁ g' todo hcall _ hstore hchange =>
    obtain rfl : g = g₁ := by simpa [hw] using hstore
    exact ⟨g', rfl, .inr (.inl ⟨i, task, todo, rfl, hchange⟩)⟩
  | effect => exact ⟨g, perform_store_bot hw _, .inl rfl⟩
  | kick => exact ⟨g, hw, .inl rfl⟩
  | @wake i task g₁ chance woken hcall hstore hwake =>
    obtain rfl : g = g₁ := by simpa [hw] using hstore
    exact ⟨_, rfl, .inr (.inr ⟨i, chance, woken, rfl, hwake, rfl⟩)⟩
  | publish => exact ⟨g, hw, .inl rfl⟩

theorem Step.botGame (h : Step db gameID w act w') (hseat : Seated roster)
    (hw : w.store = .bot g) (hg : BotGame roster n g) :
    ∃ g', w'.store = .bot g' ∧ BotGame roster n g' := by
  obtain ⟨g', hw', rfl | ⟨i, task, todo, -, hchange⟩ | ⟨i, chance, woken, -, hwake, rfl⟩⟩ := h.bot hw
  · exact ⟨g', hw', hg⟩
  · obtain ⟨c, reply, hc⟩ := (Task.change_eq_ok hchange).execute
    exact ⟨g', hw', hg.execute hc⟩
  · exact ⟨_, hw', hg.round (hg.botRound hseat hwake)⟩

def LoopsPlayFair (w : World) (act : Act) (w' : World) : Prop :=
  ∀ i, act = .wake i → ∃ g chance woken, w.store = .bot g ∧ g.wake chance w.now = some woken ∧
    w'.store = .bot (woken.game g) ∧ BotRound w.now g woken

theorem Step.loopsPlayFair (h : Step db gameID w act w') (hseat : Seated roster)
    (hw : w.store = .bot g) (hg : BotGame roster n g) : LoopsPlayFair w act w' := by
  rintro i rfl
  cases h with
  | @wake _ task g₁ chance woken hcall hstore hwake =>
    obtain rfl : g = g₁ := by simpa [hw] using hstore
    exact ⟨g, chance, woken, hw, hwake, rfl, hg.botRound hseat hwake⟩

end World

/-- From the creation of a bot game on, with any calls and bot loops under way: what a bot loop
plays is a legal move of the bot to move, on a game that goes on; whenever one wakes it finds
such a move or has nothing to do; and the recorded events replay to the live game. -/
theorem bot_loops_play_fair {s s' : Server} {shuffle : Shuffle} {usernames : ℤ → String}
    {playerIDs : List ℤ} {numBots boardSize : ℤ}
    (hcreate : s.createBotGame now shuffle usernames playerIDs numBots boardSize =
      some (s', .ok g)) {w : World} (hw : w.store = .bot g) {run : List (World.Act × World)}
    (hrun : Along (World.Step db gameID) w run) :
    Along World.LoopsPlayFair w run ∧ ∃ g', (last w run).store = .bot g' ∧
      (∀ chance now, ∃ woken, g'.wake chance now = some woken ∧ BotRound now g' woken) ∧
      loadFromEvents g'.uncommittedEvents = some g'.clearEvents := by
  obtain ⟨n, roster, hn, hk, hseat, hnew, -⟩ := createBotGame_seats hcreate
  have hg : BotGame roster n g := botGame_newGame hn (by omega) hnew
  have hstep (w : World) (act : World.Act) (w' : World)
      (hinv : ∃ g, w.store = .bot g ∧ BotGame roster n g) (h : World.Step db gameID w act w') :
      ∃ g, w'.store = .bot g ∧ BotGame roster n g := by
    obtain ⟨g, hw, hg⟩ := hinv
    exact h.botGame hseat hw hg
  constructor
  · refine (hrun.with_inv ⟨g, hw, hg⟩ hstep).imp ?_
    rintro w act w' ⟨h, g, hw, hg⟩
    exact h.loopsPlayFair hseat hw hg
  · obtain ⟨g', hw', hg'⟩ := hrun.inv_last ⟨g, hw, hg⟩ hstep
    exact ⟨g', hw', hg'.wake hseat, hg'.replays⟩

def botDuelRound : List World.Order :=
  [.receive 1 (.makeMove (some 7) 7 0 0 "top"), .go 1, .go 1, .go 1, .kick 1 2, .go 2, .go 2]

theorem bot_loops_play_fair_botDuel : ∃ run g,
    World.botDuelWorld.play .byInsertion 10000 .first 3 botDuelRound = some run ∧
    Along World.LoopsPlayFair World.botDuelWorld run ∧ (last World.botDuelWorld run).store = .bot g ∧
    loadFromEvents g.uncommittedEvents = some g.clearEvents := by
  have hsome : (World.play .byInsertion 10000 .first 3 World.botDuelWorld botDuelRound).isSome =
      true := by
    decide +kernel
  obtain ⟨run, hplay⟩ := Option.isSome_iff_exists.mp hsome
  have hcreate : (Server.boot 1 fun _ => []).createBotGame 0 .keep (fun _ => "") [7] 1 5 =
      some (_, .ok World.botDuelGame) := rfl
  obtain ⟨hfair, g, hg, -, hreplays⟩ := bot_loops_play_fair hcreate (w := World.botDuelWorld) rfl
    (World.along_play (World.numbered_botDuelWorld (by omega)) hplay)
  exact ⟨run, g, hplay, hfair, hg, hreplays⟩

end DotsAndBoxes
