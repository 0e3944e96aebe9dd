import DotsAndBoxes.Bot.Choice
import DotsAndBoxes.Game.Counting
import DotsAndBoxes.Game.Scores
import DotsAndBoxes.Library.Runs
import DotsAndBoxes.Service.EventLog
import DotsAndBoxes.Service.Identity

/-! # The turn of a game and of its timer

A request that changes the turn switches the timer, and the switch resets the
deadline because the timer was in step before. The bot loop switches no timer, so
the two copies of the turn stay in step only as long as every bot move captures a
box and keeps the turn. A bot captures whenever it can, so this is a condition on
the board before the move.
-/

namespace DotsAndBoxes

open Slices Enclosure Runs Game Server

variable {n : ℕ} {roster : List Player} {g g' : Game} {pos : BoardPosition n roster.length}
  {db : Database} {s s' : Server} {gameID : ℤ} {now : Time}

/-- The server keeps the game under the id, in memory or by its stored events. -/
inductive Keeps (gameID : ℤ) (g : Game) (s : Server) : Prop where
  | bot : s.bots.botGames gameID = some g → Keeps gameID g s
  | stored : s.bots.botGames gameID = none → Stored gameID g (s.events gameID) → Keeps gameID g s

theorem Keeps.getGame (h : Keeps gameID g s) (hsize : g.boardSize ≠ 0) (db : Database) :
    ∃ h, s.getGame db gameID = some (.ok (some h)) ∧ SameView g h := by
  cases h with
  | bot hbot => exact ⟨g, by rw [Server.getGame, hbot], rfl⟩
  | stored hnone hstored =>
    obtain ⟨g₀, hfind, hr⟩ := hstored.exists_findByID hsize db
    exact ⟨g₀, by rw [Server.getGame, hnone]; exact hfind, hr.sameView⟩

theorem Keeps.save (h : Keeps gameID g s) (hsize : g.boardSize ≠ 0) {g₁ : Game}
    (hget : s.getGame db gameID = some (.ok (some g₁))) (hraises : g₁.Raises now g') :
    Keeps gameID g' (s.save db gameID g').1 := by
  cases h with
  | bot hbot =>
    have hisBot : s.bots.isBotGame gameID = true := by simp [BotService.isBotGame, hbot]
    rw [save_of_bot hisBot]
    exact .bot (by simp [BotService.keep])
  | stored hnone hstored =>
    have hnotBot : s.bots.isBotGame gameID = false := by simp [BotService.isBotGame, hnone]
    obtain ⟨g₀, hfind, hr⟩ := hstored.exists_findByID hsize db
    rw [Server.getGame, hnone] at hget
    obtain rfl : g₀ = g₁ := by simpa using hfind.symm.trans hget
    obtain ⟨payloads, hcreated, hraise⟩ := hraises
    obtain ⟨hevents, -, -⟩ := raiseAll_records hcreated hraise
    rw [hr.clean, List.nil_append] at hevents
    rw [save_of_stored hnotBot, hevents]
    exact .stored hnone (by simpa using (hstored.sameView hr.sameView).append db _ hcreated hraise)

theorem Keeps.timers (h : Keeps gameID g s) (t : GameTimerService) :
    Keeps gameID g { s with timers := t } := by
  cases h with
  | bot hbot => exact .bot hbot
  | stored hnone hstored => exact .stored hnone hstored

def Follows (t : GameTimerService) (gameID turn : ℤ) : Prop :=
  ∀ timer, t.timers gameID = some timer → timer.stopped = false ∧ timer.activeTurn = turn

/-- The turn of the timer ends a full turn limit after the time. -/
def FullTurn (t : GameTimerService) (gameID : ℤ) (now : Time) : Prop :=
  ∀ timer, t.timers gameID = some timer → timer.turnEndsAt = now + turnTimeLimit

/-- A timer that had the previous turn gets the next one, and a full turn if they differ. -/
theorem follows_afterResult {t t' : GameTimerService} {previousTurn : ℤ} {result : MoveResult}
    (hid : g'.gameID = some gameID) (hf : Follows t gameID previousTurn)
    (h : t.afterResult now previousTurn g' result = some t') :
    Follows t' gameID result.nextTurn ∧
      (result.nextTurn ≠ previousTurn → FullTurn t' gameID now) := by
  rw [GameTimerService.afterResult, hid] at h
  obtain rfl := Option.some.inj h
  by_cases hover : result.gameOver = true
  · rw [if_pos hover]
    simp [Follows, FullTurn]
  rw [if_neg hover]
  by_cases hturn : result.nextTurn = previousTurn
  · rw [if_neg (not_not.mpr hturn), hturn]
    exact ⟨hf, fun hne => absurd rfl hne⟩
  · rw [if_pos hturn]
    constructor
    · intro timer htimer
      rw [GameTimerService.timers_switchTurn] at htimer
      obtain ⟨before, hbefore, rfl⟩ := Option.map_eq_some_iff.mp htimer
      obtain ⟨hrun, -⟩ := hf before hbefore
      exact ⟨by simpa using hrun, GameTimer.switchTurn_activeTurn hrun⟩
    · intro _ timer htimer
      rw [GameTimerService.timers_switchTurn] at htimer
      obtain ⟨before, hbefore, rfl⟩ := Option.map_eq_some_iff.mp htimer
      obtain ⟨hrun, hactive⟩ := hf before hbefore
      exact GameTimer.switchTurn_turnEndsAt hrun (by rw [hactive]; exact Ne.symm hturn)

theorem endIfOver_nextTurn {boxes : List Box} {result : MoveResult}
    (h : g.endIfOver now boxes = some (g', result)) : result.nextTurn = g'.currentTurn := by
  obtain ⟨hturn, hafter⟩ := endIfOver_eq_some h
  rw [hturn]
  rcases hafter with ⟨rfl, -⟩ | ⟨hraise, -⟩
  · rfl
  · obtain rfl := Option.some.inj hraise
    rfl

theorem applyMove_nextTurn {move : Move} {result : MoveResult}
    (h : g.applyMove now move = some (g', .ok result)) : result.nextTurn = g'.currentTurn := by
  obtain ⟨g₁, boxes, g₂, g₃, -, -, -, -, -, hended⟩ := applyMove_eq_ok h
  exact endIfOver_nextTurn hended

theorem passTurnOnTimeout_nextTurn {result : MoveResult}
    (h : g.passTurnOnTimeout now = some (g', .ok result)) :
    result.nextTurn = g'.currentTurn := by
  obtain ⟨-, g₁, -, hended⟩ := passTurnOnTimeout_eq_ok h
  exact endIfOver_nextTurn hended

theorem Tracks.played {t t' : GameTimerService} (h : Tracks roster n g pos)
    (hid : g.gameID = some gameID) (hf : pos.ended = false → Follows t gameID g.currentTurn)
    (hp : Played now t g g' t') : ∃ pos', Tracks roster n g' pos' ∧
      (pos'.ended = false → Follows t' gameID g'.currentTurn ∧
        (g'.currentTurn ≠ g.currentTurn → FullTurn t' gameID now)) := by
  have hid' : g'.gameID = some gameID := hp.raises.gameID.trans hid
  cases hp with
  | @move _ move result hmove hafter =>
    rcases h.applyMove_cases hmove with ⟨_, _, _, _, ha, -, hperf⟩ | ⟨-, err, herr⟩
    · have hfollows := follows_afterResult hid' (hf ha.running) hafter
      rw [applyMove_nextTurn hmove] at hfollows
      exact ⟨_, hperf.tracks, fun _ => hfollows⟩
    · cases herr
  | @pass _ result hpass hafter =>
    rcases h.passTurnOnTimeout_cases hpass with ⟨_, hrun, -, hperf⟩ | ⟨-, -, herr⟩
    · have hfollows := follows_afterResult hid' (hf hrun) hafter
      rw [passTurnOnTimeout_nextTurn hpass] at hfollows
      exact ⟨_, hperf.tracks, fun _ => hfollows⟩
    · cases herr
  | @forfeit playerID id hforfeit hgid =>
    obtain ⟨g₁, _, heq, hperf⟩ := h.forfeit playerID now
    obtain rfl := Option.some.inj (heq.symm.trans hforfeit)
    exact ⟨_, hperf.tracks, fun hrun => by simp [Position.apply] at hrun⟩

theorem Tracks.getCurrentPlayer (h : Tracks roster n g pos) :
    g.getCurrentPlayer = some (seatView roster pos pos.turn) := by
  have hlt := pos.turn.isLt
  rw [Game.getCurrentPlayer, h.turn, h.length, if_neg (by omega)]
  exact h.player pos.turn

/-- While the game goes on, a bot of the current seat chooses a move that the rules allow, and that
captures as many boxes as any. -/
theorem Tracks.chosen (h : Tracks roster n g pos) (hrun : pos.ended = false) (chance : Chance) :
    ∃ (move : Move) (c : Cell n) (t : Side),
      chooseBotMove chance g pos.turn.val = some (some move) ∧ Allowed pos move c t ∧
      ∀ seg ∉ pos.claimed, ((rules n roster.length).captures pos seg).card ≤
        ((rules n roster.length).captures pos (Segment.of c t)).card := by
  obtain ⟨choice, hchoose, hnone, hlegal⟩ :=
    chooseBotMove_spec h.toRepresents chance pos.turn.val
  cases choice with
  | none =>
    obtain ⟨seg, hfree⟩ := h.exists_free hrun
    exact absurd (hnone rfl seg) hfree
  | some move =>
    obtain ⟨hturn, c, t, hnames, hfree, hmost⟩ := hlegal move rfl
    exact ⟨move, c, t, hchoose, ⟨hnames, hturn, hfree, hrun⟩, hmost⟩

/-- A bot that is to move plays a legal move. It keeps the turn when some box has three edges,
and else the turn passes and play goes on. -/
theorem Tracks.botPlayed {chance : Chance} (h : Tracks roster n g pos) (hseat : Seated roster)
    (hbot : g.botToMove = true) (hp : BotPlayed chance now g g') :
    pos.ended = false ∧ ∃ pos', Tracks roster n g' pos' ∧
      (g.hasThreeEdgeBox = true → g'.currentTurn = g.currentTurn) ∧
      (g.hasThreeEdgeBox = false →
        pos'.ended = false ∧ g'.currentTurn = (nextSeat pos.turn).val) := by
  have hrun : pos.ended = false := by
    rw [Game.botToMove, Game.hasEnded, h.ended] at hbot
    cases hended : pos.ended with
    | false => rfl
    | true => simp [hended] at hbot
  refine ⟨hrun, ?_⟩
  have hturnOrder {player : Player} (hplayer : g.getCurrentPlayer = some player) :
      player.turnOrder = pos.turn.val := by
    obtain rfl := Option.some.inj (hplayer.symm.trans h.getCurrentPlayer)
    exact (hseat pos.turn).1
  obtain ⟨move, c, t, hchosen, hallowed, hmost⟩ := h.chosen hrun chance
  cases hp with
  | noMove hplayer hchoose =>
    rw [hturnOrder hplayer, hchosen] at hchoose
    cases hchoose
  | @move _ player m result hplayer hchoose hmove =>
    rw [hturnOrder hplayer, hchosen] at hchoose
    cases hchoose
    have hfree := hallowed.free
    obtain ⟨g₁, r₁, _, _, heq, heffect, hperf⟩ := h.applyMove hallowed now
    obtain ⟨rfl, -⟩ := Prod.mk.inj (Option.some.inj (heq.symm.trans hmove))
    have htracks := hperf.tracks
    rw [heffect] at htracks
    refine ⟨_, htracks, fun hthree => ?_, fun hthree => ?_⟩
    · obtain ⟨seg, hseg, hcap⟩ := (hasThreeEdgeBox_iff h.toRepresents h.sound).mp hthree
      have hpos := (Finset.card_pos.mpr (Finset.nonempty_iff_ne_empty.mpr hcap)).trans_le
        (hmost seg hseg)
      have hne : (rules n roster.length).captures pos (Segment.of c t) ≠ ∅ :=
        Finset.nonempty_iff_ne_empty.mp (Finset.card_pos.mp hpos)
      rw [htracks.turn, h.turn, Rules.play, if_neg hne]
    · have hnone : (rules n roster.length).captures pos (Segment.of c t) = ∅ := by
        by_contra hne
        have hsome := (hasThreeEdgeBox_iff h.toRepresents h.sound).mpr ⟨_, hfree, hne⟩
        rw [hthree] at hsome
        cases hsome
      constructor
      · rw [Bool.eq_false_iff, Ne, Rules.ended_play_iff]
        intro hall
        have howned : allOwned pos = true := by
          rw [allOwned, decide_eq_true_iff]
          intro d
          simpa [Rules.play, hnone] using hall d
        rw [h.playable hrun] at howned
        cases howned
      · rw [htracks.turn, Rules.play, if_pos hnone]
        rfl

/-- A complete step of a game: a request, or a move of a bot inside the bot loop. -/
inductive GameStep where
  | request (q : Request)
  | botMove (now : Time) (chance : Chance)

def GameStep.time : GameStep → Time
  | .request q => q.now
  | .botMove now _ => now

def GameStep.Takes (db : Database) (gameID : ℤ) (s : Server) : GameStep → Server → Prop
  | .request q, s' => ∃ r, s.request db gameID q = some (s', r)
  | .botMove now chance, s' => s.playBotTurn chance now gameID = some s'

/-- The game has just been created under the id and its timer has been started. The id is that
of no other game. -/
inductive Started (db : Database) (gameID : ℤ) : Server → Prop where
  | persisted {s s' : Server} {now : Time} {shuffle : Shuffle} {usernames : ℤ → String}
      {playerIDs : List ℤ} {boardSize : ℤ} {g : Game} (now' : Time) :
      s.createGame db now shuffle usernames playerIDs boardSize = some (s', .ok g) →
      g.gameID = some gameID → s.bots.isBotGame gameID = false →
      s.timers.timers gameID = none → Started db gameID (s'.startTimer now' (.persisted g))
  | bot {s s' : Server} {now : Time} {shuffle : Shuffle} {usernames : ℤ → String}
      {playerIDs : List ℤ} {numBots boardSize : ℤ} {g : Game} (now' : Time) :
      s.createBotGame now shuffle usernames playerIDs numBots boardSize = some (s', .ok g) →
      g.gameID = some gameID → s.timers.timers gameID = none →
      Started db gameID (s'.startTimer now' (.bot gameID))

/-- While the game has not ended and its timer is registered, both have the same turn. -/
def ActiveTurnKept (db : Database) (gameID : ℤ) (s : Server) : Prop :=
  ∀ g timer, s.getGame db gameID = some (.ok (some g)) → g.endedAt = none →
    s.timers.timers gameID = some timer → timer.activeTurn = g.currentTurn

/-- If the step changed the turn of a game that goes on, its timer gives the new turn the full
limit from then on. -/
def TurnGetsLimit (db : Database) (gameID : ℤ) (s : Server) (step : GameStep) (s' : Server) :
    Prop :=
  ∀ g g' timer, s.getGame db gameID = some (.ok (some g)) →
    s'.getGame db gameID = some (.ok (some g')) → g'.currentTurn ≠ g.currentTurn →
    g'.endedAt = none → s'.timers.timers gameID = some timer →
    timer.turnEndsAt = step.time + turnTimeLimit

/-- A bot that moves while the timer of its game is registered finds a box with three edges. -/
def BotFindsBox (gameID : ℤ) (s : Server) : GameStep → Server → Prop
  | .request _, _ => True
  | .botMove _ _, _ => ∀ g, s.bots.botGames gameID = some g → g.botToMove = true →
      s.timers.timers gameID ≠ none → g.hasThreeEdgeBox = true

/-- The server keeps a game of the roster in step with its timer. -/
structure InPlay (gameID : ℤ) (n : ℕ) (roster : List Player) (s : Server) (g : Game)
    (pos : BoardPosition n roster.length) : Prop where
  keeps : Keeps gameID g s
  tracks : Tracks roster n g pos
  sameID : g.gameID = some gameID
  follows : pos.ended = false → Follows s.timers gameID g.currentTurn

theorem InPlay.getGame (h : InPlay gameID n roster s g pos) (hn : 0 < n) (db : Database) :
    ∃ g₁, s.getGame db gameID = some (.ok (some g₁)) ∧ SameView g g₁ :=
  h.keeps.getGame (by rw [h.tracks.boardSize]; exact_mod_cast hn.ne') db

theorem InPlay.loaded (h : InPlay gameID n roster s g pos) (hn : 0 < n) {g₁ : Game}
    (hget : s.getGame db gameID = some (.ok (some g₁))) :
    g₁.currentTurn = g.currentTurn ∧ g₁.endedAt.isSome = pos.ended := by
  obtain ⟨g₂, hget₂, hsame⟩ := h.getGame hn db
  obtain rfl : g₂ = g₁ := by simpa using hget₂.symm.trans hget
  have hended : g.endedAt.isSome = g₂.endedAt.isSome := congrArg View.ended hsame
  exact ⟨(congrArg View.currentTurn hsame).symm, hended.symm.trans h.tracks.ended⟩

theorem InPlay.activeTurnKept (h : InPlay gameID n roster s g pos) (hn : 0 < n) :
    ActiveTurnKept db gameID s := by
  intro g₁ timer hget hrun htimer
  obtain ⟨hturn, hended⟩ := h.loaded hn hget
  rw [hrun] at hended
  exact (h.follows hended.symm timer htimer).2.trans hturn.symm

/-- A step after which the game has the turn it had, or a timer with a full turn, is fair. -/
theorem InPlay.turnGetsLimit (h : InPlay gameID n roster s g pos) (hn : 0 < n) {step : GameStep}
    {pos' : BoardPosition n roster.length} (h' : InPlay gameID n roster s' g' pos')
    (hfull : pos'.ended = false → g'.currentTurn ≠ g.currentTurn →
      FullTurn s'.timers gameID step.time) : TurnGetsLimit db gameID s step s' := by
  intro g₁ g₂ timer hget hget' hne hrun htimer
  obtain ⟨hturn, -⟩ := h.loaded hn hget
  obtain ⟨hturn', hended⟩ := h'.loaded hn hget'
  rw [hrun] at hended
  rw [hturn, hturn'] at hne
  exact hfull hended.symm hne timer htimer

/-- A request leaves the game in step with its timer, and every turn gets its limit. -/
theorem InPlay.request (h : InPlay gameID n roster s g pos) (hn : 0 < n) {q : Request}
    {r : Except ServiceError Game} (hq : s.request db gameID q = some (s', r)) :
    (∃ g' pos', InPlay gameID n roster s' g' pos') ∧
      TurnGetsLimit db gameID s (.request q) s' := by
  rcases request_eq_some hq with ⟨rfl, -⟩ | ⟨g₁, g', timers, hget, hplayed, rfl, -⟩
  · exact ⟨⟨g, pos, h⟩, h.turnGetsLimit hn h fun _ hne => absurd rfl hne⟩
  · obtain ⟨g₂, hget₂, hsame⟩ := h.getGame hn db
    obtain rfl : g₂ = g₁ := by simpa using hget₂.symm.trans hget
    have hturn : g.currentTurn = g₂.currentTurn := congrArg View.currentTurn hsame
    have hid : g₂.gameID = some gameID := (congrArg View.gameID hsame).symm.trans h.sameID
    obtain ⟨pos', htracks, hfollows⟩ := (h.tracks.sameView hsame).played hid
      (fun hrun => hturn ▸ h.follows hrun) hplayed
    have hsize : g.boardSize ≠ 0 := by rw [h.tracks.boardSize]; exact_mod_cast hn.ne'
    have h' : InPlay gameID n roster _ g' pos' :=
      ⟨(h.keeps.save hsize hget hplayed.raises).timers timers, htracks,
        hplayed.raises.gameID.trans hid, fun hrun => (hfollows hrun).1⟩
    exact ⟨⟨g', pos', h'⟩, h.turnGetsLimit hn h' fun hrun hne =>
      (hfollows hrun).2 (hturn ▸ hne)⟩

/-- A bot that keeps the turn, or moves without a timer, leaves the game in step. -/
theorem InPlay.kept (h : InPlay gameID n roster s g pos) (hn : 0 < n) {chance : Chance}
    {pos' : BoardPosition n roster.length} (hid : g'.gameID = some gameID)
    (htracks : Tracks roster n g' pos') (hrun : pos.ended = false)
    (hkeep : g'.currentTurn = g.currentTurn ∨ s.timers.timers gameID = none) :
    (∃ g₁ pos₁, InPlay gameID n roster { s with bots := s.bots.keep gameID g' } g₁ pos₁) ∧
      TurnGetsLimit db gameID s (.botMove now chance)
        { s with bots := s.bots.keep gameID g' } := by
  have hkeeps : Keeps gameID g' { s with bots := s.bots.keep gameID g' } :=
    .bot (by simp [BotService.keep])
  have hfollows : Follows s.timers gameID g'.currentTurn := by
    intro timer htimer
    rcases hkeep with hturn | hnone
    · rw [hturn]
      exact h.follows hrun timer htimer
    · simp [hnone] at htimer
  have h' : InPlay gameID n roster { s with bots := s.bots.keep gameID g' } g' pos' :=
    ⟨hkeeps, htracks, hid, fun _ => hfollows⟩
  refine ⟨⟨g', pos', h'⟩, h.turnGetsLimit hn h' fun _ hne timer htimer => ?_⟩
  rcases hkeep with hturn | hnone
  · exact absurd hturn hne
  · simp [hnone] at htimer

/-- A bot move is fair to the timer exactly when the bot finds a box with three edges. -/
theorem InPlay.botMove (h : InPlay gameID n roster s g pos) (hn : 0 < n)
    (hk : 2 ≤ roster.length) (hseat : Seated roster) {chance : Chance}
    (hbot : s.playBotTurn chance now gameID = some s') :
    (BotFindsBox gameID s (.botMove now chance) s' →
      (∃ g' pos', InPlay gameID n roster s' g' pos') ∧
        TurnGetsLimit db gameID s (.botMove now chance) s') ∧
    (ActiveTurnKept db gameID s' → BotFindsBox gameID s (.botMove now chance) s') := by
  rcases playBotTurn_eq_some hbot with ⟨rfl, hidle⟩ | ⟨g₁, g', hgame, htoMove, hplayed, rfl⟩
  · constructor
    · intro _
      exact ⟨⟨g, pos, h⟩, h.turnGetsLimit hn h fun _ hne => absurd rfl hne⟩
    · intro _ g₁ hg₁ htoMove
      rw [hidle g₁ hg₁] at htoMove
      cases htoMove
  · obtain rfl : g₁ = g := by
      rcases h.keeps with hbot' | hnone
      · exact Option.some.inj (hgame.symm.trans hbot')
      · simp [hgame] at hnone
    obtain ⟨hrun, pos', htracks, hkeep, hpass⟩ := h.tracks.botPlayed hseat htoMove hplayed
    have hid : g'.gameID = some gameID := hplayed.sameID.trans h.sameID
    constructor
    · intro hfinds
      apply h.kept hn hid htracks hrun
      by_cases hnone : s.timers.timers gameID = none
      · exact .inr hnone
      · exact .inl (hkeep (hfinds g₁ hgame htoMove hnone))
    · intro hactive g₂ hg₂ _ hsome
      obtain rfl := Option.some.inj (hgame.symm.trans hg₂)
      by_contra hthree
      obtain ⟨hrun', hnext⟩ := hpass (Bool.eq_false_of_not_eq_true hthree)
      obtain ⟨timer, htimer⟩ := Option.ne_none_iff_exists'.mp hsome
      have hrunning : g'.endedAt = none := by
        rw [← Option.not_isSome_iff_eq_none, htracks.ended, hrun']
        simp
      have hnew := hactive g' timer (by simp [Server.getGame, BotService.keep]) hrunning htimer
      rw [(h.follows hrun timer htimer).2, hnext, h.tracks.turn] at hnew
      exact nextSeat_ne hk pos.turn (Fin.ext (by exact_mod_cast hnew.symm))

/-- The timer stays in step over a step for which a bot finds its box, and only then. -/
theorem InPlay.step (h : InPlay gameID n roster s g pos) (hn : 0 < n) (hk : 2 ≤ roster.length)
    (hseat : Seated roster) {step : GameStep} (htakes : step.Takes db gameID s s') :
    (BotFindsBox gameID s step s' →
      (∃ g' pos', InPlay gameID n roster s' g' pos') ∧ TurnGetsLimit db gameID s step s') ∧
    (ActiveTurnKept db gameID s' → BotFindsBox gameID s step s') := by
  cases step with
  | request q =>
    obtain ⟨r, hq⟩ := htakes
    exact ⟨fun _ => h.request hn hq, fun _ => trivial⟩
  | botMove now chance => exact h.botMove hn hk hseat htakes

theorem seated_seated (players : List Player) : Seated (seated players) := by
  intro t
  rw [List.get_eq_getElem]
  simp [seated]

theorem length_seated_shuffle (shuffle : Shuffle) (players : List Player) :
    (seated (shuffle.shuffle players)).length = players.length := by
  simp [seated, (shuffle.perm players).length_eq]

/-- A persisted game is created with at least two seats, and takes the next id. -/
theorem createGame_seats {shuffle : Shuffle} {usernames : ℤ → String} {playerIDs : List ℤ}
    {boardSize : ℤ}
    (hcreate : s.createGame db now shuffle usernames playerIDs boardSize = some (s', .ok g)) :
    ∃ (n : ℕ) (roster : List Player) (g₀ : Game) (rows : List EventRow), 0 < n ∧
      2 ≤ roster.length ∧ Seated roster ∧ newGame now (some 0) n roster = some g₀ ∧
      db.create s.identity g₀ = .ok (g, rows) ∧ s' = { s with
        identity := s.identity + 1
        events := Function.update s.events s.identity rows } := by
  obtain ⟨g₀, rows, hsize, hplayers, hnew, hrows, rfl⟩ := createGame_eq_ok hcreate
  obtain ⟨n, rfl⟩ := Int.eq_ofNat_of_zero_le (by omega : 0 ≤ boardSize)
  have hlength := length_seated_shuffle shuffle (playerIDs.map (humanPlayer usernames))
  rw [List.length_map] at hlength
  exact ⟨n, _, g₀, rows, by omega, by omega, seated_seated _, hnew, hrows, rfl⟩

theorem createBotGame_seats {shuffle : Shuffle} {usernames : ℤ → String} {playerIDs : List ℤ}
    {numBots boardSize : ℤ}
    (hcreate : s.createBotGame now shuffle usernames playerIDs numBots boardSize =
      some (s', .ok g)) :
    ∃ (n : ℕ) (roster : List Player), 0 < n ∧ 2 ≤ roster.length ∧ Seated roster ∧
      newGame now (some s.bots.nextID) n roster = some g ∧
      s' = { s with bots := { s.bots.keep s.bots.nextID g with nextID := s.bots.nextID + 1 } } := by
  obtain ⟨hsize, hplayers, hnew, rfl⟩ := createBotGame_eq_ok hcreate
  obtain ⟨n, rfl⟩ := Int.eq_ofNat_of_zero_le (by omega : 0 ≤ boardSize)
  set players := playerIDs.map (humanPlayer usernames) ++ (List.range numBots.toNat).map botPlayer
  have hlength := length_seated_shuffle shuffle players
  have hcount : 2 ≤ players.length := by
    simp only [players, List.length_append, List.length_map, List.length_range]
    omega
  exact ⟨n, _, by omega, by omega, seated_seated _, hnew, rfl⟩

theorem follows_startTimer {t : GameTimerService} (h : t.timers gameID = none)
    (players : List Player) (turn : ℤ) :
    Follows (t.startTimer now gameID players turn) gameID turn := by
  intro timer htimer
  rw [GameTimerService.startTimer_of_none h] at htimer
  simp only [Function.update_self, Option.some.injEq] at htimer
  subst htimer
  exact ⟨rfl, rfl⟩

theorem Started.inPlay (h : Started db gameID s) : ∃ (n : ℕ) (roster : List Player) (g : Game)
    (pos : BoardPosition n roster.length),
    0 < n ∧ 2 ≤ roster.length ∧ Seated roster ∧ InPlay gameID n roster s g pos := by
  cases h with
  | @persisted s s' now shuffle usernames playerIDs boardSize g now' hcreate hid hbot htimer =>
    obtain ⟨n, roster, g₀, rows, hn, hk, hseat, hnew, hrows, rfl⟩ := createGame_seats hcreate
    obtain rfl := Option.some.inj ((create_gameID hrows).symm.trans hid)
    have htracks := tracks_newGame hn (by omega : 0 < roster.length) hnew
    have hstored := stored_createdRows db hnew s.identity
    obtain ⟨-, rfl, rfl⟩ := Database.create_eq_ok hrows
    rw [Process.startTimer_eq (c := .persisted _) rfl hid]
    refine ⟨n, roster, _, emptyBoard n (by omega), hn, hk, hseat,
      .stored (by simpa [BotService.isBotGame] using hbot) ?_, ?_, hid, fun _ => ?_⟩
    · simpa using hstored
    · exact ⟨⟨htracks.boardSize, htracks.turn, htracks.ended, htracks.box, htracks.length,
        htracks.player⟩, htracks.sound, htracks.playable⟩
    · exact follows_startTimer htimer _ _
  | @bot s s' now shuffle usernames playerIDs numBots boardSize g now' hcreate hid htimer =>
    obtain ⟨n, roster, hn, hk, hseat, hnew, rfl⟩ := createBotGame_seats hcreate
    obtain rfl := Option.some.inj ((newGame_gameID hnew).symm.trans hid)
    have hkept : (s.bots.keep s.bots.nextID g).botGames s.bots.nextID = some g := by
      simp [BotService.keep]
    rw [Process.startTimer_eq (c := .bot s.bots.nextID) (by exact hkept) hid]
    exact ⟨n, roster, g, _, hn, hk, hseat, .bot hkept, tracks_newGame hn (by omega) hnew, hid,
      fun _ => follows_startTimer htimer _ _⟩

/-- Between the steps of a game its timer has the turn of the game, and a step that changes the
turn gives the new one the full limit, exactly when every bot that moves while the timer is
registered finds a box with three edges. -/
theorem turns_kept_iff_bots_find_boxes (h : Started db gameID s) {run : List (GameStep × Server)}
    (hrun : Along (GameStep.Takes db gameID) s run) :
    (ActiveTurnKept db gameID s ∧ Along (fun s step s' =>
      ActiveTurnKept db gameID s' ∧ TurnGetsLimit db gameID s step s') s run) ↔
    Along (BotFindsBox gameID) s run := by
  obtain ⟨n, roster, g, pos, hn, hk, hseat, hplay⟩ := h.inPlay
  rw [and_iff_right (hplay.activeTurnKept hn)]
  refine along_good_iff (fun s => ∃ g pos, InPlay gameID n roster s g pos) hrun ⟨g, pos, hplay⟩ ?_ ?_
  · rintro s step s' ⟨g, pos, hplay⟩ htakes
    obtain ⟨hkept, hactive⟩ := hplay.step hn hk hseat htakes
    constructor
    · exact fun hboth => hactive hboth.1
    · intro hbox
      obtain ⟨⟨g', pos', hplay'⟩, hlimit⟩ := hkept hbox
      exact ⟨hplay'.activeTurnKept hn, hlimit⟩
  · rintro s step s' ⟨g, pos, hplay⟩ htakes hbox
    exact ((hplay.step hn hk hseat htakes).1 hbox).1

/-- A stream of luck that leaves the candidates in their order and picks the first. -/
def Chance.first : Chance where
  shuffle moves := moves
  softmaxPick moves := moves.headD ⟨0, 0, 0, .top⟩
  perm _ := .refl _
  mem moves hne := by
    cases moves with
    | nil => exact absurd rfl hne
    | cons m moves => exact List.mem_cons_self

/-- A bot game of a human against one bot, created on an empty server. -/
def botDuel : Server :=
  ((((Server.boot 1 fun _ => []).createBotGame 0 .keep (fun _ => "") [7] 1 5).map
    Prod.fst).getD (.boot 1 fun _ => [])).startTimer 0 (.bot 10000)

theorem started_botDuel (db : Database) : Started db 10000 botDuel := by
  have hcreate : (Server.boot 1 fun _ => []).createBotGame 0 .keep (fun _ => "") [7] 1 5 =
      some (_, .ok _) := rfl
  exact .bot 0 hcreate rfl rfl

def botDuelOpening : Server :=
  ((botDuel.request .byInsertion 10000 (.makeMove 1 7 0 0 "top")).map Prod.fst).getD botDuel

theorem takes_botDuelOpening : (GameStep.request (.makeMove 1 7 0 0 "top")).Takes .byInsertion 10000
    botDuel botDuelOpening := by
  have hsome : (botDuel.request .byInsertion 10000 (.makeMove 1 7 0 0 "top")).isSome = true := by
    decide +kernel
  obtain ⟨⟨s, r⟩, h⟩ := Option.isSome_iff_exists.mp hsome
  refine ⟨r, ?_⟩
  rw [botDuelOpening, h]
  rfl

theorem turns_kept_iff_bots_find_boxes_botDuel :
    ActiveTurnKept .byInsertion 10000 botDuelOpening ∧
      TurnGetsLimit .byInsertion 10000 botDuel (.request (.makeMove 1 7 0 0 "top"))
        botDuelOpening := by
  have hrun : Along (GameStep.Takes .byInsertion 10000) botDuel
      [(.request (.makeMove 1 7 0 0 "top"), botDuelOpening)] := ⟨takes_botDuelOpening, trivial⟩
  exact ((turns_kept_iff_bots_find_boxes (started_botDuel _) hrun).mpr ⟨trivial, trivial⟩).2.1

/-- The bot's answer passes the turn back to the human. The timer is left with the turn and the
deadline of the bot. -/
theorem bot_move_leaves_timer_behind : Started .byInsertion 10000 botDuel ∧
    ∃ s g timer, Along (GameStep.Takes .byInsertion 10000) botDuel
      [(.request (.makeMove 1 7 0 0 "top"), botDuelOpening),
        (.botMove 900000001 .first, s)] ∧
      s.getGame .byInsertion 10000 = some (.ok (some g)) ∧ g.endedAt = none ∧
      g.currentTurn = 0 ∧ s.timers.timers 10000 = some timer ∧
      timer.activeTurn = 1 ∧ timer.turnEndsAt = 1 + turnTimeLimit ∧
      ¬ ActiveTurnKept .byInsertion 10000 s := by
  refine ⟨started_botDuel _, ?_⟩
  have hsome : ((botDuelOpening.playBotTurn .first 900000001 10000).map fun s =>
      ((s.bots.botGames 10000).map fun g => (g.endedAt, g.currentTurn),
        (s.timers.timers 10000).map fun t => (t.activeTurn, t.turnEndsAt))) =
      some (some (none, 0), some (1, 1 + turnTimeLimit)) := by
    decide +kernel
  obtain ⟨s, hplayed, hs⟩ := Option.map_eq_some_iff.mp hsome
  obtain ⟨hgame, htimer⟩ := Prod.mk.inj hs
  obtain ⟨g, hg, hgame⟩ := Option.map_eq_some_iff.mp hgame
  obtain ⟨timer, ht, htimer⟩ := Option.map_eq_some_iff.mp htimer
  obtain ⟨hended, hturn⟩ := Prod.mk.inj hgame
  obtain ⟨hactive, hends⟩ := Prod.mk.inj htimer
  have hget : s.getGame .byInsertion 10000 = some (.ok (some g)) := by rw [Server.getGame, hg]
  refine ⟨s, g, timer, ⟨takes_botDuelOpening, hplayed, trivial⟩, hget, hended, hturn, ht, hactive,
    hends, fun hkept => ?_⟩
  have heq := hkept g timer hget hended ht
  rw [hactive, hturn] at heq
  cases heq

end DotsAndBoxes
