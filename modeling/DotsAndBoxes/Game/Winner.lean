import DotsAndBoxes.Game.Shape
import DotsAndBoxes.Library.Leaders

/-! # The winner

A game that ends with its last box is won by the player who alone has the best score, and by
nobody when the best score is shared. A forfeit is won by the first of the best among the other
players. The result of the command, the event that ends the game, the game and its replay name
the same winner.
-/

namespace DotsAndBoxes

open Slices Leaders Game

variable {n : ℕ} {roster players : List Player} {g g' : Game} {now : Time} {result : MoveResult}
  {f : ℤ}

/-- Every player has an id, and no score is below zero. -/
def Contenders (players : List Player) : Prop :=
  ∀ p ∈ players, p.userID.isSome = true ∧ 0 ≤ p.score

instance (players : List Player) : Decidable (Contenders players) :=
  inferInstanceAs (Decidable (∀ _ ∈ _, _))

/-- What a game that is played to its end names as the winner. -/
structure Decides (players : List Player) (winnerID : Option ℤ) : Prop where
  ahead : ∀ i : Fin players.length,
    (∀ j, j ≠ i → (players.get j).score < (players.get i).score) →
      winnerID = (players.get i).userID
  shared : winnerID = none ↔ ∃ i j : Fin players.length, i ≠ j ∧
    (players.get j).score = (players.get i).score ∧
    ∀ k, (players.get k).score ≤ (players.get i).score

/-- The seats of players other than one, whose score is at least that of every other player
except that one. -/
def bestBesides (f : ℤ) (players : List Player) : Set (Fin players.length) :=
  {i | (players.get i).userID ≠ some f ∧
    ∀ j, (players.get j).userID ≠ some f → (players.get j).score ≤ (players.get i).score}

structure Succeeds (f : ℤ) (players : List Player) (winnerID : Option ℤ) : Prop where
  best : (∃ i, IsLeast (bestBesides f players) i ∧ winnerID = (players.get i).userID) ∨
    (∀ p ∈ players, p.userID = some f) ∧ winnerID = none
  other : winnerID ≠ some f

/-- The last event of the game is the given one, and the game and its replay name the winner. -/
structure Announces (g : Game) (payload : Payload) (winnerID : Option ℤ) : Prop where
  last : g.uncommittedEvents.getLast?.map (fun e => (e.type, e.payload)) =
    some (payload.type, payload)
  winner : g.winnerID = winnerID
  replayed : (loadFromEvents g.uncommittedEvents).map (·.winnerID) = some winnerID

theorem leader_eq : leader = keepLeader (·.score) := rfl

theorem forfeitLeader_eq (f : ℤ) :
    forfeitLeader f = bestSoFar (fun p => p.userID = some f) (·.score) (·.userID) := rfl

theorem determineWinner_eq (hsome : g.players ≠ []) :
    ∃ i : Fin g.players.length, (∀ k, (g.players.get k).score ≤ (g.players.get i).score) ∧
      ((∃ j, j ≠ i ∧ (g.players.get j).score = (g.players.get i).score) ∧
          g.determineWinner = none ∨
        (∀ j, j ≠ i → (g.players.get j).score ≠ (g.players.get i).score) ∧
          g.determineWinner = (g.players.get i).userID) := by
  unfold determineWinner
  generalize g.players = players at hsome ⊢
  cases players with
  | nil => exact absurd rfl hsome
  | cons first rest =>
    obtain ⟨i, tie, hleast, hfold, htie⟩ := exists_keepLeader (·.score) first rest
    refine ⟨i, fun k => hleast.1.2 k id, ?_⟩
    simp only [leader_eq, hfold]
    cases tie with
    | true => exact .inl ⟨htie.mp rfl, rfl⟩
    | false =>
      refine .inr ⟨fun j hne heq => ?_, rfl⟩
      exact absurd (htie.mpr ⟨j, hne, heq⟩) (by simp)

theorem decides_determineWinner (hnamed : ∀ p ∈ g.players, p.userID.isSome = true)
    (hsome : g.players ≠ []) : Decides g.players g.determineWinner := by
  obtain ⟨i, hbest, ⟨⟨j, hne, heq⟩, hnone⟩ | ⟨halone, hwinner⟩⟩ := determineWinner_eq hsome
  · refine ⟨fun k hk => ?_, iff_of_true hnone ⟨i, j, hne.symm, heq, hbest⟩⟩
    by_cases hki : k = i
    · subst hki
      exact absurd heq (hk j hne).ne
    · exact absurd (hk i (Ne.symm hki)) (not_lt.mpr (hbest k))
  · refine ⟨fun k hk => ?_, iff_of_false ?_ ?_⟩
    · by_cases hki : k = i
      · rw [hwinner, hki]
      · exact absurd (hk i (Ne.symm hki)) (not_lt.mpr (hbest k))
    · rw [hwinner]
      exact Option.isSome_iff_ne_none.mp (hnamed _ (List.get_mem _ i))
    · rintro ⟨a, b, hab, heq, htop⟩
      have hscore : (g.players.get a).score = (g.players.get i).score :=
        le_antisymm (hbest a) (htop i)
      have ha : a = i := by_contra fun hne => halone a hne hscore
      subst ha
      exact halone b hab.symm heq

theorem succeeds_forfeitLeader (f : ℤ) (hplayers : Contenders players) :
    Succeeds f players (players.foldl (forfeitLeader f) (-1, none)).2 := by
  rw [forfeitLeader_eq]
  have hlow : ∀ p ∈ players, (-1, (none : Option ℤ)).1 < p.score := by
    intro p hp
    have hscore := (hplayers p hp).2
    simp only
    omega
  rcases exists_bestSoFar (fun p : Player => p.userID = some f) (·.score) (·.userID) hlow with
    ⟨hall, hnone⟩ | ⟨i, hleast, hwinner⟩
  · exact ⟨.inr ⟨hall, hnone⟩, by rw [hnone]; simp⟩
  · exact ⟨.inl ⟨i, hleast, hwinner⟩, by rw [hwinner]; exact hleast.1.1⟩

/-- A payload other than the creation leaves the players, or scores a box for one of them. -/
theorem Game.Applied.players_cases {t : Time} {p : Payload} (h : Applied t g p g')
    (hcreated : ∀ c, p ≠ .gameCreated c) : g'.players = g.players ∨
      ∃ i, modify? g.players i (fun q => { q with score := q.score + 1 }) = some g'.players := by
  cases h with
  | gameCreated => exact absurd rfl (hcreated _)
  | boxCompleted _ hplayers => exact .inr ⟨_, hplayers⟩
  | _ => exact .inl rfl

theorem Game.Raises.contenders (hraises : Raises now g g') (hg : Contenders g.players) :
    Contenders g'.players := by
  obtain ⟨payloads, hcreated, hraise⟩ := hraises
  refine raiseAll_induction (P := fun g => Contenders g.players) hg ?_ hraise
  intro p hp g₁ g₂ hg₁ hfirst
  obtain ⟨g₃, happlied, rfl⟩ := applied_of_raise hfirst
  rcases happlied.players_cases fun c hc => hcreated c (hc ▸ hp) with heq | ⟨i, hmodify⟩
  · exact heq ▸ hg₁
  · intro q hq
    obtain ⟨q', hq', rfl | rfl⟩ := mem_of_modify? hmodify hq
    · exact hg₁ q hq'
    · obtain ⟨hnamed, hscore⟩ := hg₁ q' hq'
      exact ⟨hnamed, by simp only; omega⟩

theorem Game.Raises.players_eq_nil_iff (hraises : Raises now g g') :
    g'.players = [] ↔ g.players = [] := by
  obtain ⟨payloads, hcreated, hraise⟩ := hraises
  have hlen : g'.players.length = g.players.length := by
    refine raiseAll_frame (v := fun g => g.players.length) (fun _ _ => rfl) ?_ hraise
    intro p hp g₁ g₂ happlied
    rcases happlied.players_cases fun c hc => hcreated c (hc ▸ hp) with heq | ⟨i, hmodify⟩
    · rw [heq]
    · exact length_of_modify? hmodify
  rw [← List.length_eq_zero_iff, hlen, List.length_eq_zero_iff]

theorem Step.raises (h : Step g g') : ∃ now, Raises now g g' := by
  cases h with
  | applyMove h => exact ⟨_, raises_of_applyMove h⟩
  | passTurnOnTimeout h => exact ⟨_, raises_of_passTurnOnTimeout h⟩
  | forfeit h => exact ⟨_, raises_of_forfeit h⟩

theorem Game.Raises.replays (hraises : Raises now g g') (hg : g.Replays) : g'.Replays := by
  obtain ⟨_, -, hraise⟩ := hraises
  exact hg.raiseAll hraise

theorem Reachable.contenders (hroster : Contenders roster) (hg : Reachable roster n g) :
    Contenders g.players ∧ g.Replays := by
  obtain ⟨now, gameID, g₀, hnew, hsteps⟩ := hg
  induction hsteps with
  | refl =>
    refine ⟨?_, replays_newGame hnew⟩
    rw [newGame_eq] at hnew
    obtain ⟨grid, -, rfl⟩ := Option.map_eq_some_iff.mp hnew
    exact hroster
  | tail _ hstep ih =>
    obtain ⟨now, hraises⟩ := hstep.raises
    exact ⟨hraises.contenders ih.1, hraises.replays ih.2⟩

/-- Raising a terminal event is the last thing a command does, so everyone sees its winner. -/
theorem announces_of_raise {p : Payload} {winnerID : Option ℤ}
    (hp : p = .gameEnded ⟨winnerID⟩ ∨ p = .gameForfeited ⟨f, winnerID⟩)
    (hg : g.Replays) (hraise : g.raise now p.type p = some g') :
    Announces g' p winnerID ∧ g'.players = g.players := by
  have hreplays : loadFromEvents g'.uncommittedEvents = some g'.clearEvents := hg.raise hraise
  obtain ⟨g₁, happlied, rfl⟩ := applied_of_raise hraise
  have hsame : g₁.winnerID = winnerID ∧ g₁.players = g.players := by
    rcases hp with rfl | rfl <;> cases happlied <;> exact ⟨rfl, rfl⟩
  refine ⟨⟨by simp [recordEvent, eventOf], hsame.1, ?_⟩, hsame.2⟩
  rw [hreplays]
  exact congrArg some hsame.1

/-- What a command that ends a game by its last box announces. -/
structure EndsWith (g' : Game) (result : MoveResult) : Prop where
  gameOver : result.gameOver = true
  decides : Decides g'.players result.winnerID
  announces : Announces g' (.gameEnded ⟨result.winnerID⟩) result.winnerID

theorem endsWith_of_endIfOver {boxes : List Box} (hg : g.Replays)
    (hnamed : ∀ p ∈ g.players, p.userID.isSome = true) (hsome : g.players ≠ [])
    (hrun : g.hasEnded = false) (h : g.endIfOver now boxes = some (g', result))
    (hend : g'.hasEnded = true) : EndsWith g' result := by
  obtain ⟨complete, -, h⟩ := Option.bind_eq_some_iff.mp h
  cases complete with
  | false =>
    obtain ⟨rfl, -⟩ := Prod.mk.inj (Option.some.inj h)
    rw [hrun] at hend
    cases hend
  | true =>
    rw [if_pos rfl] at h
    obtain ⟨g₁, hraise, h⟩ := Option.bind_eq_some_iff.mp h
    obtain ⟨rfl, rfl⟩ := Prod.mk.inj (Option.some.inj h)
    obtain ⟨hannounces, hplayers⟩ := announces_of_raise (f := 0) (.inl rfl) hg hraise
    exact ⟨rfl, hplayers ▸ decides_determineWinner hnamed hsome, hannounces⟩

theorem passTurn_frame (h : g.passTurn now = some g') :
    g.players ≠ [] ∧ g'.hasEnded = g.hasEnded := by
  obtain ⟨next, hnext, hraise⟩ := Option.bind_eq_some_iff.mp h
  constructor
  · rintro hnil
    simp [Game.nextTurn, hnil] at hnext
  · rw [raise_hasEnded (p := .turnPassed ⟨next⟩) hraise]
    exact Bool.or_false _

theorem players_ne_nil_of_boxCompleted {p : BoxCompletedPayload}
    (h : g.raise now .boxCompleted (.boxCompleted p) = some g') : g.players ≠ [] := by
  obtain ⟨g₁, happlied, -⟩ := applied_of_raise (p := .boxCompleted p) h
  cases happlied with
  | boxCompleted _ hplayers =>
    intro hnil
    simp [hnil, modify?] at hplayers

/-- Before an accepted move looks for the end, the game goes on, and it has players. -/
theorem exists_endIfOver {move : Move} (h : g.applyMove now move = some (g', .ok result)) :
    ∃ g₃ boxes, Raises now g g₃ ∧ g₃.players ≠ [] ∧ g₃.hasEnded = false ∧
      g₃.endIfOver now boxes = some (g', result) := by
  obtain ⟨g₁, boxes, g₂, g₃, hvalid, hmoved, -, hcompleted, hpassed, hended⟩ := applyMove_eq_ok h
  have h₁ : Raises now g g₁ := raises_of_raise (.moveApplied _) (by simp) hmoved
  have hrun₁ : g₁.hasEnded = false := by
    rw [raise_hasEnded (p := .moveApplied _) hmoved, (validateMove_eq_ok hvalid).2.2.2]
    rfl
  rw [raiseCompleted_eq] at hcompleted
  have h₂ : Raises now g₁ g₂ := ⟨_, by simp, hcompleted⟩
  have hrun₂ : g₂.hasEnded = false := by
    rw [raiseAll_hasEnded hcompleted, hrun₁, List.any_map]
    simp [Payload.terminal]
  cases boxes with
  | nil =>
    have hpass : g₂.passTurn now = some g₃ := hpassed
    obtain ⟨hsome, hrun₃⟩ := passTurn_frame hpass
    have h₃ := raises_of_passTurn hpass
    exact ⟨g₃, [], (h₁.trans h₂).trans h₃, mt h₃.players_eq_nil_iff.mp hsome,
      hrun₃.trans hrun₂, hended⟩
  | cons box boxes =>
    obtain rfl : g₂ = g₃ := Option.some.inj hpassed
    obtain ⟨g₄, hfirst, -⟩ := Option.bind_eq_some_iff.mp hcompleted
    have hsome := players_ne_nil_of_boxCompleted hfirst
    exact ⟨g₂, _, h₁.trans h₂, mt h₂.players_eq_nil_iff.mp hsome, hrun₂, hended⟩

/-- In every run, a game that ends with its last box is won by the player with the best score,
if no other shares it; a forfeit is won by the first of the best of the others; and the winner
is the same in the result, in the last event, in the game and in its replay. -/
theorem winner_has_best_score (hroster : Contenders roster) (hg : Reachable roster n g) :
    (∀ now move g' result, g.applyMove now move = some (g', .ok result) → g'.hasEnded = true →
      EndsWith g' result) ∧
    (∀ now g' result, g.passTurnOnTimeout now = some (g', .ok result) → g'.hasEnded = true →
      EndsWith g' result) ∧
    (∀ now f g', g.forfeit now f = some g' → Succeeds f g'.players g'.winnerID ∧
      Announces g' (.gameForfeited ⟨f, g'.winnerID⟩) g'.winnerID) := by
  obtain ⟨hplayers, hreplays⟩ := hg.contenders hroster
  refine ⟨fun now move g' result h hend => ?_, fun now g' result h hend => ?_,
    fun now f g' h => ?_⟩
  · obtain ⟨g₃, boxes, hraises, hsome, hrun, hended⟩ := exists_endIfOver h
    exact endsWith_of_endIfOver (hraises.replays hreplays)
      (fun p hp => (hraises.contenders hplayers p hp).1) hsome hrun hended hend
  · obtain ⟨hrun, g₁, hpassed, hended⟩ := passTurnOnTimeout_eq_ok h
    have hraises := raises_of_passTurn hpassed
    obtain ⟨hsome, hsame⟩ := passTurn_frame hpassed
    exact endsWith_of_endIfOver (hraises.replays hreplays)
      (fun p hp => (hraises.contenders hplayers p hp).1) (mt hraises.players_eq_nil_iff.mp hsome)
      (hsame.trans hrun) hended hend
  · obtain ⟨hannounces, hsame⟩ := announces_of_raise (.inr rfl) hreplays
      (p := .gameForfeited ⟨f, (g.players.foldl (forfeitLeader f) (-1, none)).2⟩) h
    rw [hannounces.winner, hsame]
    exact ⟨succeeds_forfeitLeader f hplayers, hannounces⟩

def lastEdge : Game :=
  [(1, (⟨0, 0, 0, .top⟩ : Move)), (2, ⟨1, 0, 0, .right⟩), (3, ⟨0, 0, 0, .bottom⟩)].foldl
    (fun g m => ((g.applyMove m.1 m.2).map Prod.fst).getD {})
    ((Game.newGame 0 (some 1) 1 duel).getD {})

theorem Reachable.applyMove (hg : Reachable roster n g) (now : Time) (move : Move)
    (h : (g.applyMove now move).isSome = true) :
    Reachable roster n (((g.applyMove now move).map Prod.fst).getD {}) := by
  obtain ⟨⟨g', result⟩, hmove⟩ := Option.isSome_iff_exists.mp h
  obtain ⟨now₀, gameID, g₀, hnew, hsteps⟩ := hg
  rw [hmove]
  exact ⟨now₀, gameID, g₀, hnew, hsteps.tail (.applyMove hmove)⟩

theorem reachable_lastEdge : Reachable duel 1 lastEdge := by
  have hstart : Reachable duel 1 ((Game.newGame 0 (some 1) 1 duel).getD {}) :=
    ⟨0, some 1, _, by decide, .refl⟩
  have hfirst := hstart.applyMove 1 ⟨0, 0, 0, .top⟩ (by decide)
  have hsecond := hfirst.applyMove 2 ⟨1, 0, 0, .right⟩ (by decide)
  exact hsecond.applyMove 3 ⟨0, 0, 0, .bottom⟩ (by decide)

theorem winner_has_best_score_duel :
    (∃ g' result, lastEdge.applyMove 4 ⟨1, 0, 0, .left⟩ = some (g', .ok result) ∧
      result.winnerID = some 8 ∧ EndsWith g' result) ∧
    ∃ g', lastEdge.forfeit 4 8 = some g' ∧ g'.winnerID = some 7 ∧
      Announces g' (.gameForfeited ⟨8, some 7⟩) (some 7) := by
  obtain ⟨hmove, -, hforfeit⟩ := winner_has_best_score (by decide) reachable_lastEdge
  constructor
  · obtain ⟨result, hresult⟩ : ∃ result, (lastEdge.applyMove 4 ⟨1, 0, 0, .left⟩).map Prod.snd =
        some (.ok result) ∧ result.winnerID = some 8 :=
      ⟨⟨[⟨0, 0, true, true, true, true, none⟩], 1, true, some 8⟩, by decide⟩
    obtain ⟨⟨g', _⟩, hmoved, rfl⟩ := Option.map_eq_some_iff.mp hresult.1
    have hend : (lastEdge.applyMove 4 ⟨1, 0, 0, .left⟩).all fun r => r.1.hasEnded := by decide
    rw [hmoved] at hend
    exact ⟨g', result, hmoved, hresult.2, hmove 4 _ g' result hmoved hend⟩
  · obtain ⟨g', hg', hwinner⟩ := Option.map_eq_some_iff.mp
      (show (lastEdge.forfeit 4 8).map (·.winnerID) = some (some 7) by decide)
    obtain ⟨-, hannounces⟩ := hforfeit 4 8 g' hg'
    exact ⟨g', hg', hwinner, hwinner ▸ hannounces⟩

def WinnerAmong (players : List Player) (winnerID : Option ℤ) : Prop :=
  winnerID = none ∨ winnerID ∈ players.map (·.userID)

def Game.WonByPlayer (g : Game) : Prop := WinnerAmong g.players g.winnerID

def Payload.winnerID : Payload → Option ℤ
  | .gameEnded p => p.winnerID
  | .gameForfeited p => p.winnerID
  | _ => none

theorem winnerAmong_determineWinner (g : Game) : WinnerAmong g.players g.determineWinner := by
  by_cases hsome : g.players = []
  · left
    simp [determineWinner, hsome]
  · obtain ⟨i, -, ⟨-, hnone⟩ | ⟨-, hwinner⟩⟩ := determineWinner_eq hsome
    · exact .inl hnone
    · right
      rw [hwinner]
      exact List.mem_map_of_mem (List.get_mem _ i)

theorem winnerAmong_forfeitLeader {seated : List Player} {best : ℤ × Option ℤ}
    (hbest : WinnerAmong players best.2) (hseated : ∀ p ∈ seated, p ∈ players) :
    WinnerAmong players (seated.foldl (forfeitLeader f) best).2 := by
  induction seated generalizing best with
  | nil => exact hbest
  | cons p seated ih =>
    refine ih ?_ fun q hq => hseated q (List.mem_cons_of_mem p hq)
    unfold forfeitLeader
    split_ifs
    · exact hbest
    · exact .inr (List.mem_map_of_mem (hseated p List.mem_cons_self))
    · exact hbest

namespace Game.WonByPlayer

/-- A payload that names no winner but a player keeps the winner among the players. -/
theorem raise (hg : g.WonByPlayer) {p : Payload} (hcreated : ∀ c, p ≠ .gameCreated c)
    (hp : WinnerAmong g.players p.winnerID) (hraise : g.raise now p.type p = some g') :
    g'.WonByPlayer := by
  obtain ⟨g₁, happlied, rfl⟩ := applied_of_raise hraise
  cases happlied with
  | gameCreated => exact absurd rfl (hcreated _)
  | boxCompleted _ hplayers =>
    have hids := map_modify? (k := Player.userID) hplayers fun _ _ => rfl
    rcases hg with hnone | hin
    · exact .inl hnone
    · exact .inr (hids ▸ hin)
  | moveApplied _ => exact hg
  | turnPassed => exact hg
  | gameEnded => exact hp
  | gameForfeited => exact hp

theorem passTurn (hg : g.WonByPlayer) (h : g.passTurn now = some g') : g'.WonByPlayer := by
  obtain ⟨next, -, hraise⟩ := Option.bind_eq_some_iff.mp h
  exact hg.raise (p := .turnPassed ⟨next⟩) (by simp) (.inl rfl) hraise

theorem endIfOver (hg : g.WonByPlayer) {boxes : List Box}
    (h : g.endIfOver now boxes = some (g', result)) : g'.WonByPlayer := by
  rcases (endIfOver_eq_some h).2 with ⟨rfl, -⟩ | ⟨hraise, -⟩
  · exact hg
  · exact hg.raise (p := .gameEnded ⟨g.determineWinner⟩) (by simp) (winnerAmong_determineWinner g) hraise

theorem applyMove (hg : g.WonByPlayer) {move : Move}
    (h : g.applyMove now move = some (g', .ok result)) : g'.WonByPlayer := by
  obtain ⟨g₁, boxes, g₂, g₃, -, hmoved, -, hcompleted, hpassed, hended⟩ := applyMove_eq_ok h
  have h₁ : g₁.WonByPlayer := hg.raise (p := .moveApplied _) (by simp) (.inl rfl) hmoved
  rw [raiseCompleted_eq] at hcompleted
  have h₂ : g₂.WonByPlayer := by
    refine raiseAll_induction (P := WonByPlayer) h₁ ?_ hcompleted
    intro p hp g g' hg hraise
    obtain ⟨box, -, rfl⟩ := List.mem_map.mp hp
    exact hg.raise (by simp) (.inl rfl) hraise
  have h₃ : g₃.WonByPlayer := by
    unfold Game.passUnlessCompleted at hpassed
    split at hpassed
    · exact h₂.passTurn hpassed
    · exact Option.some.inj hpassed ▸ h₂
  exact h₃.endIfOver hended

theorem step (hg : g.WonByPlayer) (h : Step g g') : g'.WonByPlayer := by
  cases h with
  | @applyMove now move result h =>
    cases result with
    | error err => exact applyMove_eq_error h ▸ hg
    | ok result => exact hg.applyMove h
  | @passTurnOnTimeout now result h =>
    cases result with
    | error err => exact passTurnOnTimeout_eq_error h ▸ hg
    | ok result =>
      obtain ⟨-, g₁, hpassed, hended⟩ := passTurnOnTimeout_eq_ok h
      exact (hg.passTurn hpassed).endIfOver hended
  | forfeit h =>
    exact hg.raise (p := .gameForfeited _) (by simp)
      (winnerAmong_forfeitLeader (.inl rfl) fun _ hp => hp) h

end Game.WonByPlayer

theorem Reachable.wonByPlayer (hg : Reachable roster n g) : g.WonByPlayer := by
  obtain ⟨now, gameID, g₀, hnew, hsteps⟩ := hg
  induction hsteps with
  | refl =>
    rw [newGame_eq] at hnew
    obtain ⟨grid, -, rfl⟩ := Option.map_eq_some_iff.mp hnew
    exact .inl rfl
  | tail _ hstep ih => exact ih.step hstep

end DotsAndBoxes
