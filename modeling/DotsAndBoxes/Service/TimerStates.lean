import DotsAndBoxes.Service.Timers
import DotsAndBoxes.Library.Json
import Mathlib.Data.List.Sort

/-! # The states of timers

A timer is told what happens to it, and what it tells the clients is made of that: the turn since
it was last switched to another one, and each player as connected as the last that was heard of
them. Nothing from before its start counts, and a start while it is running changes nothing.
-/

namespace DotsAndBoxes

open Tagged

structure PlayerTimerInfo where
  turnOrder : ℤ
  userID : ℤ
  remainingMs : ℤ
  disconnected : Bool
  deriving DecidableEq, Repr

structure TimerState where
  gameID : ℤ
  players : List PlayerTimerInfo
  activeTurn : ℤ
  turnLimitMs : ℤ
  deriving DecidableEq, Repr

def milliseconds (d : Time) : ℤ := Int.tdiv d 1000000

namespace GameTimer

/-- The users by their seats. A later player takes the seat of an earlier one. -/
def playerUserIDs (players : List Player) : List (ℤ × ℤ) :=
  players.foldl (fun ids p =>
    match p.userID with
    | some userID => ids.filter (·.1 ≠ p.turnOrder) ++ [(p.turnOrder, userID)]
    | none => ids) []

def buildStateLocked (now : Time) (ids : List (ℤ × ℤ)) (timer : GameTimer) : TimerState where
  gameID := timer.gameID
  players := ((ids.map Prod.fst).insertionSort (· ≤ ·)).map fun turnOrder =>
    let userID := (ids.lookup turnOrder).getD 0
    { turnOrder, userID
      remainingMs :=
        if turnOrder = timer.activeTurn then milliseconds (max (timer.turnEndsAt - now) 0) else 0
      disconnected := timer.disconnected userID }
  activeTurn := timer.activeTurn
  turnLimitMs := milliseconds turnTimeLimit

end GameTimer

/-- The timers of all games, with the users by the seats that each was started with. -/
structure SeatedTimers where
  service : GameTimerService
  playerUserIDs : ℤ → List (ℤ × ℤ)

inductive TimerAct where
  | startTimer (now : Time) (gameID : ℤ) (players : List Player) (startingTurn : ℤ)
  | switchTurn (now : Time) (gameID newTurn : ℤ)
  | stopTimer (gameID : ℤ)
  | handleDisconnect (now : Time) (userID : ℤ)
  | handleReconnect (userID : ℤ)
  deriving DecidableEq, Repr

def TimerAct.time? : TimerAct → Option Time
  | .startTimer now _ _ _ | .switchTurn now _ _ | .handleDisconnect now _ => some now
  | .stopTimer _ | .handleReconnect _ => none

namespace SeatedTimers

def empty : SeatedTimers := ⟨⟨fun _ => none⟩, fun _ => []⟩

def perform (s : SeatedTimers) : TimerAct → SeatedTimers
  | .startTimer now gameID players startingTurn =>
    if (s.service.timers gameID).isSome then s
    else {
      service := s.service.startTimer now gameID players startingTurn
      playerUserIDs :=
        Function.update s.playerUserIDs gameID (GameTimer.playerUserIDs players) }
  | .switchTurn now gameID newTurn =>
    { s with service := s.service.switchTurn now gameID newTurn }
  | .stopTimer gameID => { s with service := s.service.stopTimer gameID }
  | .handleDisconnect now userID => { s with service := s.service.handleDisconnect now userID }
  | .handleReconnect userID => { s with service := s.service.handleReconnect userID }

def after (history : List TimerAct) : SeatedTimers := history.foldl perform empty

def getTimerState (now : Time) (gameID : ℤ) (s : SeatedTimers) : Option TimerState :=
  (s.service.timers gameID).map (·.buildStateLocked now (s.playerUserIDs gameID))

@[simp] theorem after_nil : after [] = empty := rfl

@[simp] theorem after_append_singleton (history : List TimerAct) (act : TimerAct) :
    after (history ++ [act]) = (after history).perform act := by
  rw [after, List.foldl_append]
  rfl

end SeatedTimers

section Seats

variable {players : List Player} {turnOrder userID : ℤ}

/-- The user of the last player on a seat, of those who have a user id. -/
def lastSeated (players : List Player) (turnOrder : ℤ) : Option ℤ :=
  players.foldl (fun seated p =>
    if p.turnOrder = turnOrder then p.userID <|> seated else seated) none

theorem playerUserIDs_concat (players : List Player) (p : Player) :
    GameTimer.playerUserIDs (players ++ [p]) = match p.userID with
      | some userID =>
        (GameTimer.playerUserIDs players).filter (·.1 ≠ p.turnOrder) ++ [(p.turnOrder, userID)]
      | none => GameTimer.playerUserIDs players := by
  rw [GameTimer.playerUserIDs, List.foldl_append]
  rfl

theorem lastSeated_concat (players : List Player) (p : Player) :
    lastSeated (players ++ [p]) turnOrder =
    if p.turnOrder = turnOrder then p.userID <|> lastSeated players turnOrder
    else lastSeated players turnOrder := by
  rw [lastSeated, List.foldl_append]
  rfl

theorem nodup_playerUserIDs (players : List Player) :
    ((GameTimer.playerUserIDs players).map Prod.fst).Nodup := by
  induction players using List.reverseRecOn with
  | nil => exact List.nodup_nil
  | append_singleton players p ih =>
    rw [playerUserIDs_concat]
    cases p.userID with
    | none => exact ih
    | some userID =>
      rw [List.map_append, List.nodup_append]
      refine ⟨ih.sublist (List.filter_sublist.map _), List.nodup_singleton _, ?_⟩
      rintro seat hseat _ hnew rfl
      obtain ⟨entry, hentry, rfl⟩ := List.mem_map.mp hseat
      have hne := (List.mem_filter.mp hentry).2
      simp only [List.map_cons, List.map_nil, List.mem_singleton] at hnew
      simp [hnew] at hne

theorem mem_playerUserIDs :
    (turnOrder, userID) ∈ GameTimer.playerUserIDs players ↔
      lastSeated players turnOrder = some userID := by
  induction players using List.reverseRecOn with
  | nil => simp [GameTimer.playerUserIDs, lastSeated]
  | append_singleton players p ih =>
    rw [playerUserIDs_concat, lastSeated_concat]
    cases hp : p.userID with
    | none => simpa using ih
    | some user =>
      by_cases hseat : p.turnOrder = turnOrder
      · subst hseat
        simp [eq_comm]
      · simp [hseat, Ne.symm hseat, ih]

theorem isSome_seats_of_mem (h : (turnOrder, userID) ∈ GameTimer.playerUserIDs players) :
    (GameTimer.seats players userID).isSome := by
  induction players using List.reverseRecOn with
  | nil => cases h
  | append_singleton players p ih =>
    rw [playerUserIDs_concat] at h
    rw [GameTimer.seats, List.foldl_append]
    change (match p.userID with
      | some userID => Function.update (GameTimer.seats players) userID (some p.turnOrder)
      | none => GameTimer.seats players) userID |>.isSome
    cases hp : p.userID with
    | none =>
      rw [hp] at h
      exact ih h
    | some user =>
      rw [hp] at h
      by_cases huser : userID = user
      · simp [huser]
      · rcases List.mem_append.mp h with hold | hnew
        · simpa [huser] using ih (List.mem_of_mem_filter hold)
        · simp [huser] at hnew

end Seats

def turnSince (gameID startingTurn : ℤ) (started : Time) (since : List TimerAct) : ℤ × Time :=
  since.foldl (fun turn act =>
    match act with
    | .switchTurn now game newTurn =>
      if game = gameID ∧ turn.1 ≠ newTurn then (newTurn, now) else turn
    | _ => turn) (startingTurn, started)

def Disconnected (userID : ℤ) (since : List TimerAct) : Prop :=
  ∃ earlier now later, since = earlier ++ .handleDisconnect now userID :: later ∧
    .handleReconnect userID ∉ later

/-- A timer as it was started, with what it has been told since. -/
structure Told (game : ℤ) (players : List Player) (startingTurn : ℤ) (started : Time)
    (since : List TimerAct) (timer : GameTimer) : Prop where
  gameID : timer.gameID = game
  seats : timer.userIDToTurn = GameTimer.seats players
  running : timer.stopped = false
  turn : timer.activeTurn = (turnSince game startingTurn started since).1
  deadline : timer.turnEndsAt = (turnSince game startingTurn started since).2 + turnTimeLimit
  disconnected : ∀ userID, (GameTimer.seats players userID).isSome →
    (timer.disconnected userID = true ↔ Disconnected userID since)

section Histories

variable {gameID startingTurn userID : ℤ} {players : List Player} {started now : Time}
  {since history : List TimerAct} {timer : GameTimer} {act : TimerAct} {s : SeatedTimers}

theorem turnSince_concat (act : TimerAct) : turnSince gameID startingTurn started (since ++ [act]) =
    match act with
    | .switchTurn now game newTurn =>
      if game = gameID ∧ (turnSince gameID startingTurn started since).1 ≠ newTurn then
        (newTurn, now)
      else turnSince gameID startingTurn started since
    | _ => turnSince gameID startingTurn started since := by
  rw [turnSince, List.foldl_append]
  rfl

theorem not_disconnected_nil : ¬ Disconnected userID [] := by
  rintro ⟨earlier, now, later, h, -⟩
  simp at h

theorem disconnected_concat_iff : Disconnected userID (since ++ [act]) ↔
    (∃ now, act = .handleDisconnect now userID) ∨
      act ≠ .handleReconnect userID ∧ Disconnected userID since := by
  constructor
  · rintro ⟨earlier, now, later, h, hlater⟩
    rcases List.eq_nil_or_concat later with rfl | ⟨later, last, rfl⟩
    · left
      exact ⟨now, by simpa using (List.append_inj' h rfl).2⟩
    · right
      rw [List.concat_eq_append, ← List.cons_append, ← List.append_assoc] at h
      obtain ⟨hsince, hact⟩ := List.append_inj' h rfl
      obtain rfl := List.singleton_inj.mp hact
      simp only [List.concat_eq_append, List.mem_append, List.mem_singleton, not_or] at hlater
      exact ⟨fun heq => hlater.2 heq.symm, earlier, now, later, hsince, hlater.1⟩
  · rintro (⟨now, rfl⟩ | ⟨hact, earlier, now, later, rfl, hlater⟩)
    · exact ⟨since, now, [], rfl, by simp⟩
    · refine ⟨earlier, now, later ++ [act], by simp, ?_⟩
      simpa [hlater] using hact.symm

theorem told_start : Told gameID players startingTurn now []
    (GameTimer.start now gameID players startingTurn) :=
  ⟨rfl, rfl, rfl, rfl, rfl, fun _ _ => iff_of_false Bool.false_ne_true not_disconnected_nil⟩

/-- What an act does to a timer that it neither starts nor stops. -/
def TimerAct.tell (gameID : ℤ) (timer : GameTimer) : TimerAct → GameTimer
  | .switchTurn now game newTurn => if game = gameID then timer.switchTurn now newTurn else timer
  | .handleDisconnect now userID => timer.handleDisconnect now userID
  | .handleReconnect userID => timer.handleReconnect userID
  | _ => timer

theorem Told.tell (h : Told gameID players startingTurn started since timer) (act : TimerAct) :
    Told gameID players startingTurn started (since ++ [act]) (act.tell gameID timer) := by
  have hturn : turnSince gameID startingTurn started (since ++ [act]) = _ := turnSince_concat act
  cases act with
  | startTimer | stopTimer =>
    refine ⟨h.gameID, h.seats, h.running, hturn ▸ h.turn, hturn ▸ h.deadline, fun u hu => ?_⟩
    rw [disconnected_concat_iff]
    simpa [TimerAct.tell] using h.disconnected u hu
  | switchTurn now game newTurn =>
    simp only [TimerAct.tell]
    have hnone : ∀ u, (GameTimer.seats players u).isSome → (timer.disconnected u = true ↔
        Disconnected u (since ++ [.switchTurn now game newTurn])) := fun u hu => by
      rw [disconnected_concat_iff]
      simpa using h.disconnected u hu
    by_cases hgame : game = gameID
    · by_cases hsame : timer.activeTurn = newTurn
      · rw [if_pos hgame, GameTimer.switchTurn, if_pos (.inr hsame)]
        simp only [← h.turn, hsame, ne_eq, not_true_eq_false, and_false, if_false] at hturn
        exact ⟨h.gameID, h.seats, h.running, hturn ▸ h.turn, hturn ▸ h.deadline, hnone⟩
      · rw [if_pos hgame, GameTimer.switchTurn, if_neg (by simp [h.running, hsame])]
        simp only [if_pos (And.intro hgame (h.turn ▸ hsame))] at hturn
        exact ⟨h.gameID, h.seats, h.running, by rw [hturn], by rw [hturn], hnone⟩
    · rw [if_neg hgame]
      simp only [hgame, false_and, if_false] at hturn
      exact ⟨h.gameID, h.seats, h.running, hturn ▸ h.turn, hturn ▸ h.deadline, hnone⟩
  | handleDisconnect now user =>
    simp only [TimerAct.tell]
    refine ⟨?_, ?_, by rw [GameTimer.handleDisconnect_stopped, h.running],
      by rw [GameTimer.handleDisconnect_activeTurn, hturn, h.turn],
      by rw [GameTimer.handleDisconnect_turnEndsAt, hturn, h.deadline], fun u hu => ?_⟩
    · unfold GameTimer.handleDisconnect
      split_ifs <;> exact h.gameID
    · unfold GameTimer.handleDisconnect
      split_ifs <;> exact h.seats
    · rw [disconnected_concat_iff]
      unfold GameTimer.handleDisconnect
      by_cases huser : u = user
      · subst huser
        rw [h.seats, if_pos hu]
        simp
      · have hold : (timer.handleDisconnect now user).disconnected u = timer.disconnected u := by
          unfold GameTimer.handleDisconnect
          split_ifs <;> simp [huser]
        unfold GameTimer.handleDisconnect at hold
        rw [hold]
        simpa [Ne.symm huser] using h.disconnected u hu
  | handleReconnect user =>
    simp only [TimerAct.tell]
    refine ⟨?_, ?_, by rw [GameTimer.handleReconnect_stopped, h.running],
      by rw [GameTimer.handleReconnect_activeTurn, hturn, h.turn],
      by rw [GameTimer.handleReconnect_turnEndsAt, hturn, h.deadline], fun u hu => ?_⟩
    · unfold GameTimer.handleReconnect
      split_ifs <;> exact h.gameID
    · unfold GameTimer.handleReconnect
      split_ifs <;> exact h.seats
    · rw [disconnected_concat_iff]
      by_cases huser : u = user
      · subst huser
        unfold GameTimer.handleReconnect
        rw [h.seats, if_pos hu]
        simp
      · have hold : (timer.handleReconnect user).disconnected u = timer.disconnected u := by
          unfold GameTimer.handleReconnect
          split_ifs <;> simp [huser]
        rw [hold]
        simpa [Ne.symm huser] using h.disconnected u hu

/-- The timer of a game has been started more lately than stopped. -/
def isRunning (game : ℤ) (history : List TimerAct) : Bool :=
  history.foldl (fun running act =>
    match act with
    | .startTimer _ gameID _ _ => running || gameID = game
    | .stopTimer gameID => running && gameID ≠ game
    | _ => running) false

theorem isRunning_concat (game : ℤ) (act : TimerAct) : isRunning game (history ++ [act]) =
    match act with
    | .startTimer _ gameID _ _ => isRunning game history || gameID = game
    | .stopTimer gameID => isRunning game history && gameID ≠ game
    | _ => isRunning game history := by
  rw [isRunning, List.foldl_append]
  rfl

/-- The game has the timer that this start made, which runs. -/
structure InForce (game : ℤ) (history : List TimerAct) (players : List Player)
    (startingTurn : ℤ) (started : Time) (since : List TimerAct) : Prop where
  started : ∃ before, isRunning game before = false ∧
    history = before ++ .startTimer started game players startingTurn :: since
  going : .stopTimer game ∉ since

theorem InForce.tell (h : InForce gameID history players startingTurn started since)
    (hact : act ≠ .stopTimer gameID) :
    InForce gameID (history ++ [act]) players startingTurn started (since ++ [act]) := by
  obtain ⟨⟨before, hbefore, rfl⟩, hgoing⟩ := h
  refine ⟨⟨before, hbefore, by simp⟩, ?_⟩
  simpa [hgoing] using hact.symm

namespace SeatedTimers

/-- The timer of a game and its seats are those of the start in force. -/
def Known (game : ℤ) (history : List TimerAct) (s : SeatedTimers) : Prop :=
  match s.service.timers game with
  | none => isRunning game history = false
  | some timer => isRunning game history = true ∧ ∃ players startingTurn started since,
      InForce game history players startingTurn started since ∧
        Told game players startingTurn started since timer ∧
        s.playerUserIDs game = GameTimer.playerUserIDs players

/-- An act that neither starts nor stops the timer of a game tells it something. -/
theorem Known.tell (h : Known gameID history s) {s' : SeatedTimers}
    (htimers : s'.service.timers gameID = (s.service.timers gameID).map (act.tell gameID))
    (hids : s'.playerUserIDs gameID = s.playerUserIDs gameID)
    (hrunning : isRunning gameID (history ++ [act]) = isRunning gameID history)
    (hact : act ≠ .stopTimer gameID) : Known gameID (history ++ [act]) s' := by
  unfold Known at h ⊢
  rw [htimers, hrunning, hids]
  cases htimer : s.service.timers gameID with
  | none =>
    rw [htimer] at h
    exact h
  | some timer =>
    rw [htimer] at h
    obtain ⟨hrun, players, startingTurn, started, since, hforce, htold, hseats⟩ := h
    exact ⟨hrun, players, startingTurn, started, since ++ [act], hforce.tell hact, htold.tell act,
      hseats⟩

theorem Known.perform (h : Known gameID history s) (act : TimerAct) :
    Known gameID (history ++ [act]) (s.perform act) := by
  have hrunning : isRunning gameID (history ++ [act]) = _ := isRunning_concat gameID act
  cases act with
  | startTimer now game players startingTurn =>
    by_cases hgame : game = gameID
    · subst hgame
      cases htimer : s.service.timers game with
      | some timer =>
        have hsame : s.perform (.startTimer now game players startingTurn) = s := by
          simp [SeatedTimers.perform, htimer]
        have hrun : isRunning game history = true := by
          rw [Known, htimer] at h
          exact h.1
        rw [hsame]
        refine h.tell ?_ rfl (hrunning.trans (by simp [hrun])) (by simp)
        rw [htimer]
        rfl
      | none =>
        have hrun : isRunning game history = false := by
          rwa [Known, htimer] at h
        have hnew : s.perform (.startTimer now game players startingTurn) =
            ⟨s.service.startTimer now game players startingTurn,
              Function.update s.playerUserIDs game (GameTimer.playerUserIDs players)⟩ := by
          simp [SeatedTimers.perform, htimer]
        rw [hnew, GameTimerService.startTimer_of_none htimer]
        simp only [Known, Function.update_self]
        refine ⟨hrunning.trans (by simp), players, startingTurn, now, [], ?_, told_start, rfl⟩
        exact ⟨⟨history, hrun, rfl⟩, by simp⟩
    · refine h.tell ?_ ?_ (hrunning.trans (by simp [hgame])) (by simp)
      · simp only [SeatedTimers.perform]
        split_ifs with hsome
        · cases s.service.timers gameID <;> rfl
        · rw [GameTimerService.startTimer_of_none (by simpa using hsome)]
          simp only [Function.update_of_ne (Ne.symm hgame)]
          cases s.service.timers gameID <;> rfl
      · simp only [SeatedTimers.perform]
        split_ifs
        · rfl
        · simp [Function.update_of_ne (Ne.symm hgame)]
  | switchTurn now game newTurn =>
    refine h.tell ?_ rfl hrunning (by simp)
    by_cases hgame : game = gameID
    · subst hgame
      simp only [SeatedTimers.perform, GameTimerService.timers_switchTurn]
      cases s.service.timers game <;> simp [TimerAct.tell]
    · simp only [SeatedTimers.perform,
        GameTimerService.timers_switchTurn_of_ne (Ne.symm hgame) newTurn]
      cases s.service.timers gameID <;> simp [TimerAct.tell, hgame]
  | stopTimer game =>
    by_cases hgame : game = gameID
    · subst hgame
      rw [Known, SeatedTimers.perform, GameTimerService.timers_stopTimer]
      exact hrunning.trans (by simp)
    · refine h.tell ?_ rfl (hrunning.trans (by simp [hgame])) (by simpa using hgame)
      simp only [SeatedTimers.perform, GameTimerService.timers_stopTimer_of_ne (Ne.symm hgame)]
      cases s.service.timers gameID <;> rfl
  | handleDisconnect now user => exact h.tell rfl rfl hrunning (by simp)
  | handleReconnect user => exact h.tell rfl rfl hrunning (by simp)

theorem known_after (game : ℤ) (history : List TimerAct) : Known game history (after history) := by
  induction history using List.reverseRecOn with
  | nil => rfl
  | append_singleton history act ih =>
    rw [after_append_singleton]
    exact ih.perform act

end SeatedTimers

/-- A state that was made at a time of a timer that was started and told something since. -/
structure TimerState.Of (game : ℤ) (players : List Player) (startingTurn : ℤ) (started : Time)
    (since : List TimerAct) (now : Time) (state : TimerState) : Prop where
  gameID : state.gameID = game
  activeTurn : state.activeTurn = (turnSince game startingTurn started since).1
  turnLimit : state.turnLimitMs = milliseconds turnTimeLimit
  seats : (state.players.map (·.turnOrder)).Pairwise (· < ·)
  users : ∀ turnOrder userID,
    (∃ info ∈ state.players, info.turnOrder = turnOrder ∧ info.userID = userID) ↔
      lastSeated players turnOrder = some userID
  remaining : ∀ info ∈ state.players, info.remainingMs = if info.turnOrder = state.activeTurn then
      milliseconds (max ((turnSince game startingTurn started since).2 + turnTimeLimit - now) 0)
    else 0
  disconnected : ∀ info ∈ state.players, info.disconnected = true ↔ Disconnected info.userID since

theorem mem_players_buildStateLocked {ids : List (ℤ × ℤ)} (hids : (ids.map Prod.fst).Nodup)
    {info : PlayerTimerInfo} : info ∈ (timer.buildStateLocked now ids).players ↔
      (info.turnOrder, info.userID) ∈ ids ∧
        info.remainingMs = (if info.turnOrder = timer.activeTurn then
          milliseconds (max (timer.turnEndsAt - now) 0) else 0) ∧
        info.disconnected = timer.disconnected info.userID := by
  have hlookup {turnOrder user : ℤ} (hmem : (turnOrder, user) ∈ ids) :
      ids.lookup turnOrder = some user := by
    induction ids with
    | nil => cases hmem
    | cons entry ids ih =>
      rw [List.map_cons, List.nodup_cons] at hids
      rcases List.mem_cons.mp hmem with rfl | hmem
      · exact List.lookup_cons_self
      · have hne : turnOrder ≠ entry.1 := by
          rintro rfl
          exact hids.1 (List.mem_map.mpr ⟨_, hmem, rfl⟩)
        rw [List.lookup_cons, beq_false_of_ne hne]
        exact ih hids.2 hmem
  obtain ⟨seat, user, remaining, gone⟩ := info
  simp only [GameTimer.buildStateLocked, List.mem_map, List.mem_insertionSort, Prod.exists,
    exists_and_right, exists_eq_right, PlayerTimerInfo.mk.injEq]
  constructor
  · rintro ⟨_, ⟨user', hmem⟩, rfl, rfl, rfl, rfl⟩
    rw [hlookup hmem, Option.getD_some]
    exact ⟨hmem, rfl, rfl⟩
  · rintro ⟨hmem, hremaining, hgone⟩
    refine ⟨seat, ⟨user, hmem⟩, rfl, ?_⟩
    rw [hlookup hmem, Option.getD_some]
    exact ⟨rfl, hremaining.symm, hgone.symm⟩

theorem Told.state (h : Told gameID players startingTurn started since timer) (now : Time) :
    TimerState.Of gameID players startingTurn started since now
      (timer.buildStateLocked now (GameTimer.playerUserIDs players)) := by
  have hids := nodup_playerUserIDs players
  have hmem {info : PlayerTimerInfo} :
      info ∈ (timer.buildStateLocked now (GameTimer.playerUserIDs players)).players ↔ _ :=
    mem_players_buildStateLocked hids
  refine ⟨h.gameID, h.turn, rfl, ?_, fun turnOrder user => ?_, fun info hinfo => ?_,
    fun info hinfo => ?_⟩
  · rw [GameTimer.buildStateLocked, List.map_map]
    change (List.map id _).Pairwise _
    rw [List.map_id]
    have hsorted :=
      List.pairwise_insertionSort (· ≤ ·) ((GameTimer.playerUserIDs players).map Prod.fst)
    have hnodup := ((List.perm_insertionSort (· ≤ ·)
      ((GameTimer.playerUserIDs players).map Prod.fst)).nodup_iff).mpr hids
    exact hsorted.imp₂ (fun _ _ hle hne => lt_of_le_of_ne hle hne) hnodup
  · rw [← mem_playerUserIDs]
    constructor
    · rintro ⟨info, hinfo, rfl, rfl⟩
      exact (hmem.mp hinfo).1
    · intro hseat
      let info : PlayerTimerInfo :=
        { turnOrder, userID := user
          remainingMs := if turnOrder = timer.activeTurn then
            milliseconds (max (timer.turnEndsAt - now) 0) else 0
          disconnected := timer.disconnected user }
      have hinfo : info ∈ (timer.buildStateLocked now (GameTimer.playerUserIDs players)).players :=
        hmem.mpr ⟨hseat, rfl, rfl⟩
      exact ⟨info, hinfo, rfl, rfl⟩
  · rw [(hmem.mp hinfo).2.1, h.deadline]
    rfl
  · obtain ⟨hseat, -, hgone⟩ := hmem.mp hinfo
    rw [hgone, h.disconnected _ (isSome_seats_of_mem hseat)]

/-- A game has a state exactly while its timer runs, and it is made of the start in force and of
what the timer has been told since. -/
theorem SeatedTimers.getTimerState_after (game : ℤ) (history : List TimerAct) (now : Time) :
    match getTimerState now game (after history) with
    | none => isRunning game history = false
    | some state => isRunning game history = true ∧ ∃ players startingTurn started since,
        InForce game history players startingTurn started since ∧
          state.Of game players startingTurn started since now := by
  have hknown := known_after game history
  unfold Known at hknown
  unfold getTimerState
  cases htimer : (after history).service.timers game with
  | none =>
    rw [htimer] at hknown
    exact hknown
  | some timer =>
    rw [htimer] at hknown
    obtain ⟨hrun, players, startingTurn, started, since, hforce, htold, hids⟩ := hknown
    refine ⟨hrun, players, startingTurn, started, since, hforce, ?_⟩
    rw [hids]
    exact htold.state now

end Histories

end DotsAndBoxes
