import DotsAndBoxes.Game.Model
import Mathlib.Logic.Function.Basic

/-! # Turn and disconnect timers

The timer service keeps a timer for each game that is played: the turn it believes
to be the current one, the end of that turn, and the grace periods of disconnected
players. A game's turn is stored in the game as well; the two copies are brought
together only where a caller switches the timer.
-/

namespace DotsAndBoxes

def turnTimeLimit : Time := 5000000000

def disconnectGracePeriod : Time := 30000000000

structure GameTimer where
  gameID : ℤ
  userIDToTurn : ℤ → Option ℤ
  activeTurn : ℤ
  turnEndsAt : Time
  disconnected : ℤ → Bool
  /-- When the grace period of a user expires. -/
  disconnectTimers : ℤ → Option Time
  stopped : Bool

structure GameTimerService where
  timers : ℤ → Option GameTimer

namespace GameTimer

def seats (players : List Player) : ℤ → Option ℤ :=
  players.foldl (fun seats p =>
    match p.userID with
    | some userID => Function.update seats userID (some p.turnOrder)
    | none => seats) fun _ => none

def start (now : Time) (gameID : ℤ) (players : List Player) (startingTurn : ℤ) : GameTimer where
  gameID
  userIDToTurn := seats players
  activeTurn := startingTurn
  turnEndsAt := now + turnTimeLimit
  disconnected _ := false
  disconnectTimers _ := none
  stopped := false

/-- The deadline is reset when the turn changes, and only then. -/
def switchTurn (now : Time) (newTurn : ℤ) (timer : GameTimer) : GameTimer :=
  if timer.stopped ∨ timer.activeTurn = newTurn then timer
  else { timer with activeTurn := newTurn, turnEndsAt := now + turnTimeLimit }

def handleDisconnect (now : Time) (userID : ℤ) (timer : GameTimer) : GameTimer :=
  if (timer.userIDToTurn userID).isSome then
    { timer with
      disconnected := Function.update timer.disconnected userID true
      disconnectTimers := Function.update timer.disconnectTimers userID
        (some (now + disconnectGracePeriod)) }
  else timer

def handleReconnect (userID : ℤ) (timer : GameTimer) : GameTimer :=
  if (timer.userIDToTurn userID).isSome then
    { timer with
      disconnected := Function.update timer.disconnected userID false
      disconnectTimers := Function.update timer.disconnectTimers userID none }
  else timer

theorem switchTurn_activeTurn {now : Time} {newTurn : ℤ} {timer : GameTimer}
    (h : timer.stopped = false) : (timer.switchTurn now newTurn).activeTurn = newTurn := by
  unfold switchTurn
  split_ifs with hsame
  · exact hsame.resolve_left (by simp [h])
  · rfl

theorem switchTurn_turnEndsAt {now : Time} {newTurn : ℤ} {timer : GameTimer}
    (h : timer.stopped = false) (hne : timer.activeTurn ≠ newTurn) :
    (timer.switchTurn now newTurn).turnEndsAt = now + turnTimeLimit := by
  rw [switchTurn, if_neg (by simp [h, hne])]

@[simp] theorem switchTurn_stopped (now : Time) (newTurn : ℤ) (timer : GameTimer) :
    (timer.switchTurn now newTurn).stopped = timer.stopped := by
  unfold switchTurn
  split_ifs <;> rfl

def graceOver (userID : ℤ) (timer : GameTimer) : GameTimer :=
  { timer with disconnectTimers := Function.update timer.disconnectTimers userID none }

@[simp] theorem handleDisconnect_stopped (now : Time) (userID : ℤ) (timer : GameTimer) :
    (timer.handleDisconnect now userID).stopped = timer.stopped := by
  unfold handleDisconnect
  split_ifs <;> rfl

@[simp] theorem handleDisconnect_activeTurn (now : Time) (userID : ℤ) (timer : GameTimer) :
    (timer.handleDisconnect now userID).activeTurn = timer.activeTurn := by
  unfold handleDisconnect
  split_ifs <;> rfl

@[simp] theorem handleDisconnect_turnEndsAt (now : Time) (userID : ℤ) (timer : GameTimer) :
    (timer.handleDisconnect now userID).turnEndsAt = timer.turnEndsAt := by
  unfold handleDisconnect
  split_ifs <;> rfl

@[simp] theorem handleReconnect_stopped (userID : ℤ) (timer : GameTimer) :
    (timer.handleReconnect userID).stopped = timer.stopped := by
  unfold handleReconnect
  split_ifs <;> rfl

@[simp] theorem handleReconnect_activeTurn (userID : ℤ) (timer : GameTimer) :
    (timer.handleReconnect userID).activeTurn = timer.activeTurn := by
  unfold handleReconnect
  split_ifs <;> rfl

@[simp] theorem handleReconnect_turnEndsAt (userID : ℤ) (timer : GameTimer) :
    (timer.handleReconnect userID).turnEndsAt = timer.turnEndsAt := by
  unfold handleReconnect
  split_ifs <;> rfl

end GameTimer

namespace GameTimerService

/-- Register a timer, unless the id has one already. -/
def startTimer (now : Time) (gameID : ℤ) (players : List Player) (startingTurn : ℤ)
    (s : GameTimerService) : GameTimerService :=
  match s.timers gameID with
  | some _ => s
  | none => ⟨Function.update s.timers gameID (some (.start now gameID players startingTurn))⟩

def switchTurn (now : Time) (gameID newTurn : ℤ) (s : GameTimerService) : GameTimerService :=
  match s.timers gameID with
  | none => s
  | some timer => ⟨Function.update s.timers gameID (some (timer.switchTurn now newTurn))⟩

/-- Remove a timer. A removed timer is stopped and its grace periods are cancelled, so it
does nothing more. -/
def stopTimer (gameID : ℤ) (s : GameTimerService) : GameTimerService :=
  ⟨Function.update s.timers gameID none⟩

/-- A user is disconnected in every game at once. -/
def handleDisconnect (now : Time) (userID : ℤ) (s : GameTimerService) : GameTimerService :=
  ⟨fun gameID => (s.timers gameID).map (·.handleDisconnect now userID)⟩

def handleReconnect (userID : ℤ) (s : GameTimerService) : GameTimerService :=
  ⟨fun gameID => (s.timers gameID).map (·.handleReconnect userID)⟩

/-- When the grace period of a user in a game runs out, if one is running. -/
def deadline (gameID userID : ℤ) (s : GameTimerService) : Option Time :=
  (s.timers gameID).bind (·.disconnectTimers userID)

def seat (gameID userID : ℤ) (s : GameTimerService) : Option ℤ :=
  (s.timers gameID).bind (·.userIDToTurn userID)

/-- The registered timer of a game has a grace period of the user that has run out. -/
def expired (now : Time) (gameID userID : ℤ) (s : GameTimerService) : Bool :=
  (s.deadline gameID userID).any (· ≤ now)

def graceOver (gameID userID : ℤ) (s : GameTimerService) : GameTimerService :=
  match s.timers gameID with
  | none => s
  | some timer => ⟨Function.update s.timers gameID (some (timer.graceOver userID))⟩

variable {now : Time} {gameID : ℤ} {s : GameTimerService}

theorem startTimer_of_none (h : s.timers gameID = none) (players : List Player)
    (startingTurn : ℤ) : s.startTimer now gameID players startingTurn =
      ⟨Function.update s.timers gameID (some (.start now gameID players startingTurn))⟩ := by
  rw [startTimer, h]

@[simp] theorem timers_switchTurn (newTurn : ℤ) :
    (s.switchTurn now gameID newTurn).timers gameID =
      (s.timers gameID).map (·.switchTurn now newTurn) := by
  unfold switchTurn
  cases h : s.timers gameID <;> simp [h]

theorem timers_switchTurn_of_ne {other : ℤ} (h : other ≠ gameID) (newTurn : ℤ) :
    (s.switchTurn now gameID newTurn).timers other = s.timers other := by
  unfold switchTurn
  cases s.timers gameID <;> simp [h]

@[simp] theorem timers_stopTimer : (s.stopTimer gameID).timers gameID = none := by
  simp [stopTimer]

theorem timers_stopTimer_of_ne {other : ℤ} (h : other ≠ gameID) :
    (s.stopTimer gameID).timers other = s.timers other := by
  simp [stopTimer, h]

/-- Only a user with a seat in a game has a grace period there. -/
def Seated (s : GameTimerService) : Prop :=
  ∀ gameID timer, s.timers gameID = some timer →
    ∀ userID, (timer.disconnectTimers userID).isSome → (timer.userIDToTurn userID).isSome

section Grace

variable {game userID user : ℤ}

theorem expired_eq_true : s.expired now gameID userID = true ↔
    ∃ d, s.deadline gameID userID = some d ∧ d ≤ now := by
  simp [expired, Option.any_eq_true]

@[simp] theorem deadline_startTimer (players : List Player) (startingTurn : ℤ) :
    (s.startTimer now game players startingTurn).deadline gameID userID =
      s.deadline gameID userID := by
  unfold startTimer deadline
  cases htimer : s.timers game with
  | some timer => rfl
  | none =>
    by_cases hgame : gameID = game
    · subst hgame
      simp [htimer, GameTimer.start]
    · simp [hgame]

@[simp] theorem deadline_switchTurn (newTurn : ℤ) :
    (s.switchTurn now game newTurn).deadline gameID userID = s.deadline gameID userID := by
  by_cases hgame : gameID = game
  · subst hgame
    unfold deadline
    rw [timers_switchTurn]
    cases s.timers gameID with
    | none => rfl
    | some timer =>
      simp only [Option.map_some, Option.bind_some, GameTimer.switchTurn]
      split_ifs <;> rfl
  · rw [deadline, timers_switchTurn_of_ne hgame, deadline]

theorem deadline_stopTimer {d : Time}
    (h : (s.stopTimer game).deadline gameID userID = some d) :
    s.deadline gameID userID = some d := by
  by_cases hgame : gameID = game
  · subst hgame
    simp [deadline] at h
  · rwa [deadline, timers_stopTimer_of_ne hgame] at h

theorem deadline_graceOver :
    (s.graceOver game user).deadline gameID userID =
      if gameID = game ∧ userID = user then none else s.deadline gameID userID := by
  unfold graceOver deadline
  cases htimer : s.timers game with
  | none =>
    split_ifs with h
    · rw [h.1, htimer]
      rfl
    · rfl
  | some timer =>
    by_cases hgame : gameID = game
    · subst hgame
      by_cases huser : userID = user <;> simp [htimer, GameTimer.graceOver, huser]
    · simp [hgame]

/-- A disconnect starts a grace period in each game that the user has a seat in. -/
theorem deadline_handleDisconnect (s : GameTimerService) (now : Time)
    (gameID userID user : ℤ) :
    (s.handleDisconnect now user).deadline gameID userID =
        s.deadline gameID userID ∨
      userID = user ∧
        (s.handleDisconnect now user).deadline gameID userID =
          some (now + disconnectGracePeriod) := by
  simp only [handleDisconnect, deadline]
  cases s.timers gameID with
  | none => exact .inl rfl
  | some timer =>
    by_cases hseat : (timer.userIDToTurn user).isSome
    · by_cases huser : userID = user
      · right
        simp [GameTimer.handleDisconnect, hseat, huser]
      · simp [GameTimer.handleDisconnect, hseat, huser]
    · simp [GameTimer.handleDisconnect, hseat]

theorem Seated.deadline_handleReconnect (hs : s.Seated) :
    (s.handleReconnect user).deadline gameID userID =
      if userID = user then none else s.deadline gameID userID := by
  simp only [handleReconnect, deadline]
  cases htimer : s.timers gameID with
  | none => simp
  | some timer =>
    by_cases huser : userID = user
    · subst huser
      by_cases hseat : (timer.userIDToTurn userID).isSome
      · simp [GameTimer.handleReconnect, hseat]
      · have hnone := mt (hs gameID timer htimer userID) hseat
        simpa [GameTimer.handleReconnect, hseat] using hnone
    · by_cases hseat : (timer.userIDToTurn user).isSome <;>
        simp [GameTimer.handleReconnect, hseat, huser]

@[simp] theorem seat_handleDisconnect :
    (s.handleDisconnect now user).seat gameID userID = s.seat gameID userID := by
  simp only [handleDisconnect, seat]
  cases s.timers gameID with
  | none => rfl
  | some timer =>
    simp only [Option.map_some, Option.bind_some, GameTimer.handleDisconnect]
    split_ifs <;> rfl

@[simp] theorem seat_handleReconnect :
    (s.handleReconnect user).seat gameID userID = s.seat gameID userID := by
  simp only [handleReconnect, seat]
  cases s.timers gameID with
  | none => rfl
  | some timer =>
    simp only [Option.map_some, Option.bind_some, GameTimer.handleReconnect]
    split_ifs <;> rfl

theorem deadline_handleDisconnect_of_seat (h : (s.seat gameID userID).isSome) :
    (s.handleDisconnect now userID).deadline gameID userID =
      some (now + disconnectGracePeriod) := by
  simp only [handleDisconnect, deadline, seat] at h ⊢
  cases htimer : s.timers gameID with
  | none => simp [htimer] at h
  | some timer =>
    rw [htimer, Option.bind_some] at h
    simp [GameTimer.handleDisconnect, h]

end Grace

namespace Seated

variable {s : GameTimerService} (hs : s.Seated)

include hs

theorem update {gameID : ℤ} {timer : Option GameTimer}
    (h : ∀ t, timer = some t →
      ∀ userID, (t.disconnectTimers userID).isSome → (t.userIDToTurn userID).isSome) :
    Seated ⟨Function.update s.timers gameID timer⟩ := by
  intro game t ht
  by_cases hgame : game = gameID
  · subst hgame
    exact h t (by simpa using ht)
  · exact hs game t (by simpa [hgame] using ht)

theorem startTimer (now : Time) (gameID : ℤ) (players : List Player) (startingTurn : ℤ) :
    (s.startTimer now gameID players startingTurn).Seated := by
  unfold GameTimerService.startTimer
  split
  · exact hs
  · apply hs.update
    rintro _ ⟨⟩ userID h
    simp [GameTimer.start] at h

theorem switchTurn (now : Time) (gameID newTurn : ℤ) :
    (s.switchTurn now gameID newTurn).Seated := by
  unfold GameTimerService.switchTurn
  split
  case h_1 => exact hs
  case h_2 timer htimer =>
    apply hs.update
    rintro _ ⟨⟩
    unfold GameTimer.switchTurn
    split_ifs
    · exact hs gameID timer htimer
    · exact hs gameID timer htimer

theorem stopTimer (gameID : ℤ) : (s.stopTimer gameID).Seated :=
  hs.update (by rintro _ ⟨⟩)

theorem graceOver (gameID userID : ℤ) : (s.graceOver gameID userID).Seated := by
  unfold GameTimerService.graceOver
  split
  case h_1 => exact hs
  case h_2 timer htimer =>
    apply hs.update
    rintro _ ⟨⟩ user h
    by_cases huser : user = userID
    · simp [GameTimer.graceOver, huser] at h
    · exact hs gameID timer htimer user (by simpa [GameTimer.graceOver, huser] using h)

theorem handleDisconnect (now : Time) (userID : ℤ) : (s.handleDisconnect now userID).Seated := by
  intro gameID t ht user h
  obtain ⟨timer, htimer, rfl⟩ := Option.map_eq_some_iff.mp ht
  unfold GameTimer.handleDisconnect at h ⊢
  split_ifs at h ⊢ with hseat
  · by_cases huser : user = userID
    · exact huser ▸ hseat
    · exact hs gameID timer htimer user (by simpa [huser] using h)
  · exact hs gameID timer htimer user h

theorem handleReconnect (userID : ℤ) : (s.handleReconnect userID).Seated := by
  intro gameID t ht user h
  obtain ⟨timer, htimer, rfl⟩ := Option.map_eq_some_iff.mp ht
  unfold GameTimer.handleReconnect at h ⊢
  split_ifs at h ⊢ with hseat
  · by_cases huser : user = userID
    · exact huser ▸ hseat
    · exact hs gameID timer htimer user (by simpa [huser] using h)
  · exact hs gameID timer htimer user h

end Seated

end GameTimerService

end DotsAndBoxes
