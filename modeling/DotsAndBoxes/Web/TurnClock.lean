import DotsAndBoxes.Hub.Manager
import DotsAndBoxes.Library.Runs
import DotsAndBoxes.Service.TimerStates
import DotsAndBoxes.Web.State
import Mathlib

/-! # The clock of a game page

A game page takes the states of the game's timer as they come, over the socket or as the answer to
a fetch, and shows the last one until the next. It may be late, but what it shows was so at one
moment: whose turn it was, the seconds that were left of it, and who was disconnected.
-/

namespace DotsAndBoxes

open Tagged Runs

def PlayerTimerInfo.marshal (info : PlayerTimerInfo) : Json := .obj [
  ("turn_order", .num info.turnOrder),
  ("user_id", .num info.userID),
  ("remaining_ms", .num info.remainingMs),
  ("disconnected", .bool info.disconnected)]

/-- A slice that nothing was appended to is written as null. -/
def TimerState.marshal (state : TimerState) : Json := .obj [
  ("game_id", .num state.gameID),
  ("players",
    if state.players = [] then .null else .arr (state.players.map PlayerTimerInfo.marshal)),
  ("active_turn", .num state.activeTurn),
  ("turn_limit_ms", .num state.turnLimitMs)]

def publishTimerState (state : TimerState) : Event :=
  ⟨gameTopic state.gameID, "game:timer", state.marshal⟩

namespace Web

def number (name : String) (v : Json) : Option ℤ :=
  match v.property name with
  | some (.num n) => some n
  | _ => none

def flag (name : String) (v : Json) : Option Bool :=
  match v.property name with
  | some (.bool b) => some b
  | _ => none

def PlayerTimerInfo.ofJson (v : Json) : Option PlayerTimerInfo := do
  return ⟨← number "turn_order" v, ← number "user_id" v, ← number "remaining_ms" v,
    ← flag "disconnected" v⟩

structure TimerStatePayload where
  gameID : ℤ
  players : List PlayerTimerInfo
  activeTurn : ℤ
  turnLimitMs : Option ℤ
  deriving DecidableEq, Repr

namespace TimerStatePayload

/-- A payload as the page takes it. Mapping over players that are null throws. -/
def ofJson (v : Json) : Option TimerStatePayload := do
  let players ← (v.property "players").bind Json.elements
  return ⟨← number "game_id" v, ← players.mapM PlayerTimerInfo.ofJson, ← number "active_turn" v,
    number "turn_limit_ms" v⟩

def defaultTurnLimitMs : ℤ := 5000

def normalizeTimerPayload (raw : TimerStatePayload) : TimerStatePayload :=
  let limit := raw.turnLimitMs.getD defaultTurnLimitMs
  { raw with
    turnLimitMs := some limit
    players := raw.players.map fun p =>
      { p with
        remainingMs :=
          if p.turnOrder = raw.activeTurn then min (max 0 p.remainingMs) limit
          else p.remainingMs } }

def getPlayerTime (userID : ℤ) (timerState : TimerStatePayload) : Option ℤ :=
  (timerState.players.find? (·.userID = userID)).map (·.remainingMs)

def isPlayerDisconnected (userID : ℤ) (timerState : TimerStatePayload) : Bool :=
  ((timerState.players.find? (·.userID = userID)).map (·.disconnected)).getD false

def formatTurnClock (ms turnLimitMs : ℤ) : String :=
  let limit := if turnLimitMs > 0 then turnLimitMs else defaultTurnLimitMs
  let capped := min ms limit
  let totalSeconds := max 0 ⌈(capped : ℚ) / 1000⌉
  if limit ≤ 90000 then toString totalSeconds ++ "s"
  else
    let seconds := totalSeconds % 60
    toString (totalSeconds / 60) ++ ":" ++ (if seconds < 10 then "0" else "") ++ toString seconds

def playerClock (userID : ℤ) (timerState : TimerStatePayload) : Option String :=
  (timerState.getPlayerTime userID).map fun timeMs =>
    formatTurnClock timeMs (timerState.turnLimitMs.getD defaultTurnLimitMs)

end TimerStatePayload

open TimerStatePayload

/-- The timers and what is on its way from them to a page, with what the page has of them. -/
structure Timekeeping where
  now : Time
  timers : SeatedTimers := .empty
  told : List TimerAct := []
  sent : List Event := []
  answers : List (Option Json) := []
  timerState : Option TimerStatePayload := none

/-- The callback of the page, which throws on a payload that it cannot normalize. -/
def receive (gameID : ℤ) (message : Event) (timerState : Option TimerStatePayload) :
    Option (Option TimerStatePayload) :=
  if message.topic = gameTopic gameID ∧ message.type = "game:timer" then
    (ofJson message.payload).map fun payload => some payload.normalizeTimerPayload
  else some timerState

/-- The answer to a fetch, with none for a game without a timer. What throws is caught. -/
def hydrate (answer : Option Json) (timerState : Option TimerStatePayload) :
    Option TimerStatePayload :=
  match answer with
  | none => none
  | some v =>
    match ofJson v with
    | some payload => some payload.normalizeTimerPayload
    | none => timerState

inductive ClockAct where
  | wait (now : Time)
  | tell (act : TimerAct)
  | publish (gameID : ℤ)
  | fetch
  | deliver
  | answer
  | lose

/-- Time passes, the timers are told something or publish a state, or the page asks for one or takes
one. A timer publishes when its deadline had not passed a moment before. What is on its way comes
in any order, or not at all. -/
inductive Timekeeping.Step (gameID : ℤ) : Timekeeping → ClockAct → Timekeeping → Prop where
  | wait {s now} (h : s.now ≤ now) : Step gameID s (.wait now) { s with now }
  | tell {s act} (h : ∀ t ∈ act.time?, t = s.now) :
      Step gameID s (.tell act)
        { s with timers := s.timers.perform act, told := s.told ++ [act] }
  | publish {s game state} (h : s.timers.getTimerState s.now game = some state) :
      Step gameID s (.publish game) { s with sent := s.sent ++ [publishTimerState state] }
  | fetch {s} :
      Step gameID s .fetch
        { s with
          answers := s.answers ++ [(s.timers.getTimerState s.now gameID).map TimerState.marshal] }
  | deliver {s before message after} (h : s.sent = before ++ message :: after) :
      Step gameID s .deliver
        { s with
          sent := before ++ after
          timerState := (receive gameID message s.timerState).getD s.timerState }
  | answer {s before answer after} (h : s.answers = before ++ answer :: after) :
      Step gameID s .answer
        { s with answers := before ++ after, timerState := hydrate answer s.timerState }
  | lose {s sent answers} (hsent : sent.Sublist s.sent) (hanswers : answers.Sublist s.answers) :
      Step gameID s .lose { s with sent, answers }

def TimerStatePayload.ofState (state : TimerState) : TimerStatePayload :=
  ⟨state.gameID, state.players, state.activeTurn, some state.turnLimitMs⟩

theorem ofJson_marshal_info (info : PlayerTimerInfo) :
    PlayerTimerInfo.ofJson info.marshal = some info := rfl

theorem ofJson_marshal (state : TimerState) : ofJson state.marshal =
    if state.players = [] then none else some (ofState state) := by
  have hinfos (infos : List PlayerTimerInfo) :
      (infos.map PlayerTimerInfo.marshal).mapM PlayerTimerInfo.ofJson = some infos := by
    induction infos with
    | nil => rfl
    | cons info infos ih => simp [ofJson_marshal_info, ih]
  by_cases hnil : state.players = []
  · simp [ofJson, TimerState.marshal, Json.property, hnil, Json.elements]
  · simp [ofJson, TimerState.marshal, Json.property, hnil, Json.elements, hinfos, number, ofState]

section States

variable {gameID startingTurn turnOrder userID : ℤ} {players : List Player} {started now : Time}
  {since : List TimerAct} {state : TimerState}

def timeLeft (gameID : ℤ) (startingTurn : ℤ) (started : Time) (since : List TimerAct) (now : Time)
    (turnOrder : ℤ) : ℤ :=
  if turnOrder = (turnSince gameID startingTurn started since).1 then
    milliseconds (max ((turnSince gameID startingTurn started since).2 + turnTimeLimit - now) 0)
  else 0

/-- What the page shows while it has a state: for each player the time left to the lowest of their
seats, and whether they are gone. -/
structure TimerStatePayload.Shows (clock : TimerStatePayload) (gameID : ℤ) (players : List Player)
    (startingTurn : ℤ) (started : Time) (since : List TimerAct) (now : Time) : Prop where
  seated : ∀ turnOrder userID, lastSeated players turnOrder = some userID →
    (∀ other, lastSeated players other = some userID → turnOrder ≤ other) →
    clock.playerClock userID = some (toString
      ⌈(timeLeft gameID startingTurn started since now turnOrder : ℚ) / 1000⌉ ++ "s") ∧
    (clock.isPlayerDisconnected userID = true ↔ Disconnected userID since)
  others : ∀ userID, (∀ turnOrder, lastSeated players turnOrder ≠ some userID) →
    clock.playerClock userID = none ∧ clock.isPlayerDisconnected userID = false

end States

namespace Timekeeping

section Runs

variable {gameID : ℤ} {s s' : Timekeeping} {act : ClockAct} {V : Set Timekeeping}

/-- The timers are those of what they have been told, all of it up to now. -/
structure Sound (s : Timekeeping) : Prop where
  timers : s.timers = .after s.told
  past : ∀ act ∈ s.told, ∀ t ∈ act.time?, t ≤ s.now

theorem Sound.step (h : s.Sound) (hstep : Step gameID s act s') : s'.Sound := by
  cases hstep with
  | wait hle => exact ⟨h.timers, fun act hact t ht => (h.past act hact t ht).trans hle⟩
  | @tell act hnow =>
    constructor
    · change s.timers.perform act = _
      rw [h.timers, SeatedTimers.after_append_singleton]
    · intro a ha t ht
      rcases List.mem_append.mp ha with hold | hnew
      · exact h.past a hold t ht
      · obtain rfl := List.mem_singleton.mp hnew
        exact (hnow t ht).le
  | publish | fetch | deliver | answer | lose => exact ⟨h.timers, h.past⟩

def MadeIn (V : Set Timekeeping) (gameID : ℤ) (state : TimerState) : Prop :=
  ∃ m ∈ V, m.timers.getTimerState m.now gameID = some state

/-- What is on its way, and what has come, are states of the timers at some of the moments. -/
structure Kept (V : Set Timekeeping) (gameID : ℤ) (s : Timekeeping) : Prop where
  sent : ∀ message ∈ s.sent, ∃ game state, MadeIn V game state ∧ message = publishTimerState state
  answers : ∀ v, some v ∈ s.answers → ∃ state, MadeIn V gameID state ∧ v = state.marshal
  timerState : ∀ clock, s.timerState = some clock → ∃ state, MadeIn V gameID state ∧
    clock = (ofState state).normalizeTimerPayload

theorem MadeIn.told {state : TimerState} (hV : ∀ m ∈ V, m.Sound) (h : MadeIn V gameID state) :
    ∃ m ∈ V, isRunning gameID m.told = true ∧ ∃ players startingTurn started since,
      InForce gameID m.told players startingTurn started since ∧
        state.Of gameID players startingTurn started since m.now := by
  obtain ⟨m, hm, hstate⟩ := h
  have hafter := SeatedTimers.getTimerState_after gameID m.told m.now
  rw [← (hV m hm).timers, hstate] at hafter
  exact ⟨m, hm, hafter⟩

theorem gameTopic_injective : Function.Injective gameTopic := by
  intro a b h
  simpa [gameTopic, Int.repr_inj] using h

theorem receive_publishTimerState {game : ℤ} {state : TimerState} (hgame : state.gameID = game)
    (timerState : Option TimerStatePayload) :
    receive gameID (publishTimerState state) timerState =
      if game ≠ gameID then some timerState
      else if state.players = [] then none
      else some (some (ofState state).normalizeTimerPayload) := by
  subst hgame
  have htopic : gameTopic state.gameID = gameTopic gameID ↔ state.gameID = gameID :=
    gameTopic_injective.eq_iff
  by_cases hgame : state.gameID = gameID
  · simp only [receive, publishTimerState, hgame, ofJson_marshal]
    split_ifs <;> simp_all
  · simp [receive, publishTimerState, htopic, hgame]

theorem Kept.step (h : s.Kept V gameID) (hV : ∀ m ∈ V, m.Sound) (hs : s ∈ V)
    (hstep : Step gameID s act s') : s'.Kept V gameID := by
  cases hstep with
  | wait | tell => exact ⟨h.sent, h.answers, h.timerState⟩
  | @publish game state hstate =>
    refine ⟨fun message hmessage => ?_, h.answers, h.timerState⟩
    rcases List.mem_append.mp hmessage with hold | hnew
    · exact h.sent message hold
    · exact ⟨game, state, ⟨s, hs, hstate⟩, List.mem_singleton.mp hnew⟩
  | fetch =>
    refine ⟨h.sent, fun v hv => ?_, h.timerState⟩
    rcases List.mem_append.mp hv with hold | hnew
    · exact h.answers v hold
    · obtain ⟨state, hstate, rfl⟩ := Option.map_eq_some_iff.mp (List.mem_singleton.mp hnew).symm
      exact ⟨state, ⟨s, hs, hstate⟩, rfl⟩
  | @deliver before message after hsent =>
    have hsub : before ++ after ⊆ s.sent := by
      rw [hsent]
      exact ((List.sublist_cons_self message after).append_left before).subset
    refine ⟨fun message hmessage => h.sent message (hsub hmessage), h.answers, ?_⟩
    obtain ⟨game, state, hmade, rfl⟩ := h.sent message (by simp [hsent])
    obtain ⟨_, _, _, _, _, _, _, _, hof⟩ := hmade.told hV
    intro clock hclock
    dsimp only at hclock
    rw [receive_publishTimerState hof.gameID] at hclock
    split_ifs at hclock with hgame hplayers
    · exact h.timerState clock hclock
    · exact h.timerState clock hclock
    · obtain rfl := not_not.mp hgame
      exact ⟨state, hmade, (Option.some.inj hclock).symm⟩
  | @answer before answer after hanswers =>
    have hsub : before ++ after ⊆ s.answers := by
      rw [hanswers]
      exact ((List.sublist_cons_self answer after).append_left before).subset
    refine ⟨h.sent, fun v hv => h.answers v (hsub hv), fun clock hclock => ?_⟩
    dsimp only at hclock
    cases answer with
    | none => cases hclock
    | some v =>
      obtain ⟨state, hmade, rfl⟩ := h.answers v (by simp [hanswers])
      simp only [hydrate, ofJson_marshal] at hclock
      split_ifs at hclock with hplayers
      · exact h.timerState clock hclock
      · exact ⟨state, hmade, (Option.some.inj hclock).symm⟩
  | lose hsent hanswers =>
    exact ⟨fun message hmessage => h.sent message (hsent.subset hmessage),
      fun v hv => h.answers v (hanswers.subset hv), h.timerState⟩

end Runs

def start (now : Time) : Timekeeping := { now }

theorem kept_start (V : Set Timekeeping) (gameID : ℤ) (now : Time) :
    (start now).Kept V gameID :=
  ⟨nofun, nofun, nofun⟩

end Timekeeping

end Web

end DotsAndBoxes
