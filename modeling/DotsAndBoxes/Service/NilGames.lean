import DotsAndBoxes.Service.Failures

/-! # Nil games

The repository loads a game without events as a nil game and reports no error. The requests
check the error only, so they go on to dereference the game, and a panic on the goroutine of a
timer stops the process.
-/

namespace DotsAndBoxes

theorem bind_eq_error {α β : Type} {x : MayPanic α} {f : α → MayPanic β} {p : Panic} :
    (x >>= f) = .error p ↔ x = .error p ∨ ∃ a, x = .ok a ∧ f a = .error p := by
  cases x with
  | error p => simp
  | ok a => simp

@[simp] theorem panicking_ne_nilGame {α : Type} (x : Exec α) :
    panicking x ≠ .error .nilGame := by
  cases x with
  | none => simp
  | some a => simp

theorem length_of_mapM_load {gameID : ℤ} {rows : List EventRow} {events : List DomainEvent}
    (h : rows.mapM (EventRow.load gameID) = .ok events) : events.length = rows.length := by
  induction rows generalizing events with
  | nil =>
    cases h
    rfl
  | cons row rows ih =>
    rw [List.mapM_cons] at h
    cases hrow : row.load gameID with
    | error e => simp [hrow, bind, Except.bind] at h
    | ok event =>
      cases hrows : rows.mapM (EventRow.load gameID) with
      | error e => simp [hrow, hrows, bind, Except.bind] at h
      | ok rest =>
        rw [hrow, hrows] at h
        obtain rfl := Except.ok.inj h
        simp [ih hrows]

namespace Database

theorem loadEvents_nil (db : Database) (gameID : ℤ) : db.loadEvents gameID [] = .ok [] := by
  rw [loadEvents, (db.perm []).eq_nil]
  rfl

theorem findByID_eq_nil_iff (db : Database) (gameID : ℤ) (rows : List EventRow) :
    db.findByID gameID rows = some (.ok none) ↔ rows = [] := by
  constructor
  · intro h
    unfold findByID at h
    cases hload : db.loadEvents gameID rows with
    | error e => simp [hload] at h
    | ok events =>
      have hlength := (length_of_mapM_load hload).trans (db.perm rows).length_eq
      rw [hload] at h
      dsimp only at h
      split at h
      · obtain ⟨g, -, hg⟩ := Option.map_eq_some_iff.mp h
        cases Except.ok.inj hg
      case isFalse hnone => exact List.eq_nil_of_length_eq_zero (by omega)
  · rintro rfl
    simp [findByID, loadEvents_nil]

end Database

namespace GameService

variable {db : Database} {faults : Faults} {gameID : ℤ} {s : GameService} {ρ : Type}
  {saving : String} {change : Mutation ρ}

inductive Call where
  | getGame
  | request (q : Request)
  deriving DecidableEq, Repr

/-- The call is for a move on no edge. It returns before it looks for the game. -/
def Call.namesNoEdge : Call → Bool
  | .request (.makeMove _ _ _ _ edge) => !(parseEdge edge).toBool
  | _ => false

/-- The call works on a game that is not nil or returns an error. -/
def NilSafe (db : Database) (faults : Faults) (gameID : ℤ) (s : GameService) : Call → Prop
  | .getGame => s.getGame db faults gameID ≠ .ok (.ok none)
  | .request q => s.request db faults gameID q ≠ .error .nilGame

/-- The repository returns a nil game when it can load the events and there are none. -/
theorem findByID_eq_nil_iff : s.findByID db faults gameID = .ok (.ok none) ↔
    faults.load = false ∧ s.events gameID = [] := by
  unfold findByID
  cases faults.load with
  | true => simp
  | false =>
    rw [if_neg Bool.false_ne_true, and_iff_right rfl, ← db.findByID_eq_nil_iff gameID]
    rcases db.findByID gameID (s.events gameID) with _ | e | g
    · simp [Except.map]
    · simp [Except.map, Except.mapError]
    · simp [Except.map, Except.mapError]

theorem findByID_ne_nilGame : s.findByID db faults gameID ≠ .error .nilGame := by
  unfold findByID
  split
  · simp
  · cases db.findByID gameID (s.events gameID) <;> simp [Except.map]

/-- A change dereferences a nil game when it is not on a bot game and the repository has
returned one. -/
theorem mutate_eq_nilGame_iff : s.mutate db faults gameID saving change = .error .nilGame ↔
    s.bots.botGames gameID = none ∧ s.findByID db faults gameID = .ok (.ok none) := by
  unfold mutate
  split
  case h_1 g hgame =>
    rw [hgame]
    refine iff_of_false ?_ (by simp)
    rw [bind_eq_error]
    rintro (h | ⟨⟨g', result⟩, -, h⟩)
    · exact panicking_ne_nilGame _ h
    · cases result <;> cases h
  case h_2 hgame =>
    rw [and_iff_right hgame, bind_eq_error, or_iff_right findByID_ne_nilGame]
    constructor
    · rintro ⟨loaded, hload, h⟩
      rcases loaded with e | _ | g
      · cases h
      · exact hload
      · dsimp only at h
        rw [deref_some, ok_bind, bind_eq_error] at h
        rcases h with h | ⟨⟨g', result⟩, -, h⟩
        · exact absurd h (panicking_ne_nilGame _)
        · cases result with
          | error e => cases h
          | ok result =>
            dsimp only at h
            split at h <;> cases h
    · intro hload
      exact ⟨_, hload, rfl⟩

theorem followUp_ne_nilGame {isBotGame : Bool} {now : Time} {previousTurn : ℤ} {g : Game}
    {result : MoveResult} : s.followUp isBotGame now previousTurn g result ≠ .error .nilGame := by
  intro h
  rcases bind_eq_error.mp h with h | ⟨id, -, h⟩
  · exact panicking_ne_nilGame _ h
  · dsimp only at h
    split at h <;> cases h

theorem forfeitFollowUp_ne_nilGame {g : Game} : s.forfeitFollowUp g ≠ .error .nilGame := by
  intro h
  rcases bind_eq_error.mp h with h | ⟨id, -, h⟩
  · exact panicking_ne_nilGame _ h
  · cases h

theorem operate_eq_nilGame_iff {follow : ℤ → Game → ρ → GameService → MayPanic GameService}
    (hfollow : ∀ previousTurn g result s, follow previousTurn g result s ≠ .error .nilGame) :
    s.operate db faults gameID saving change follow = .error .nilGame ↔
    s.bots.botGames gameID = none ∧ faults.load = false ∧ s.events gameID = [] := by
  have hmutate : s.mutate db faults gameID saving change = .error .nilGame ↔
      s.bots.botGames gameID = none ∧ faults.load = false ∧ s.events gameID = [] := by
    rw [← findByID_eq_nil_iff, mutate_eq_nilGame_iff]
  rw [← hmutate, operate, bind_eq_error, or_iff_left]
  rintro ⟨⟨s', result⟩, -, h⟩
  rcases result with e | ⟨previousTurn, g, result⟩
  · cases h
  · rcases bind_eq_error.mp h with h | ⟨s'', -, h⟩
    · exact hfollow _ _ _ _ h
    · cases h

/-- The calls for a game work on one that is not nil, or return an error, exactly when they return
before they look for it, or it is a bot game, or its events cannot be queried, or it has
events. -/
theorem nilSafe_iff (db : Database) (faults : Faults) (gameID : ℤ) (s : GameService)
    (call : Call) : s.NilSafe db faults gameID call ↔
    call.namesNoEdge = true ∨ s.bots.isBotGame gameID = true ∨ faults.load = true ∨
      s.events gameID ≠ [] := by
  have hiff : ¬ (s.bots.botGames gameID = none ∧ faults.load = false ∧ s.events gameID = []) ↔
      s.bots.isBotGame gameID = true ∨ faults.load = true ∨ s.events gameID ≠ [] := by
    rw [BotService.isBotGame, Option.isSome_iff_ne_none]
    cases faults.load <;> simp [imp_iff_not_or]
  cases call with
  | getGame =>
    have hnames : Call.getGame.namesNoEdge = false := rfl
    rw [← hiff, hnames, NilSafe, getGame]
    cases hgame : s.bots.botGames gameID with
    | some g => simp
    | none => simp [findByID_eq_nil_iff]
  | request q =>
    cases q with
    | makeMove now playerID row col edge =>
      rw [NilSafe, request, makeMove, Call.namesNoEdge]
      cases parseEdge edge with
      | error e => simp [Except.toBool]
      | ok edge =>
        dsimp only
        rw [Ne, operate_eq_nilGame_iff fun _ _ _ _ => followUp_ne_nilGame, hiff]
        simp [Except.toBool]
    | passTurnOnTimeout now =>
      rw [NilSafe, request, passTurnOnTimeout, Ne,
        operate_eq_nilGame_iff fun _ _ _ _ => followUp_ne_nilGame, hiff]
      simp [Call.namesNoEdge]
    | forfeitGame now playerID =>
      rw [NilSafe, request, forfeitGame, Ne,
        operate_eq_nilGame_iff fun _ _ _ _ => forfeitFollowUp_ne_nilGame, hiff]
      simp [Call.namesNoEdge]

def booted : GameService where
  toServer := .boot 1 fun _ => []
  projections _ := none
  bus := []
  botLoops := []

/-- A bot game is forgotten when the service starts again. Then each request for it dereferences a
nil game, and it is read as a nil game. -/
theorem forgotten_game_is_nil :
    booted.request .byInsertion .none 10000 (.makeMove 0 7 0 0 "top") = .error .nilGame ∧
    booted.request .byInsertion .none 10000 (.passTurnOnTimeout 0) = .error .nilGame ∧
    booted.request .byInsertion .none 10000 (.forfeitGame 0 7) = .error .nilGame ∧
    booted.getGame .byInsertion .none 10000 = .ok (.ok none) ∧
    ¬ ∀ gameID call, booted.NilSafe .byInsertion .none gameID call :=
  ⟨rfl, rfl, rfl, rfl, fun h => h 10000 .getGame rfl⟩

end GameService

end DotsAndBoxes
