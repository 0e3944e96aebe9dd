import DotsAndBoxes.Game.Store
import DotsAndBoxes.Library.Simulation

/-! # Replay

A command raises events and changes the state by nothing else, and an event
changes what games are compared by in a way its type and payload determine. So an
aggregate rebuilt from the stored events answers each command as the aggregate
that executed all earlier commands does.
-/

namespace DotsAndBoxes

open Slices Simulation

/-- What games are compared by: the state but for timestamps and recorded events. -/
structure View where
  gameID : Option ℤ
  boardSize : ℤ
  currentTurn : ℤ
  winnerID : Option ℤ
  ended : Bool
  players : List Player
  grid : List (List Box)
  version : ℤ
  deriving DecidableEq, Repr

namespace Game

def view (g : Game) : View where
  gameID := g.gameID
  boardSize := g.boardSize
  currentTurn := g.currentTurn
  winnerID := g.winnerID
  ended := g.endedAt.isSome
  players := g.players
  grid := g.grid
  version := g.version

def SameView (g h : Game) : Prop := g.view = h.view

variable {g g' h h' : Game} {now : Time}

theorem SameView.applyEvent (hsame : SameView g h) {event event' : DomainEvent}
    (htype : event.type = event'.type) (hpayload : event.payload = event'.payload) :
    Option.Rel SameView (g.applyEvent event) (h.applyEvent event') := by
  obtain ⟨_, version, gameID, boardSize, turn, winner, _, endedAt, players, grid⟩ := g
  obtain ⟨_, _, _, _, _, _, _, endedAt', _, _⟩ := h
  obtain ⟨type, _, _, _, payload⟩ := event
  obtain ⟨_, _, _, _, _⟩ := event'
  simp only [SameView, view, View.mk.injEq] at hsame htype hpayload
  obtain ⟨rfl, rfl, rfl, rfl, hended, rfl, rfl, rfl⟩ := hsame
  subst htype hpayload
  cases type <;> cases payload <;>
    try exact .some (by simp [SameView, view, incrementVersion, hended])
  case gameCreated.gameCreated p =>
    apply rel_bind_self
    intro grid
    exact .some (by simp [SameView, view, incrementVersion, hended])
  case moveApplied.moveApplied p =>
    refine rel_bind (R := SameView) (rel_bind_self fun grid => ?_) ?_
    · exact .some (by simp [SameView, view, hended])
    · intro g h hsame
      exact .some (by simpa [SameView, view, incrementVersion] using hsame)
  case boxCompleted.boxCompleted p =>
    apply rel_bind_self
    intro grid
    apply rel_bind_self
    intro players
    exact .some (by simp [SameView, view, incrementVersion, hended])

theorem SameView.recordEvent (hsame : SameView g h) (event event' : DomainEvent) :
    SameView (g.recordEvent event) (h.recordEvent event') := hsame

theorem SameView.raise (hsame : SameView g h) (eventType : EventType) (payload : Payload) :
    Option.Rel SameView (g.raise now eventType payload) (h.raise now eventType payload) :=
  rel_bind (hsame.applyEvent rfl rfl) fun _ _ hs => .some (hs.recordEvent _ _)

theorem SameView.validateMove (hsame : SameView g h) (move : Move) :
    g.validateMove move = h.validateMove move := by
  obtain ⟨_, version, gameID, boardSize, turn, winner, _, endedAt, players, grid⟩ := g
  obtain ⟨_, _, _, _, _, _, _, endedAt', _, _⟩ := h
  simp only [SameView, view, View.mk.injEq] at hsame
  obtain ⟨rfl, rfl, rfl, rfl, hended, rfl, rfl, rfl⟩ := hsame
  simp only [Game.validateMove, hended]
  rfl

theorem SameView.findNewlyCompletedBoxes (hsame : SameView g h) (move : Move) :
    g.findNewlyCompletedBoxes move = h.findNewlyCompletedBoxes move := by
  obtain ⟨_, version, gameID, boardSize, turn, winner, _, endedAt, players, grid⟩ := g
  obtain ⟨_, _, _, _, _, _, _, endedAt', _, _⟩ := h
  simp only [SameView, view, View.mk.injEq] at hsame
  obtain ⟨rfl, rfl, rfl, rfl, hended, rfl, rfl, rfl⟩ := hsame
  rfl

theorem SameView.raiseAll (hsame : SameView g h) (payloads : List Payload) :
    Option.Rel SameView (g.raiseAll now payloads) (h.raiseAll now payloads) :=
  rel_foldlM (P := Eq) (fun _ _ _ _ hs hp => hp ▸ hs.raise _ _)
    ((List.forall₂_eq_eq_eq (α := Payload)).symm ▸ rfl) hsame

theorem SameView.passTurn (hsame : SameView g h) :
    Option.Rel SameView (g.passTurn now) (h.passTurn now) := by
  have hnext : g.nextTurn = h.nextTurn := by
    have hturn := congrArg View.currentTurn hsame
    have hplayers := congrArg View.players hsame
    simp only [view] at hturn hplayers
    rw [Game.nextTurn, Game.nextTurn, hturn, hplayers]
  rw [Game.passTurn, Game.passTurn, hnext]
  apply rel_bind_self
  intro next
  exact hsame.raise _ _

/-- Results that leave games of the same view with the same answer. -/
def SameResult {α : Type} (a b : Game × α) : Prop := SameView a.1 b.1 ∧ a.2 = b.2

theorem SameView.endIfOver (hsame : SameView g h) (boxes : List Box) :
    Option.Rel SameResult (g.endIfOver now boxes) (h.endIfOver now boxes) := by
  have hturn : g.currentTurn = h.currentTurn := congrArg View.currentTurn hsame
  have hplayers : g.players = h.players := congrArg View.players hsame
  have hsize : g.boardSize = h.boardSize := congrArg View.boardSize hsame
  have hgrid : g.grid = h.grid := congrArg View.grid hsame
  have hover : g.isGameOver = h.isGameOver := by
    rw [Game.isGameOver, Game.isGameOver, hsize, hgrid]
  have hwinner : g.determineWinner = h.determineWinner := by
    rw [Game.determineWinner, Game.determineWinner, hplayers]
  rw [Game.endIfOver, Game.endIfOver, hover, hwinner, hturn]
  apply rel_bind_self
  intro complete
  cases complete with
  | false => exact .some ⟨hsame, rfl⟩
  | true =>
    rw [if_pos rfl, if_pos rfl]
    exact rel_bind (hsame.raise _ _) fun _ _ hs => .some ⟨hs, rfl⟩

theorem SameView.applyMove (hsame : SameView g h) (move : Move) :
    Option.Rel SameResult (g.applyMove now move) (h.applyMove now move) := by
  rw [Game.applyMove, Game.applyMove, hsame.validateMove]
  apply rel_bind_self
  intro valid
  cases valid with
  | error err => exact .some ⟨hsame, rfl⟩
  | ok _ =>
    apply rel_bind (hsame.raise _ _)
    intro g₁ h₁ hsame₁
    rw [hsame₁.findNewlyCompletedBoxes]
    apply rel_bind_self
    intro boxes
    simp only [raiseCompleted_eq]
    apply rel_bind (hsame₁.raiseAll _)
    intro g₂ h₂ hsame₂
    have hpass : Option.Rel SameView (g₂.passUnlessCompleted now boxes)
        (h₂.passUnlessCompleted now boxes) := by
      unfold Game.passUnlessCompleted
      split
      · exact hsame₂.passTurn
      · exact .some hsame₂
    apply rel_bind hpass
    intro g₃ h₃ hsame₃
    apply rel_bind (hsame₃.endIfOver boxes)
    rintro ⟨g₄, result⟩ ⟨h₄, _⟩ ⟨hsame₄, rfl⟩
    exact .some ⟨hsame₄, rfl⟩

theorem SameView.passTurnOnTimeout (hsame : SameView g h) :
    Option.Rel SameResult (g.passTurnOnTimeout now) (h.passTurnOnTimeout now) := by
  have hended : g.hasEnded = h.hasEnded := congrArg View.ended hsame
  rw [Game.passTurnOnTimeout, Game.passTurnOnTimeout, hended]
  split
  · exact .some ⟨hsame, rfl⟩
  · apply rel_bind hsame.passTurn
    intro g₁ h₁ hsame₁
    apply rel_bind (hsame₁.endIfOver [])
    rintro ⟨g₂, result⟩ ⟨h₂, _⟩ ⟨hsame₂, rfl⟩
    exact .some ⟨hsame₂, rfl⟩

theorem SameView.forfeit (hsame : SameView g h) (playerID : ℤ) :
    Option.Rel SameView (g.forfeit now playerID) (h.forfeit now playerID) := by
  have hplayers : g.players = h.players := congrArg View.players hsame
  rw [Game.forfeit, Game.forfeit, hplayers]
  exact hsame.raise _ _

/-- The game becomes the other by raising payloads, none of which creates a game. -/
def Raises (now : Time) (g g' : Game) : Prop :=
  ∃ payloads, (∀ p, .gameCreated p ∉ payloads) ∧ g.raiseAll now payloads = some g'

theorem Raises.refl (g : Game) : Raises now g g := ⟨[], by simp, rfl⟩

theorem Raises.trans {g₁ g₂ g₃ : Game} (h : Raises now g₁ g₂) (h' : Raises now g₂ g₃) :
    Raises now g₁ g₃ := by
  obtain ⟨ps, hps, hraise⟩ := h
  obtain ⟨qs, hqs, hraise'⟩ := h'
  refine ⟨ps ++ qs, fun p hp => ?_, by rw [raiseAll_append, hraise]; exact hraise'⟩
  exact (List.mem_append.mp hp).elim (hps p) (hqs p)

theorem Raises.gameID (h : Raises now g g') : g'.gameID = g.gameID := by
  obtain ⟨payloads, hcreated, hraise⟩ := h
  exact (raiseAll_records hcreated hraise).2.2

theorem raises_of_raise (payload : Payload) (hcreated : ∀ p, payload ≠ .gameCreated p)
    (h : g.raise now payload.type payload = some g') : Raises now g g' :=
  ⟨[payload], fun p hp => hcreated p (List.mem_singleton.mp hp).symm,
    by rw [raiseAll_cons, h]; rfl⟩

theorem raises_of_passTurn (h : g.passTurn now = some g') : Raises now g g' := by
  obtain ⟨next, -, h⟩ := Option.bind_eq_some_iff.mp h
  exact raises_of_raise (.turnPassed ⟨next⟩) (by simp) h

theorem raises_of_endIfOver {boxes : List Box} {result : MoveResult}
    (h : g.endIfOver now boxes = some (g', result)) : Raises now g g' := by
  rcases (endIfOver_eq_some h).2 with ⟨rfl, -⟩ | ⟨hraise, -⟩
  · exact .refl g'
  · exact raises_of_raise (.gameEnded ⟨g.determineWinner⟩) (by simp) hraise

theorem raises_of_applyMove {move : Move} {result : Except MoveError MoveResult}
    (h : g.applyMove now move = some (g', result)) : Raises now g g' := by
  cases result with
  | error err =>
    obtain rfl := applyMove_eq_error h
    exact .refl g'
  | ok result =>
    obtain ⟨g₁, boxes, g₂, g₃, -, hmoved, -, hcompleted, hpassed, hended⟩ := applyMove_eq_ok h
    have h₁ : Raises now g g₁ := raises_of_raise (.moveApplied _) (by simp) hmoved
    have h₂ : Raises now g₁ g₂ :=
      ⟨_, by simp, (raiseCompleted_eq now move.turnOrder g₁ boxes).symm.trans hcompleted⟩
    have h₃ : Raises now g₂ g₃ := by
      unfold Game.passUnlessCompleted at hpassed
      split at hpassed
      · exact raises_of_passTurn hpassed
      · obtain rfl := Option.some.inj hpassed
        exact .refl g₂
    exact ((h₁.trans h₂).trans h₃).trans (raises_of_endIfOver hended)

theorem raises_of_passTurnOnTimeout {result : Except MoveError MoveResult}
    (h : g.passTurnOnTimeout now = some (g', result)) : Raises now g g' := by
  unfold Game.passTurnOnTimeout at h
  split at h
  · obtain ⟨rfl, -⟩ := Prod.mk.inj (Option.some.inj h)
    exact .refl g
  · obtain ⟨g₁, hpassed, h⟩ := Option.bind_eq_some_iff.mp h
    obtain ⟨⟨g₂, r⟩, hended, h⟩ := Option.bind_eq_some_iff.mp h
    obtain ⟨rfl, -⟩ := Prod.mk.inj (Option.some.inj h)
    exact (raises_of_passTurn hpassed).trans (raises_of_endIfOver hended)

theorem raises_of_forfeit {playerID : ℤ} (h : g.forfeit now playerID = some g') :
    Raises now g g' :=
  raises_of_raise (.gameForfeited _) (by simp) h

end Game

/-- A command with its time. A forfeit is guarded by the end of the game. -/
inductive Command where
  | applyMove (now : Time) (move : Move)
  | passTurnOnTimeout (now : Time)
  | forfeit (now : Time) (playerID : ℤ)
  deriving DecidableEq, Repr

/-- What a command answers: an error, or the result of a move or a pass. -/
abbrev Reply := Except MoveError (Option MoveResult)

/-- A forfeit as callers make it: only while no end is recorded. -/
def Game.guardedForfeit (now : Time) (g : Game) (playerID : ℤ) : Exec (Game × Reply) :=
  if g.endedAt.isSome then some (g, .error .gameEnded)
  else (g.forfeit now playerID).map fun g => (g, .ok none)

def Game.execute : Command → Game → Exec (Game × Reply)
  | .applyMove now move, g => (g.applyMove now move).map fun (g, result) => (g, result.map some)
  | .passTurnOnTimeout now, g =>
    (g.passTurnOnTimeout now).map fun (g, result) => (g, result.map some)
  | .forfeit now playerID, g => g.guardedForfeit now playerID

open Game

variable {g g' h : Game}

theorem Game.SameView.execute (hsame : SameView g h) (c : Command) :
    Option.Rel SameResult (g.execute c) (h.execute c) := by
  cases c with
  | applyMove now move =>
    exact rel_map (hsame.applyMove move) fun _ _ hs => ⟨hs.1, congrArg (Except.map some) hs.2⟩
  | passTurnOnTimeout now =>
    exact rel_map hsame.passTurnOnTimeout fun _ _ hs => ⟨hs.1, congrArg (Except.map some) hs.2⟩
  | forfeit now playerID =>
    have hended : g.endedAt.isSome = h.endedAt.isSome := congrArg View.ended hsame
    change Option.Rel _ (g.guardedForfeit now playerID) (h.guardedForfeit now playerID)
    rw [Game.guardedForfeit, Game.guardedForfeit, hended]
    split
    · exact .some ⟨hsame, rfl⟩
    · exact rel_map (hsame.forfeit playerID) fun _ _ hs => ⟨hs, rfl⟩

theorem raises_of_execute {c : Command} {reply : Reply} (h : g.execute c = some (g', reply)) :
    ∃ now, Raises now g g' := by
  cases c with
  | applyMove now move =>
    obtain ⟨⟨g₁, result⟩, hmove, heq⟩ := Option.map_eq_some_iff.mp h
    obtain ⟨rfl, -⟩ := Prod.mk.inj heq
    exact ⟨now, raises_of_applyMove hmove⟩
  | passTurnOnTimeout now =>
    obtain ⟨⟨g₁, result⟩, hpass, heq⟩ := Option.map_eq_some_iff.mp h
    obtain ⟨rfl, -⟩ := Prod.mk.inj heq
    exact ⟨now, raises_of_passTurnOnTimeout hpass⟩
  | forfeit now playerID =>
    change g.guardedForfeit now playerID = _ at h
    unfold Game.guardedForfeit at h
    split at h
    · obtain ⟨rfl, -⟩ := Prod.mk.inj (Option.some.inj h)
      exact ⟨now, .refl g⟩
    · obtain ⟨g₁, hforfeit, heq⟩ := Option.map_eq_some_iff.mp h
      obtain ⟨rfl, -⟩ := Prod.mk.inj heq
      exact ⟨now, raises_of_forfeit hforfeit⟩

/-- The recorded events replay to the game itself. -/
def Game.Replays (g : Game) : Prop := loadFromEvents g.uncommittedEvents = some g.clearEvents

theorem applyEvent_clearEvents (g : Game) (event : DomainEvent) :
    g.clearEvents.applyEvent event = (g.applyEvent event).map clearEvents := by
  obtain ⟨type, _, _, _, payload⟩ := event
  cases type <;> cases payload <;> try rfl
  case gameCreated.gameCreated p =>
    cases hgrid : makeEmptyGrid p.boardSize <;>
      simp [Game.applyEvent, hgrid, clearEvents, incrementVersion]
  case moveApplied.moveApplied p =>
    cases hgrid : markEdge g.grid g.boardSize p.row p.col (.ofString p.edge) <;>
      simp [Game.applyEvent, setEdge, hgrid, clearEvents, incrementVersion]
  case boxCompleted.boxCompleted p =>
    cases hgrid : modify2? g.grid p.row p.col
        fun box => { box with ownerTurn := some p.ownerTurn } <;>
      cases hplayers : modify? g.players p.ownerTurn
          fun player => { player with score := player.score + 1 } <;>
        simp [Game.applyEvent, hgrid, hplayers, clearEvents, incrementVersion]

theorem Game.Replays.raise (h : g.Replays) {p : Payload}
    (hraise : g.raise now p.type p = some g') : g'.Replays := by
  obtain ⟨g₁, happly, rfl⟩ := raise_eq_some hraise
  have hevents : g₁.uncommittedEvents = g.uncommittedEvents := (applyEvent_frame rfl happly).1
  have hfold : List.foldlM Game.applyEvent {} g.uncommittedEvents = some g.clearEvents := h
  change List.foldlM Game.applyEvent {} (g₁.uncommittedEvents ++ [_]) = _
  rw [hevents, List.foldlM_append, hfold]
  simp only [Option.bind_eq_bind, Option.bind_some, List.foldlM_cons, List.foldlM_nil]
  rw [applyEvent_clearEvents, happly]
  rfl

theorem Game.Replays.raiseAll (h : g.Replays) {payloads : List Payload}
    (hraise : g.raiseAll now payloads = some g') : g'.Replays := by
  refine raiseAll_induction h ?_ hraise
  intro p _ g g' hg hfirst
  exact hg.raise hfirst

theorem replays_newGame {gameID : Option ℤ} {boardSize : ℤ} {players : List Player}
    (hnew : newGame now gameID boardSize players = some g) : g.Replays := by
  have hempty : ({} : Game).Replays := rfl
  exact hempty.raise (p := .gameCreated ⟨gameID.getD 0, boardSize, players⟩) hnew

/-- The game is rebuilt by the other, which has raised nothing. -/
structure Rebuilt (g h : Game) : Prop where
  sameView : SameView g h
  clean : h.uncommittedEvents = []

theorem Rebuilt.applyEvent (hr : Rebuilt g h) (now : Time) {payload : Payload}
    {event : DomainEvent} (htype : event.type = event.payload.type)
    (hpayload : event.payload = payload) :
    Option.Rel Rebuilt (g.raise now payload.type payload) (h.applyEvent event) := by
  subst hpayload
  rw [raise_eq, ← Option.map_id' (x := h.applyEvent event)]
  refine rel_map_of_eq_some (hr.sameView.applyEvent htype.symm rfl) fun g₁ h₁ _ happly hsame => ?_
  exact ⟨hsame, (applyEvent_frame htype happly).1.trans hr.clean⟩

theorem Rebuilt.replay (hr : Rebuilt g h) (now : Time) {payloads : List Payload}
    {domainEvents : List DomainEvent}
    (hevents : List.Forall₂ (fun p e => e.type = e.payload.type ∧ e.payload = p) payloads
      domainEvents) :
    Option.Rel Rebuilt (g.raiseAll now payloads) (domainEvents.foldlM Game.applyEvent h) :=
  rel_foldlM (fun _ _ _ _ hr he => hr.applyEvent now he.1 he.2) hevents hr

def Database.loaded (db : Database) (gameID : ℤ) (event : DomainEvent) : DomainEvent :=
  { event with
    occurredAt := db.precision event.occurredAt
    aggregateID := toString gameID }

theorem load_row (db : Database) (gameID : ℤ) {event : DomainEvent}
    (htype : event.type = event.payload.type) :
    (db.row event).load gameID = .ok (db.loaded gameID event) := by
  have hread := deserializePayload_marshal event.payload
  rw [← htype] at hread
  have hname : EventType.ofString event.type.toString = event.type := by
    rw [htype, Payload.ofString_toString_type]
  simp only [EventRow.load, Database.row, hread, hname]
  rfl

theorem mapM_load_row (db : Database) (gameID : ℤ) {domainEvents : List DomainEvent}
    (htypes : ∀ e ∈ domainEvents, e.type = e.payload.type) :
    (domainEvents.map db.row).mapM (EventRow.load gameID) =
      .ok (domainEvents.map (db.loaded gameID)) := by
  induction domainEvents with
  | nil => rfl
  | cons e es ih =>
    rw [List.map_cons, List.mapM_cons, load_row db gameID (htypes e List.mem_cons_self),
      ih fun e' he => htypes e' (List.mem_cons_of_mem _ he)]
    rfl

/-- The rows are those of the game: numbered by increasing versions up to its own, and
loading them rebuilds the game. -/
structure Stored (gameID : ℤ) (g : Game) (rows : List EventRow) : Prop where
  ordered : rows.Pairwise fun a b => a.version < b.version
  bounded : ∀ row ∈ rows, row.version ≤ g.version
  rebuilt : ∃ domainEvents h, rows.mapM (EventRow.load gameID) = .ok domainEvents ∧
    Game.loadFromEvents domainEvents = some h ∧ Rebuilt g h

variable {gameID : ℤ} {rows : List EventRow}

theorem Stored.loadEvents (hs : Stored gameID g rows) (db : Database) :
    ∃ domainEvents h, db.loadEvents gameID rows = .ok domainEvents ∧
      Game.loadFromEvents domainEvents = some h ∧ Rebuilt g h := by
  rw [Database.loadEvents, db.orderByVersion_eq hs.ordered]
  exact hs.rebuilt

theorem Stored.sameView (hs : Stored gameID g rows) (hsame : SameView g h) :
    Stored gameID h rows := by
  obtain ⟨es, g₀, hload, hfold, hr⟩ := hs.rebuilt
  have hversion : g.version = h.version := congrArg View.version hsame
  exact ⟨hs.ordered, hversion ▸ hs.bounded, es, g₀, hload, hfold,
    hsame.symm.trans hr.sameView, hr.clean⟩

theorem Stored.append (hs : Stored gameID g rows) (db : Database) (aggregateID : String)
    {now : Time} {payloads : List Payload} (hcreated : ∀ p, .gameCreated p ∉ payloads)
    (hraise : g.raiseAll now payloads = some g') :
    Stored gameID g'
      (db.appendEvents rows (stamped now aggregateID g.version payloads)) := by
  obtain ⟨es, g₀, hload, hfold, hr⟩ := hs.rebuilt
  obtain ⟨-, hversion, -⟩ := raiseAll_records hcreated hraise
  set new := stamped now aggregateID g.version payloads with hnew
  have hmem (row : EventRow) (hrow : row ∈ new.map db.row) :
      g.version < row.version ∧ row.version ≤ g.version + payloads.length := by
    obtain ⟨e, he, rfl⟩ := List.mem_map.mp hrow
    exact version_of_mem_stamped he
  refine ⟨List.pairwise_append.mpr ⟨hs.ordered, ?_, fun a ha b hb => ?_⟩, fun row hrow => ?_, ?_⟩
  · exact List.pairwise_map.mpr (pairwise_stamped now aggregateID g.version payloads)
  · exact (hs.bounded a ha).trans_lt (hmem b hb).1
  · rw [hversion]
    rcases List.mem_append.mp hrow with hrow | hrow
    · have hle := hs.bounded row hrow
      omega
    · exact (hmem row hrow).2
  · have htypes : ∀ e ∈ new, e.type = e.payload.type := fun e he => type_of_mem_stamped he
    have hread := mapM_load_row db gameID htypes
    have hevents : List.Forall₂ (fun p e => e.type = e.payload.type ∧ e.payload = p) payloads
        (new.map (db.loaded gameID)) :=
      List.forall₂_map_right_iff.mpr (forall₂_stamped now aggregateID g.version payloads)
    have hrel := hr.replay now hevents
    rw [hraise] at hrel
    obtain ⟨h', hfold', hr'⟩ := exists_of_rel_some hrel
    refine ⟨es ++ new.map (db.loaded gameID), h', ?_, ?_, hr'⟩
    · rw [Database.appendEvents, List.mapM_append, hload, hread]
      rfl
    · rw [Game.loadFromEvents] at hfold ⊢
      rw [List.foldlM_append, hfold]
      exact hfold'

inductive CallError where
  | load (e : LoadError)
  | move (e : MoveError)
  deriving DecidableEq, Repr

/-- What is seen of one command: its reply, and the view of the aggregate it leaves. -/
structure Outcome where
  reply : Except CallError (Option MoveResult)
  view : Option View
  deriving DecidableEq, Repr

def liveStep (c : Command) (g : Game) : Exec (Game × Outcome) :=
  (g.execute c).map fun (g, reply) => (g, ⟨reply.mapError .move, some g.view⟩)

/-- Execute a command on an aggregate rebuilt from the stored events, and append the events
it raises. -/
def storedStep (db : Database) (gameID : ℤ) (c : Command) (rows : List EventRow) :
    Exec (List EventRow × Outcome) :=
  match db.loadEvents gameID rows with
  | .error e => some (rows, ⟨.error (.load e), none⟩)
  | .ok domainEvents => do
    let g ← Game.loadFromEvents domainEvents
    let (g, reply) ← g.execute c
    return (db.appendEvents rows g.uncommittedEvents, ⟨reply.mapError .move, some g.view⟩)

theorem lockstep_stored (db : Database) (gameID : ℤ) :
    Lockstep (Stored gameID) liveStep (storedStep db gameID) := by
  intro c g rows hs
  obtain ⟨es, g₀, hload, hfold, hr⟩ := hs.loadEvents db
  have hstored : storedStep db gameID c rows = (g₀.execute c).map fun (g, reply) =>
      (db.appendEvents rows g.uncommittedEvents, ⟨reply.mapError .move, some g.view⟩) := by
    simp only [storedStep, hload, hfold, Option.bind_eq_bind, Option.bind_some]
    cases g₀.execute c <;> rfl
  rw [hstored]
  apply rel_map_of_eq_some (hr.sameView.execute c)
  rintro ⟨g', reply⟩ ⟨g₀', _⟩ - hexec ⟨hsame, rfl⟩
  obtain ⟨now, payloads, hcreated, hraise⟩ := raises_of_execute hexec
  obtain ⟨hevents, -, -⟩ := raiseAll_records hcreated hraise
  rw [hr.clean, List.nil_append] at hevents
  refine ⟨?_, congrArg (fun v => Outcome.mk (reply.mapError .move) (some v)) hsame⟩
  dsimp only
  rw [hevents]
  exact ((hs.sameView hr.sameView).append db _ hcreated hraise).sameView hsame.symm

theorem stored_createdRows (db : Database) {now : Time} {tempID : Option ℤ} {boardSize : ℤ}
    {players : List Player} (hnew : Game.newGame now tempID boardSize players = some g)
    (gameID : ℤ) :
    Stored gameID (Game.clearEvents { g with gameID := some gameID })
      (db.createdRows gameID g) := by
  rw [newGame_eq] at hnew
  obtain ⟨grid, hgrid, rfl⟩ := Option.map_eq_some_iff.mp hnew
  let created : DomainEvent :=
    ⟨.gameCreated, now, "", 1, .gameCreated ⟨gameID, boardSize, players⟩⟩
  have htypes : ∀ e ∈ [created], e.type = e.payload.type := by simp [created, Payload.type]
  have hread := mapM_load_row db gameID htypes
  have hload : Game.loadFromEvents [db.loaded gameID created] = some {
      version := 1, gameID := some gameID, boardSize, createdAt := db.precision now, players,
      grid } := by
    simp [Game.loadFromEvents, Game.applyEvent, Database.loaded, created, hgrid,
      Game.incrementVersion]
  refine ⟨List.pairwise_singleton _ _, ?_, [db.loaded gameID created], _, hread, hload, rfl, rfl⟩
  simp [Database.createdRows, Database.appendEvents, fixGameID, Database.row, Game.clearEvents]

/-- Executing every command on an aggregate rebuilt from the events stored so far gives the
outcomes of executing all commands on one live aggregate, from the creation of the game on. -/
theorem stored_run_eq_live_run (db : Database) (now : Time) (tempID : Option ℤ) (gameID : ℤ)
    (boardSize : ℤ) (players : List Player) (commands : List Command) :
    (Game.newGame now tempID boardSize players).map (fun g =>
      trace (storedStep db gameID) (db.createdRows gameID g) commands) =
    (Game.newGame now tempID boardSize players).map (fun g =>
      trace liveStep (Game.clearEvents { g with gameID := some gameID }) commands) := by
  cases hnew : Game.newGame now tempID boardSize players with
  | none => rfl
  | some g =>
    exact congrArg some
      ((lockstep_stored db gameID).trace_eq (stored_createdRows db hnew gameID) commands).symm

end DotsAndBoxes
