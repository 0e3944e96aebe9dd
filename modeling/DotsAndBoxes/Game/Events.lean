import DotsAndBoxes.Game.Model

/-! # Raising events

A command changes the state only by raising events, and the payloads it raises
determine the state it leaves. Raising a sequence of payloads records one event
for each, numbered on from the version of the aggregate.
-/

namespace DotsAndBoxes

open Slices

def Payload.type : Payload → EventType
  | .gameCreated _ => .gameCreated
  | .moveApplied _ => .moveApplied
  | .boxCompleted _ => .boxCompleted
  | .turnPassed _ => .turnPassed
  | .gameEnded _ => .gameEnded
  | .gameForfeited _ => .gameForfeited

namespace Game

def aggregateID (g : Game) : String :=
  match g.gameID with
  | some id => toString id
  | none => ""

def eventOf (now : Time) (g : Game) (payload : Payload) : DomainEvent where
  type := payload.type
  occurredAt := now
  aggregateID := g.aggregateID
  version := g.version + 1
  payload := payload

/-- Raise a sequence of payloads, each with its own event type. -/
def raiseAll (now : Time) (g : Game) (payloads : List Payload) : Exec Game :=
  payloads.foldlM (fun g payload => g.raise now payload.type payload) g

theorem raise_eq (now : Time) (g : Game) (payload : Payload) :
    g.raise now payload.type payload =
      (g.applyEvent (g.eventOf now payload)).map (·.recordEvent (g.eventOf now payload)) := by
  change (g.applyEvent (g.eventOf now payload)).bind
    (fun g' => some (g'.recordEvent (g.eventOf now payload))) = _
  cases g.applyEvent (g.eventOf now payload) <;> rfl

theorem newGame_eq (now : Time) (gameID : Option ℤ) (boardSize : ℤ) (players : List Player) :
    newGame now gameID boardSize players = (makeEmptyGrid boardSize).map fun grid => {
      uncommittedEvents :=
        [⟨.gameCreated, now, "", 1, .gameCreated ⟨gameID.getD 0, boardSize, players⟩⟩]
      version := 1
      gameID := some (gameID.getD 0)
      boardSize, createdAt := now, players, grid } := by
  cases hgrid : makeEmptyGrid boardSize with
  | none => simp [newGame, raise, applyEvent, hgrid]
  | some grid =>
    simp [newGame, raise, applyEvent, hgrid, recordEvent, incrementVersion]

@[simp] theorem raiseAll_nil (now : Time) (g : Game) : g.raiseAll now [] = some g := rfl

@[simp] theorem raiseAll_cons (now : Time) (g : Game) (p : Payload) (ps : List Payload) :
    g.raiseAll now (p :: ps) = (g.raise now p.type p).bind (raiseAll now · ps) := rfl

theorem raiseAll_append (now : Time) (g : Game) (ps qs : List Payload) :
    g.raiseAll now (ps ++ qs) = (g.raiseAll now ps).bind (raiseAll now · qs) :=
  List.foldlM_append

theorem raiseCompleted_eq (now : Time) (turnOrder : ℤ) (g : Game) (boxes : List Box) :
    g.raiseCompleted now turnOrder boxes =
      g.raiseAll now (boxes.map fun box => .boxCompleted ⟨box.row, box.col, turnOrder⟩) := by
  rw [raiseCompleted, raiseAll, List.foldlM_map]
  rfl

inductive Applied (occurredAt : Time) (g : Game) : Payload → Game → Prop where
  | gameCreated {p : GameCreatedPayload} {grid : List (List Box)} :
      makeEmptyGrid p.boardSize = some grid → Applied occurredAt g (.gameCreated p)
        (incrementVersion { g with
          gameID := some p.gameID, boardSize := p.boardSize, currentTurn := 0,
          createdAt := occurredAt, players := p.players, grid })
  | moveApplied {p : MoveAppliedPayload} {grid : List (List Box)} :
      markEdge g.grid g.boardSize p.row p.col (.ofString p.edge) = some grid →
      Applied occurredAt g (.moveApplied p) (incrementVersion { g with grid })
  | boxCompleted {p : BoxCompletedPayload} {grid : List (List Box)} {players : List Player} :
      modify2? g.grid p.row p.col (fun box => { box with ownerTurn := some p.ownerTurn }) =
        some grid →
      modify? g.players p.ownerTurn (fun player => { player with score := player.score + 1 }) =
        some players →
      Applied occurredAt g (.boxCompleted p) (incrementVersion { g with grid, players })
  | turnPassed {p : TurnPassedPayload} :
      Applied occurredAt g (.turnPassed p) (incrementVersion { g with currentTurn := p.nextTurn })
  | gameEnded {p : GameEndedPayload} : Applied occurredAt g (.gameEnded p)
      (incrementVersion { g with winnerID := p.winnerID, endedAt := some occurredAt })
  | gameForfeited {p : GameForfeitedPayload} : Applied occurredAt g (.gameForfeited p)
      (incrementVersion { g with winnerID := p.winnerID, endedAt := some occurredAt })

theorem applied {g g' : Game} {event : DomainEvent} (htype : event.type = event.payload.type)
    (h : g.applyEvent event = some g') : g.Applied event.occurredAt event.payload g' := by
  obtain ⟨type, occurredAt, aggregateID, version, payload⟩ := event
  dsimp only at htype
  subst htype
  cases payload with
  | gameCreated p =>
    obtain ⟨grid, hgrid, hg⟩ := Option.bind_eq_some_iff.mp h
    obtain rfl := Option.some.inj hg
    exact .gameCreated hgrid
  | moveApplied p =>
    obtain ⟨g₁, hset, hg⟩ := Option.bind_eq_some_iff.mp h
    obtain rfl := Option.some.inj hg
    obtain ⟨grid, hmark, hset⟩ := Option.bind_eq_some_iff.mp hset
    obtain rfl := Option.some.inj hset
    exact .moveApplied hmark
  | boxCompleted p =>
    obtain ⟨grid, hgrid, hg⟩ := Option.bind_eq_some_iff.mp h
    obtain ⟨players, hplayers, hg⟩ := Option.bind_eq_some_iff.mp hg
    obtain rfl := Option.some.inj hg
    exact .boxCompleted hgrid hplayers
  | turnPassed p =>
    obtain rfl := Option.some.inj h
    exact .turnPassed
  | gameEnded p =>
    obtain rfl := Option.some.inj h
    exact .gameEnded
  | gameForfeited p =>
    obtain rfl := Option.some.inj h
    exact .gameForfeited

theorem raise_eq_some {now : Time} {g g' : Game} {p : Payload}
    (h : g.raise now p.type p = some g') : ∃ g₁, g.applyEvent (g.eventOf now p) = some g₁ ∧
      g' = g₁.recordEvent (g.eventOf now p) := by
  rw [raise_eq] at h
  obtain ⟨g₁, happly, rfl⟩ := Option.map_eq_some_iff.mp h
  exact ⟨g₁, happly, rfl⟩

theorem applied_of_raise {now : Time} {g g' : Game} {p : Payload}
    (h : g.raise now p.type p = some g') :
    ∃ g₁, g.Applied now p g₁ ∧ g' = g₁.recordEvent (g.eventOf now p) := by
  obtain ⟨g₁, happly, rfl⟩ := raise_eq_some h
  have happlied : g.Applied (g.eventOf now p).occurredAt (g.eventOf now p).payload g₁ :=
    applied rfl happly
  exact ⟨g₁, happlied, rfl⟩

theorem raiseAll_induction {P : Game → Prop} {now : Time} {g g' : Game} {payloads : List Payload}
    (hg : P g) (hraise : ∀ p ∈ payloads, ∀ g g', P g → g.raise now p.type p = some g' → P g')
    (h : g.raiseAll now payloads = some g') : P g' := by
  induction payloads generalizing g with
  | nil =>
    obtain rfl := Option.some.inj h
    exact hg
  | cons p payloads ih =>
    obtain ⟨g₁, hfirst, hrest⟩ := Option.bind_eq_some_iff.mp h
    exact ih (hraise p List.mem_cons_self g g₁ hg hfirst)
      (fun q hq => hraise q (List.mem_cons_of_mem p hq)) hrest

theorem raiseAll_frame {α : Type} {v : Game → α} {now : Time} {g g' : Game}
    {payloads : List Payload} (hrecord : ∀ g event, v (recordEvent g event) = v g)
    (hview : ∀ p ∈ payloads, ∀ g g', Applied now g p g' → v g' = v g)
    (h : g.raiseAll now payloads = some g') : v g' = v g := by
  refine raiseAll_induction (P := fun g' => v g' = v g) rfl ?_ h
  intro p hp g₁ g₂ hsame hraise
  obtain ⟨g₃, happlied, rfl⟩ := applied_of_raise hraise
  rw [hrecord, hview p hp g₁ g₃ happlied, hsame]

/-- An event of its own type is counted, and leaves the recorded events alone. -/
theorem applyEvent_frame {g g' : Game} {event : DomainEvent} (htype : event.type = event.payload.type)
    (h : g.applyEvent event = some g') :
    g'.uncommittedEvents = g.uncommittedEvents ∧ g'.version = g.version + 1 ∧
      ((∀ p, event.payload ≠ .gameCreated p) → g'.gameID = g.gameID) := by
  have happlied := applied htype h
  generalize event.payload = payload at happlied ⊢
  cases happlied with
  | gameCreated => exact ⟨rfl, rfl, fun hn => absurd rfl (hn _)⟩
  | _ => exact ⟨rfl, rfl, fun _ => rfl⟩

/-- The events that raising payloads records, numbered on from a version. -/
def stamped (now : Time) (aggregateID : String) : ℤ → List Payload → List DomainEvent
  | _, [] => []
  | version, p :: ps =>
    ⟨p.type, now, aggregateID, version + 1, p⟩ :: stamped now aggregateID (version + 1) ps

@[simp] theorem map_payload_stamped (now : Time) (aggregateID : String) (version : ℤ)
    (ps : List Payload) : (stamped now aggregateID version ps).map (·.payload) = ps := by
  induction ps generalizing version with
  | nil => rfl
  | cons p ps ih => simp [stamped, ih]

@[simp] theorem length_stamped (now : Time) (aggregateID : String) (version : ℤ)
    (ps : List Payload) : (stamped now aggregateID version ps).length = ps.length := by
  rw [← List.length_map (·.payload), map_payload_stamped]

theorem type_of_mem_stamped {now : Time} {aggregateID : String} {version : ℤ} {ps : List Payload}
    {event : DomainEvent} (h : event ∈ stamped now aggregateID version ps) :
    event.type = event.payload.type := by
  induction ps generalizing version with
  | nil => cases h
  | cons p ps ih =>
    rcases List.mem_cons.mp h with rfl | h
    · rfl
    · exact ih h

theorem forall₂_stamped (now : Time) (aggregateID : String) (version : ℤ) (ps : List Payload) :
    List.Forall₂ (fun p e => e.type = e.payload.type ∧ e.payload = p) ps
      (stamped now aggregateID version ps) := by
  induction ps generalizing version with
  | nil => exact .nil
  | cons p ps ih => exact .cons ⟨rfl, rfl⟩ (ih _)

theorem version_of_mem_stamped {now : Time} {aggregateID : String} {version : ℤ}
    {ps : List Payload} {event : DomainEvent} (h : event ∈ stamped now aggregateID version ps) :
    version < event.version ∧ event.version ≤ version + ps.length := by
  induction ps generalizing version with
  | nil => cases h
  | cons p ps ih =>
    rw [List.length_cons]
    push_cast
    rcases List.mem_cons.mp h with rfl | h
    · exact ⟨lt_add_one _, by simp only; omega⟩
    · obtain ⟨hlt, hle⟩ := ih h
      omega

theorem map_version_stamped (now : Time) (aggregateID : String) (version : ℤ)
    (ps : List Payload) : (stamped now aggregateID version ps).map (·.version) =
      (List.range ps.length).map fun i : ℕ => version + i + 1 := by
  induction ps generalizing version with
  | nil => rfl
  | cons p ps ih =>
    simp only [stamped, List.map_cons, ih, List.length_cons, List.range_succ_eq_map, List.map_map]
    refine congrArg₂ _ (by simp) (List.map_congr_left fun i _ => ?_)
    simp only [Function.comp_apply]
    push_cast
    ring

theorem pairwise_stamped (now : Time) (aggregateID : String) (version : ℤ) (ps : List Payload) :
    (stamped now aggregateID version ps).Pairwise fun a b => a.version < b.version := by
  induction ps generalizing version with
  | nil => exact .nil
  | cons p ps ih => exact .cons (fun e he => (version_of_mem_stamped he).1) (ih _)

theorem raiseAll_records {now : Time} {g g' : Game} {ps : List Payload}
    (hcreated : ∀ p, .gameCreated p ∉ ps) (h : g.raiseAll now ps = some g') :
    g'.uncommittedEvents = g.uncommittedEvents ++ stamped now g.aggregateID g.version ps ∧
      g'.version = g.version + ps.length ∧ g'.gameID = g.gameID := by
  induction ps generalizing g with
  | nil =>
    obtain rfl := Option.some.inj h
    simp [stamped]
  | cons p ps ih =>
    obtain ⟨g₁, hg₁, h⟩ := Option.bind_eq_some_iff.mp h
    obtain ⟨g₀, happly, rfl⟩ := raise_eq_some hg₁
    obtain ⟨hevents, hversion, hid⟩ := applyEvent_frame rfl happly
    have hid' : g₀.gameID = g.gameID :=
      hid fun q hq => hcreated q (hq ▸ List.mem_cons_self)
    obtain ⟨hu, hv, hi⟩ := ih (fun q hq => hcreated q (List.mem_cons_of_mem _ hq)) h
    have hagg : (g₀.recordEvent (g.eventOf now p)).aggregateID = g.aggregateID := by
      simp only [aggregateID, recordEvent, hid']
    rw [hagg] at hu
    refine ⟨?_, ?_, hi.trans hid'⟩
    · rw [hu]
      simp only [recordEvent, hevents, hversion, stamped, List.append_assoc, List.singleton_append]
      rfl
    · rw [hv]
      simp only [recordEvent, hversion, List.length_cons]
      push_cast
      ring

section Accepted

variable {now : Time} {g g' : Game} {result : MoveResult}

/-- A game goes on, or the raising of its end is the last thing a command does. -/
theorem endIfOver_eq_some {boxes : List Box} (h : g.endIfOver now boxes = some (g', result)) :
    result.nextTurn = g.currentTurn ∧ ((g' = g ∧ result.gameOver = false) ∨
      (g.raise now .gameEnded (.gameEnded ⟨g.determineWinner⟩) = some g' ∧
        result.gameOver = true)) := by
  obtain ⟨complete, -, h⟩ := Option.bind_eq_some_iff.mp h
  cases complete with
  | false =>
    obtain ⟨rfl, rfl⟩ := Prod.mk.inj (Option.some.inj h)
    exact ⟨rfl, .inl ⟨rfl, rfl⟩⟩
  | true =>
    rw [if_pos rfl] at h
    obtain ⟨g₁, hraise, h⟩ := Option.bind_eq_some_iff.mp h
    obtain ⟨rfl, rfl⟩ := Prod.mk.inj (Option.some.inj h)
    exact ⟨rfl, .inr ⟨hraise, rfl⟩⟩

/-- An accepted move raises its own event, then its boxes, then the turn and the end. -/
theorem applyMove_eq_ok {move : Move} (h : g.applyMove now move = some (g', .ok result)) :
    ∃ g₁ boxes g₂ g₃, g.validateMove move = some (.ok ()) ∧
      g.raise now .moveApplied (.moveApplied
        ⟨move.turnOrder, move.row, move.col, move.edge.toString⟩) = some g₁ ∧
      g₁.findNewlyCompletedBoxes move = some boxes ∧
      g₁.raiseCompleted now move.turnOrder boxes = some g₂ ∧
      g₂.passUnlessCompleted now boxes = some g₃ ∧ g₃.endIfOver now boxes = some (g', result) := by
  obtain ⟨valid, hvalid, h⟩ := Option.bind_eq_some_iff.mp h
  cases valid with
  | error err => simp at h
  | ok _ =>
    obtain ⟨g₁, hmoved, h⟩ := Option.bind_eq_some_iff.mp h
    obtain ⟨boxes, hboxes, h⟩ := Option.bind_eq_some_iff.mp h
    obtain ⟨g₂, hcompleted, h⟩ := Option.bind_eq_some_iff.mp h
    obtain ⟨g₃, hpassed, h⟩ := Option.bind_eq_some_iff.mp h
    obtain ⟨⟨g₄, r⟩, hended, h⟩ := Option.bind_eq_some_iff.mp h
    obtain ⟨rfl, hr⟩ := Prod.mk.inj (Option.some.inj h)
    obtain rfl := Except.ok.inj hr
    exact ⟨g₁, boxes, g₂, g₃, hvalid, hmoved, hboxes, hcompleted, hpassed, hended⟩

theorem applyMove_eq_error {move : Move} {e : MoveError}
    (h : g.applyMove now move = some (g', .error e)) : g' = g := by
  obtain ⟨valid, -, h⟩ := Option.bind_eq_some_iff.mp h
  cases valid with
  | error err => exact (Prod.mk.inj (Option.some.inj h)).1.symm
  | ok _ =>
    obtain ⟨g₁, -, h⟩ := Option.bind_eq_some_iff.mp h
    obtain ⟨boxes, -, h⟩ := Option.bind_eq_some_iff.mp h
    obtain ⟨g₂, -, h⟩ := Option.bind_eq_some_iff.mp h
    obtain ⟨g₃, -, h⟩ := Option.bind_eq_some_iff.mp h
    obtain ⟨⟨g₄, result⟩, -, h⟩ := Option.bind_eq_some_iff.mp h
    cases (Prod.mk.inj (Option.some.inj h)).2

theorem passTurnOnTimeout_eq_ok (h : g.passTurnOnTimeout now = some (g', .ok result)) :
    g.hasEnded = false ∧ ∃ g₁, g.passTurn now = some g₁ ∧
      g₁.endIfOver now [] = some (g', result) := by
  unfold Game.passTurnOnTimeout at h
  split at h
  · simp at h
  case isFalse hrun =>
    obtain ⟨g₁, hpassed, h⟩ := Option.bind_eq_some_iff.mp h
    obtain ⟨⟨g₂, r⟩, hended, h⟩ := Option.bind_eq_some_iff.mp h
    obtain ⟨rfl, hr⟩ := Prod.mk.inj (Option.some.inj h)
    obtain rfl := Except.ok.inj hr
    exact ⟨by simpa using hrun, g₁, hpassed, hended⟩

theorem passTurnOnTimeout_eq_error {e : MoveError}
    (h : g.passTurnOnTimeout now = some (g', .error e)) : g' = g := by
  unfold Game.passTurnOnTimeout at h
  split at h
  · exact (Prod.mk.inj (Option.some.inj h)).1.symm
  · obtain ⟨g₁, -, h⟩ := Option.bind_eq_some_iff.mp h
    obtain ⟨⟨g₂, result⟩, -, h⟩ := Option.bind_eq_some_iff.mp h
    cases (Prod.mk.inj (Option.some.inj h)).2

/-- A move is valid on the turn of its seat, for a free edge of the board, before the end. -/
theorem validateMove_eq_ok {move : Move} (h : g.validateMove move = some (.ok ())) :
    move.turnOrder = g.currentTurn ∧ g.outside move.row move.col = false ∧
      g.isEdgeAvailable move.row move.col move.edge = some true ∧ g.hasEnded = false := by
  unfold Game.validateMove at h
  split at h
  · simp at h
  case isFalse hturn =>
    split at h
    · simp at h
    case isFalse hout =>
      obtain ⟨available, havailable, h⟩ := Option.bind_eq_some_iff.mp h
      cases available with
      | false => simp at h
      | true =>
        split at h
        · simp at h
        split at h
        · simp at h
        case isFalse hrun =>
          exact ⟨not_not.mp hturn, by simpa using hout, havailable, Bool.eq_false_iff.mpr hrun⟩

end Accepted

end Game

end DotsAndBoxes
