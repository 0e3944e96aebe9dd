import DotsAndBoxes.Game.Events
import DotsAndBoxes.Library.Json
import Mathlib.Data.List.Sort

/-! # The event store

The event table keeps one row for each domain event, with the payload as a JSON
document. Loading reads the rows of a game ordered by version, and decodes each
payload by the event type of its row. Nothing in the table makes versions unique,
so rows with the same version come in any order.
-/

namespace DotsAndBoxes

open Tagged

/-- The event type of a string; a string that is no constant is unknown. -/
def EventType.ofString : String → EventType
  | "game.created" => .gameCreated
  | "game.move_applied" => .moveApplied
  | "game.box_completed" => .boxCompleted
  | "game.turn_passed" => .turnPassed
  | "game.ended" => .gameEnded
  | "game.forfeited" => .gameForfeited
  | name => .unknown name

@[simp] theorem Payload.ofString_toString_type (p : Payload) :
    EventType.ofString p.type.toString = p.type := by
  cases p <;> rfl

def Player.codec : Codec Player :=
  .struct ⟨none, "", 0, false, 0⟩ [
    .of "user_id" (.pointer .int) (·.userID) fun p userID => { p with userID },
    .of "username" .string (·.username) fun p username => { p with username },
    .of "turn_order" .int (·.turnOrder) fun p turnOrder => { p with turnOrder },
    .of "is_anonymous" .bool (·.isAnonymous) fun p isAnonymous => { p with isAnonymous },
    .of "score" .int (·.score) fun p score => { p with score }]

def GameCreatedPayload.codec : Codec GameCreatedPayload :=
  .struct ⟨0, 0, []⟩ [
    .of "game_id" .int (·.gameID) fun p gameID => { p with gameID },
    .of "board_size" .int (·.boardSize) fun p boardSize => { p with boardSize },
    .of "players" (.slice Player.codec) (·.players) fun p players => { p with players }]

def MoveAppliedPayload.codec : Codec MoveAppliedPayload :=
  .struct ⟨0, 0, 0, ""⟩ [
    .of "turn_order" .int (·.turnOrder) fun p turnOrder => { p with turnOrder },
    .of "row" .int (·.row) fun p row => { p with row },
    .of "col" .int (·.col) fun p col => { p with col },
    .of "edge" .string (·.edge) fun p edge => { p with edge }]

def BoxCompletedPayload.codec : Codec BoxCompletedPayload :=
  .struct ⟨0, 0, 0⟩ [
    .of "row" .int (·.row) fun p row => { p with row },
    .of "col" .int (·.col) fun p col => { p with col },
    .of "owner_turn" .int (·.ownerTurn) fun p ownerTurn => { p with ownerTurn }]

def TurnPassedPayload.codec : Codec TurnPassedPayload :=
  .struct ⟨0⟩ [.of "next_turn" .int (·.nextTurn) fun p nextTurn => { p with nextTurn }]

def GameEndedPayload.codec : Codec GameEndedPayload :=
  .struct ⟨none⟩ [.of "winner_id" (.pointer .int) (·.winnerID) fun p winnerID => { p with winnerID }]

def GameForfeitedPayload.codec : Codec GameForfeitedPayload :=
  .struct ⟨0, none⟩ [
    .of "forfeited_by" .int (·.forfeitedBy) fun p forfeitedBy => { p with forfeitedBy },
    .of "winner_id" (.pointer .int) (·.winnerID) fun p winnerID => { p with winnerID }]

def Payload.marshal : Payload → Json
  | .gameCreated p => GameCreatedPayload.codec.marshal p
  | .moveApplied p => MoveAppliedPayload.codec.marshal p
  | .boxCompleted p => BoxCompletedPayload.codec.marshal p
  | .turnPassed p => TurnPassedPayload.codec.marshal p
  | .gameEnded p => GameEndedPayload.codec.marshal p
  | .gameForfeited p => GameForfeitedPayload.codec.marshal p

inductive LoadError where
  | malformedPayload
  | unknownEventType (eventType : String)
  deriving DecidableEq, Repr

def deserializePayload (eventType : String) (raw : Json) : Except LoadError Payload :=
  match EventType.ofString eventType with
  | .gameCreated => decoded (GameCreatedPayload.codec.unmarshal raw) .gameCreated
  | .moveApplied => decoded (MoveAppliedPayload.codec.unmarshal raw) .moveApplied
  | .boxCompleted => decoded (BoxCompletedPayload.codec.unmarshal raw) .boxCompleted
  | .turnPassed => decoded (TurnPassedPayload.codec.unmarshal raw) .turnPassed
  | .gameEnded => decoded (GameEndedPayload.codec.unmarshal raw) .gameEnded
  | .gameForfeited => decoded (GameForfeitedPayload.codec.unmarshal raw) .gameForfeited
  | .unknown _ => .error (.unknownEventType eventType)
where
  decoded {α : Type} (p : Option α) (payload : α → Payload) : Except LoadError Payload :=
    match p with
    | some p => .ok (payload p)
    | none => .error .malformedPayload

@[simp] theorem Player.lawful_codec : Player.codec.Lawful :=
  Codec.lawful_struct (by decide) fun _ _ => by simp

theorem GameCreatedPayload.lawful_codec : GameCreatedPayload.codec.Lawful :=
  Codec.lawful_struct (by decide) fun _ _ => by simp

theorem MoveAppliedPayload.lawful_codec : MoveAppliedPayload.codec.Lawful :=
  Codec.lawful_struct (by decide) fun _ _ => by simp

theorem BoxCompletedPayload.lawful_codec : BoxCompletedPayload.codec.Lawful :=
  Codec.lawful_struct (by decide) fun _ _ => by simp

theorem TurnPassedPayload.lawful_codec : TurnPassedPayload.codec.Lawful :=
  Codec.lawful_struct (by decide) fun _ _ => by simp

theorem GameEndedPayload.lawful_codec : GameEndedPayload.codec.Lawful :=
  Codec.lawful_struct (by decide) fun _ _ => by simp

theorem GameForfeitedPayload.lawful_codec : GameForfeitedPayload.codec.Lawful :=
  Codec.lawful_struct (by decide) fun _ _ => by simp

theorem deserializePayload_marshal (p : Payload) :
    deserializePayload p.type.toString p.marshal = .ok p := by
  rw [deserializePayload, Payload.ofString_toString_type]
  cases p with
  | gameCreated p =>
    simp [Payload.type, Payload.marshal, deserializePayload.decoded,
      GameCreatedPayload.lawful_codec.unmarshal_marshal]
  | moveApplied p =>
    simp [Payload.type, Payload.marshal, deserializePayload.decoded,
      MoveAppliedPayload.lawful_codec.unmarshal_marshal]
  | boxCompleted p =>
    simp [Payload.type, Payload.marshal, deserializePayload.decoded,
      BoxCompletedPayload.lawful_codec.unmarshal_marshal]
  | turnPassed p =>
    simp [Payload.type, Payload.marshal, deserializePayload.decoded,
      TurnPassedPayload.lawful_codec.unmarshal_marshal]
  | gameEnded p =>
    simp [Payload.type, Payload.marshal, deserializePayload.decoded,
      GameEndedPayload.lawful_codec.unmarshal_marshal]
  | gameForfeited p =>
    simp [Payload.type, Payload.marshal, deserializePayload.decoded,
      GameForfeitedPayload.lawful_codec.unmarshal_marshal]

structure EventRow where
  eventType : String
  version : ℤ
  payload : Json
  occurredAt : Time

/-- What the table leaves to the database: the precision of its timestamps, and an order
of the rows by version. -/
structure Database where
  precision : Time → Time
  orderByVersion : List EventRow → List EventRow
  perm : ∀ rows, (orderByVersion rows).Perm rows
  sorted : ∀ rows, (orderByVersion rows).Pairwise fun a b => a.version ≤ b.version

/-- A database that keeps rows with the same version in the order of their insertion. -/
def Database.byInsertion : Database where
  precision t := t
  orderByVersion rows := rows.insertionSort fun a b => a.version ≤ b.version
  perm rows := List.perm_insertionSort _ rows
  sorted rows := by
    have : Std.Total fun a b : EventRow => a.version ≤ b.version :=
      ⟨fun a b => le_total a.version b.version⟩
    have : IsTrans EventRow fun a b => a.version ≤ b.version := ⟨fun _ _ _ => le_trans⟩
    exact List.pairwise_insertionSort _ rows

def Database.row (db : Database) (event : DomainEvent) : EventRow where
  eventType := event.type.toString
  version := event.version
  payload := event.payload.marshal
  occurredAt := db.precision event.occurredAt

def Database.appendEvents (db : Database) (rows : List EventRow)
    (domainEvents : List DomainEvent) : List EventRow :=
  rows ++ domainEvents.map db.row

def EventRow.load (gameID : ℤ) (row : EventRow) : Except LoadError DomainEvent := do
  let payload ← deserializePayload row.eventType row.payload
  return {
    type := .ofString row.eventType
    version := row.version
    occurredAt := row.occurredAt
    aggregateID := toString gameID
    payload }

def Database.loadEvents (db : Database) (gameID : ℤ) (rows : List EventRow) :
    Except LoadError (List DomainEvent) :=
  (db.orderByVersion rows).mapM (EventRow.load gameID)

inductive CreateError where
  | anonymousPlayer
  deriving DecidableEq, Repr

/-- The fix of the `GameCreated` payload with the assigned game id. -/
def fixGameID (gameID : ℤ) (event : DomainEvent) : DomainEvent :=
  match event.type, event.payload with
  | .gameCreated, .gameCreated p => { event with payload := .gameCreated { p with gameID } }
  | _, _ => event

/-- The rows a new game is persisted with, under the id the database assigned to it. -/
def Database.createdRows (db : Database) (gameID : ℤ) (g : Game) : List EventRow :=
  db.appendEvents [] (g.uncommittedEvents.map (fixGameID gameID))

/-- Persist a new game, which carries the assigned id from then on. -/
def Database.create (db : Database) (gameID : ℤ) (g : Game) :
    Except CreateError (Game × List EventRow) :=
  if g.players.any fun player => player.userID.isNone then .error .anonymousPlayer
  else .ok (Game.clearEvents { g with gameID := some gameID }, db.createdRows gameID g)

theorem Database.create_eq_ok {db : Database} {gameID : ℤ} {g g' : Game} {rows : List EventRow}
    (h : db.create gameID g = .ok (g', rows)) :
    (∀ player ∈ g.players, player.userID.isSome = true) ∧
      g' = Game.clearEvents { g with gameID := some gameID } ∧ rows = db.createdRows gameID g := by
  unfold Database.create at h
  split at h
  · cases h
  case isFalse hnamed =>
    obtain ⟨rfl, rfl⟩ := Prod.mk.inj (Except.ok.inj h)
    refine ⟨fun player hplayer => ?_, rfl, rfl⟩
    by_contra hnone
    exact hnamed (List.any_eq_true.mpr ⟨player, hplayer, by simpa using hnone⟩)

theorem Database.orderByVersion_eq (db : Database) {rows : List EventRow}
    (h : rows.Pairwise fun a b => a.version < b.version) : db.orderByVersion rows = rows := by
  refine List.Perm.eq_of_pairwise ?_ (db.sorted rows) (h.imp le_of_lt) (db.perm rows)
  intro a b ha hb hab hba
  have hinj : ∀ ⦃a⦄, a ∈ rows → ∀ ⦃b⦄, b ∈ rows → a.version = b.version → a = b :=
    List.Pairwise.forall_of_forall_of_flip (fun _ _ _ => rfl)
      (h.imp fun hlt heq => absurd heq hlt.ne) (h.imp fun hlt heq => absurd heq.symm hlt.ne)
  exact hinj ((db.perm rows).mem_iff.mp ha) hb (le_antisymm hab hba)

end DotsAndBoxes
