import DotsAndBoxes.Game.Shape
import DotsAndBoxes.Service.EventLog
import DotsAndBoxes.Service.World

/-! # What calls do to a game

A call that succeeds has found a game that goes on, and raises payloads that fit it. So the
stored rows stay intact, whichever way the calls interleave: the game can be loaded from
them, and it has ended exactly when one of them says so.
-/

namespace DotsAndBoxes

open Slices Enclosure Game

variable {n : ℕ} {roster : List Player} {g g' : Game} {now : Time} {isBotGame : Bool}
  {task : Task} {todo : List Effect} {gameID : ℤ} {rows : List EventRow} {db : Database}

/-- What a call that succeeds does to the game it found, and what is left for it to do. -/
inductive Task.Succeeds (isBotGame : Bool) (now : Time) (g : Game) :
    Task → Game → List Effect → Prop where
  | move {session : Option ℤ} {playerID row col turnOrder : ℤ} {name : String} {edge : EdgeType}
      {g' : Game} {result : MoveResult} : g.seatOf playerID = some turnOrder →
      g.applyMove now ⟨turnOrder, row, col, edge⟩ = some (g', .ok result) →
      Succeeds isBotGame now g (.makeMove session playerID row col name) g'
        (g'.followUp isBotGame g.currentTurn result)
  | pass {seat : ℤ} {g' : Game} {result : MoveResult} :
      g.passTurnOnTimeout now = some (g', .ok result) →
      Succeeds isBotGame now g (.passTurn seat) g' (g'.followUp isBotGame g.currentTurn result)
  | forfeit {userID : ℤ} {g' : Game} : g.hasEnded = false → g.forfeit now userID = some g' →
      Succeeds isBotGame now g (.forfeit userID) g' (g'.forfeitFollowUp isBotGame)
  | grace {userID : ℤ} {g' : Game} : g.hasEnded = false → g.forfeit now userID = some g' →
      Succeeds isBotGame now g (.graceOver userID) g'
        (g'.forfeitFollowUp isBotGame ++ [.stopAfterGrace])

theorem exists_of_map_eq_ok {ε α β : Type} {x : Exec (Except ε α)} {f : α → β} {b : β}
    (h : x.map (·.map f) = some (.ok b)) : ∃ a, x = some (.ok a) ∧ f a = b := by
  obtain ⟨result, hx, hresult⟩ := Option.map_eq_some_iff.mp h
  cases result with
  | error e => cases hresult
  | ok a => exact ⟨a, hx, Except.ok.inj hresult⟩

theorem Task.change_eq_ok (h : task.change isBotGame now g = some (.ok (g', todo))) :
    task.Succeeds isBotGame now g g' todo := by
  cases task with
  | makeMove session playerID row col name =>
    simp only [Task.change] at h
    cases hedge : parseEdge name with
    | error e => simp [hedge] at h
    | ok edge =>
      rw [hedge] at h
      obtain ⟨x, hmove, heq⟩ := exists_of_map_eq_ok h
      obtain ⟨rfl, rfl⟩ := Prod.mk.inj heq
      obtain ⟨turnOrder, hseat, happly⟩ := makeMove_eq_ok (Server.makeMoveRequest_eq_ok hmove)
      exact .move hseat happly
  | passTurn seat =>
    obtain ⟨x, hpass, heq⟩ := exists_of_map_eq_ok h
    obtain ⟨rfl, rfl⟩ := Prod.mk.inj heq
    exact .pass (passTurnRequest_eq_ok hpass)
  | forfeit userID =>
    obtain ⟨x, hforfeit, heq⟩ := exists_of_map_eq_ok h
    obtain ⟨rfl, rfl⟩ := Prod.mk.inj heq
    obtain ⟨hrun, hforfeit⟩ := forfeitRequest_eq_ok hforfeit
    exact .forfeit (by simp [hasEnded, hrun]) hforfeit
  | graceOver userID =>
    obtain ⟨x, hforfeit, heq⟩ := exists_of_map_eq_ok h
    obtain ⟨rfl, rfl⟩ := Prod.mk.inj heq
    obtain ⟨hrun, hforfeit⟩ := forfeitRequest_eq_ok hforfeit
    exact .grace (by simp [hasEnded, hrun]) hforfeit
  | playBotTurn => cases h
  | create => cases h

namespace Task.Succeeds

theorem execute (h : task.Succeeds isBotGame now g g' todo) :
    ∃ c reply, g.execute c = some (g', reply) := by
  cases h with
  | move _ hmove => exact ⟨.applyMove now _, _, by rw [Game.execute, hmove]; rfl⟩
  | pass hpass => exact ⟨.passTurnOnTimeout now, _, by rw [Game.execute, hpass]; rfl⟩
  | @forfeit userID _ hrun hforfeit =>
    have hopen : g.endedAt.isSome = false := hrun
    exact ⟨.forfeit now userID, .ok none, by
      simp [Game.execute, Game.guardedForfeit, hopen, hforfeit]⟩
  | @grace userID _ hrun hforfeit =>
    have hopen : g.endedAt.isSome = false := hrun
    exact ⟨.forfeit now userID, .ok none, by
      simp [Game.execute, Game.guardedForfeit, hopen, hforfeit]⟩

inductive First (g : Game) : Task → Payload → Prop where
  | move {session : Option ℤ} {playerID row col turnOrder : ℤ} {name edge : String} :
      g.seatOf playerID = some turnOrder → First g (.makeMove session playerID row col name)
        (.moveApplied ⟨turnOrder, row, col, edge⟩)
  | pass {seat next : ℤ} : g.nextTurn = some next →
      First g (.passTurn seat) (.turnPassed ⟨next⟩)
  | forfeit {userID : ℤ} {winnerID : Option ℤ} :
      First g (.forfeit userID) (.gameForfeited ⟨userID, winnerID⟩)
  | grace {userID : ℤ} {winnerID : Option ℤ} :
      First g (.graceOver userID) (.gameForfeited ⟨userID, winnerID⟩)

/-- A call that succeeds raises its payload, and is to stop the timer exactly when it has ended
the game. -/
theorem changes (h : task.Succeeds isBotGame now g g' todo) (hg : Shaped roster n g) :
    ∃ first, First g task first ∧ Changes roster n first now g g' ∧
      (.stopTimer ∈ todo ↔ g'.hasEnded = true) := by
  cases h with
  | @move _ _ _ _ _ _ _ _ result hseat hmove =>
    obtain ⟨hchanges, hover⟩ := hg.applyMove hmove
    refine ⟨_, .move hseat, hchanges, ?_⟩
    rw [hover]
    cases hresult : result.gameOver <;> cases isBotGame <;> simp [followUp, hresult]
  | @pass _ _ result hpass =>
    obtain ⟨next, hnext, hchanges, hover⟩ := hg.passTurnOnTimeout hpass
    refine ⟨_, .pass hnext, hchanges, ?_⟩
    rw [hover]
    cases hresult : result.gameOver <;> cases isBotGame <;> simp [followUp, hresult]
  | forfeit hrun hforfeit =>
    obtain ⟨winnerID, hchanges, hended⟩ := Shaped.forfeit hrun hforfeit
    exact ⟨_, .forfeit, hchanges, by simp [forfeitFollowUp, hended]⟩
  | grace hrun hforfeit =>
    obtain ⟨winnerID, hchanges, hended⟩ := Shaped.forfeit hrun hforfeit
    exact ⟨_, .grace, hchanges, by simp [forfeitFollowUp, hended]⟩

theorem projects (h : task.Succeeds false now g g' todo) (h₁ : Game) :
    .updateProjection h₁ ∈ todo ↔ h₁ = g'.clearEvents := by
  cases h with
  | @move _ _ _ _ _ _ _ _ result =>
    cases hresult : result.gameOver <;> simp [followUp, hresult]
  | @pass _ _ result =>
    cases hresult : result.gameOver <;> simp [followUp, hresult]
  | forfeit => simp [forfeitFollowUp]
  | grace => simp [forfeitFollowUp]

end Task.Succeeds

structure EventRow.Holds (row : EventRow) (p : Payload) : Prop where
  eventType : row.eventType = p.type.toString
  decode : row.decode = .ok p

theorem EventRow.holds_row {e : DomainEvent} (htype : e.type = e.payload.type) :
    (db.row e).Holds e.payload := by
  refine ⟨congrArg EventType.toString htype, ?_⟩
  have hread := deserializePayload_marshal e.payload
  rwa [← htype] at hread

theorem EventRow.Holds.terminal {row : EventRow} {p : Payload} (h : row.Holds p) :
    row.terminal = p.terminal := by
  rw [EventRow.terminal, h.eventType]
  cases p <;> simp [Payload.type, EventType.toString, Payload.terminal]

theorem EventRow.Holds.load {row : EventRow} {p : Payload} (h : row.Holds p) (gameID : ℤ) :
    row.load gameID = .ok ⟨p.type, row.occurredAt, toString gameID, row.version, p⟩ := by
  have hname : EventType.ofString row.eventType = p.type := by
    rw [h.eventType, Payload.ofString_toString_type]
  have hread : deserializePayload row.eventType row.payload = .ok p := h.decode
  simp only [EventRow.load, hread, hname]
  rfl

/-- The rows of a game: its creation as the first version, and later versions that fit. -/
structure Intact (gameID : ℤ) (roster : List Player) (n : ℕ) (rows : List EventRow) : Prop where
  rows : ∃ created rest, rows = created :: rest ∧ created.version = 1 ∧
    created.Holds (.gameCreated ⟨gameID, n, roster⟩) ∧
    ∀ row ∈ rest, 2 ≤ row.version ∧ ∃ p, row.Holds p ∧ p.Fits n roster.length

theorem mapM_load_of_fits (gameID : ℤ) {rows : List EventRow}
    (h : ∀ row ∈ rows, ∃ p, row.Holds p ∧ p.Fits n roster.length) :
    ∃ events, rows.mapM (EventRow.load gameID) = .ok events ∧
      events.length = rows.length ∧
      (∀ e ∈ events, e.type = e.payload.type ∧ e.payload.Fits n roster.length) ∧
      (events.any fun e => e.payload.terminal) = rows.any EventRow.terminal := by
  induction rows with
  | nil => exact ⟨[], rfl, rfl, by simp, rfl⟩
  | cons row rows ih =>
    obtain ⟨p, hp, hfits⟩ := h row List.mem_cons_self
    obtain ⟨events, hload, hlength, hall, hany⟩ := ih fun r hr => h r (List.mem_cons_of_mem row hr)
    refine ⟨⟨p.type, row.occurredAt, toString gameID, row.version, p⟩ :: events, ?_,
      congrArg (· + 1) hlength, ?_, ?_⟩
    · rw [List.mapM_cons, hp.load gameID, hload]
      rfl
    · simpa using ⟨hfits, hall⟩
    · rw [List.any_cons, List.any_cons, hany, hp.terminal]

theorem foldlM_frame {events : List DomainEvent} (htypes : ∀ e ∈ events, e.type = e.payload.type)
    (h : events.foldlM Game.applyEvent g = some g') :
    g'.uncommittedEvents = g.uncommittedEvents ∧ g'.version = g.version + events.length := by
  induction events generalizing g with
  | nil =>
    obtain rfl := Option.some.inj h
    simp
  | cons e events ih =>
    rw [List.foldlM_cons] at h
    obtain ⟨g₁, happly, hfold⟩ := Option.bind_eq_some_iff.mp h
    obtain ⟨hevents, hversion, -⟩ := applyEvent_frame (htypes e List.mem_cons_self) happly
    obtain ⟨hevents', hversion'⟩ := ih (fun e' he' => htypes e' (List.mem_cons_of_mem e he')) hfold
    refine ⟨hevents'.trans hevents, ?_⟩
    rw [hversion', hversion, List.length_cons]
    push_cast
    ring

structure Loaded (roster : List Player) (n : ℕ) (rows : List EventRow) (g : Game) : Prop where
  shaped : Shaped roster n g
  clean : g.uncommittedEvents = []
  version : g.version = rows.length
  ended : g.hasEnded = rows.any EventRow.terminal

theorem Intact.pos (h : Intact gameID roster n rows) : 0 < rows.length := by
  obtain ⟨created, rest, rfl, -⟩ := h.rows
  simp

theorem Intact.orderByVersion (h : Intact gameID roster n rows) (db : Database) :
    ∃ created rest, db.orderByVersion rows = created :: rest ∧
      created.Holds (.gameCreated ⟨gameID, n, roster⟩) ∧
      ∀ row ∈ rest, ∃ p, row.Holds p ∧ p.Fits n roster.length := by
  obtain ⟨created, rest, rfl, hfirst, hcreated, hrest⟩ := h.rows
  have hperm := db.perm (created :: rest)
  have hsorted := db.sorted (created :: rest)
  cases hordered : db.orderByVersion (created :: rest) with
  | nil =>
    rw [hordered] at hperm
    simp at hperm
  | cons row ordered =>
    rw [hordered] at hperm hsorted
    obtain rfl : row = created := by
      rcases List.mem_cons.mp (hperm.mem_iff.mp List.mem_cons_self) with heq | hmem
      · exact heq
      · obtain ⟨hlater, -⟩ := hrest row hmem
        rcases List.mem_cons.mp (hperm.mem_iff.mpr List.mem_cons_self) with heq | hmem'
        · exact heq.symm
        · have hle := (List.pairwise_cons.mp hsorted).1 created hmem'
          omega
    refine ⟨row, ordered, rfl, hcreated, fun r hr => (hrest r ?_).2⟩
    exact hperm.cons_inv.mem_iff.mp hr

theorem Intact.findByID (h : Intact gameID roster n rows) (hk : 0 < roster.length)
    (db : Database) :
    ∃ g, db.findByID gameID rows = some (.ok (some g)) ∧ Loaded roster n rows g := by
  obtain ⟨created, rest, hordered, hcreated, hrest⟩ := h.orderByVersion db
  obtain ⟨events, hload, hlength, hfits, hany⟩ := mapM_load_of_fits gameID hrest
  set first : DomainEvent :=
    ⟨.gameCreated, created.occurredAt, toString gameID, created.version,
      .gameCreated ⟨gameID, n, roster⟩⟩ with hfirst
  have hevents : db.loadEvents gameID rows = .ok (first :: events) := by
    rw [Database.loadEvents, hordered, List.mapM_cons, hcreated.load gameID, hload]
    rfl
  obtain ⟨g₁, happly, h₁⟩ := Shaped.created (g := {}) (n := n) hk (e := first) rfl rfl
  obtain ⟨g, hfold, hshaped⟩ := h₁.foldlM hfits
  have hgame : Game.loadFromEvents (first :: events) = some g := by
    rw [Game.loadFromEvents, List.foldlM_cons, happly]
    exact hfold
  have htypes : ∀ e ∈ first :: events, e.type = e.payload.type := by
    simpa [hfirst, Payload.type] using fun e he => (hfits e he).1
  obtain ⟨hclean, hversion⟩ := foldlM_frame htypes hgame
  have hcount : (first :: events).length = rows.length := by
    rw [← (db.perm rows).length_eq, hordered, List.length_cons, List.length_cons, hlength]
  refine ⟨g, by simp [Database.findByID, hevents, hgame], hshaped, hclean, ?_, ?_⟩
  · rw [hversion, hcount]
    simp
  · rw [foldlM_hasEnded htypes hgame, ← (db.perm rows).any_eq, hordered, List.any_cons,
      List.any_cons, hany, hcreated.terminal]
    rfl

theorem Intact.append (h : Intact gameID roster n rows) {events : List DomainEvent}
    (hfits : ∀ e ∈ events, e.type = e.payload.type ∧ e.payload.Fits n roster.length ∧
      2 ≤ e.version) : Intact gameID roster n (db.appendEvents rows events) := by
  obtain ⟨created, rest, rfl, hfirst, hcreated, hrest⟩ := h.rows
  refine ⟨created, rest ++ events.map db.row, rfl, hfirst, hcreated, fun row hrow => ?_⟩
  rcases List.mem_append.mp hrow with hrow | hrow
  · exact hrest row hrow
  · obtain ⟨e, he, rfl⟩ := List.mem_map.mp hrow
    obtain ⟨htype, hfit, hversion⟩ := hfits e he
    exact ⟨hversion, e.payload, EventRow.holds_row htype, hfit⟩

/-- The rows say that the game has ended when one of them did, or one of the events does. -/
theorem any_terminal_appendEvents {events : List DomainEvent}
    (htypes : ∀ e ∈ events, e.type = e.payload.type) :
    (db.appendEvents rows events).any EventRow.terminal =
      (rows.any EventRow.terminal || events.any fun e => e.payload.terminal) := by
  rw [Database.appendEvents, List.any_append, List.any_map]
  congr 1
  rw [Bool.eq_iff_iff, List.any_eq_true, List.any_eq_true]
  refine exists_congr fun e => and_congr_right fun he => ?_
  rw [Function.comp_apply, (EventRow.holds_row (htypes e he)).terminal]

/-- What a command that is accepted has recorded: the event that stands for it, and those that
follow from it. -/
structure Recording (roster : List Player) (n : ℕ) (first : Payload) (g g' : Game)
    (new : List DomainEvent) : Prop where
  events : g'.uncommittedEvents = g.uncommittedEvents ++ new
  payloads : ∃ rest, new.map (·.payload) = first :: rest ∧
    ∀ p ∈ rest, first.Follows n roster.length p
  typed : ∀ e ∈ new, e.type = e.payload.type ∧ e.payload.Fits n roster.length ∧
    g.version < e.version
  version : g'.version = g.version + new.length
  ended : g'.hasEnded = new.any fun e => e.payload.terminal

theorem Game.Changes.recording {first : Payload} (hc : Changes roster n first now g g') :
    ∃ new, Recording roster n first g g' new := by
  obtain ⟨hrun, hfirst, payloads, hrest, hraise⟩ := hc
  have hfits : ∀ p ∈ first :: payloads, p.Fits n roster.length := by
    simpa using ⟨hfirst, fun p hp => (hrest p hp).fits⟩
  have hcreated (q : GameCreatedPayload) : .gameCreated q ∉ first :: payloads := by
    intro hq
    obtain ⟨act, hden⟩ := hfits _ hq
    cases hden
  obtain ⟨hevents, hversion, -⟩ := raiseAll_records hcreated hraise
  have hmap := map_payload_stamped now g.aggregateID g.version (first :: payloads)
  set new := stamped now g.aggregateID g.version (first :: payloads) with hnew
  refine ⟨new, hevents, ⟨payloads, hmap, hrest⟩, fun e he => ?_, ?_, ?_⟩
  · refine ⟨type_of_mem_stamped he, hfits _ ?_, (version_of_mem_stamped he).1⟩
    rw [← hmap]
    exact List.mem_map_of_mem he
  · rw [hversion, hnew, length_stamped]
  · rw [raiseAll_hasEnded hraise, hrun, Bool.false_or, ← hmap, List.any_map]
    rfl

theorem Recording.first_of_move {first : Payload} {new : List DomainEvent}
    (h : Recording roster n first g g' new) {p : MoveAppliedPayload}
    (hp : .moveApplied p ∈ new.map (·.payload)) : first = .moveApplied p := by
  obtain ⟨rest, hmap, hrest⟩ := h.payloads
  rw [hmap] at hp
  rcases List.mem_cons.mp hp with heq | hmem
  · exact heq.symm
  · exact absurd rfl ((hrest _ hmem).no_move p)

end DotsAndBoxes
