import DotsAndBoxes.Service.Clocks
import DotsAndBoxes.Service.Passes

/-! # Projections

A call writes the projection in a transaction of its own, some time after it has appended its
events, from the aggregate it has then. What is read from the projection in the end is the
state of the log if whoever writes last has all of its events.
-/

namespace DotsAndBoxes

open Slices Enclosure Runs Game

variable {n : ℕ} {roster : List Player} {g g' : Game} {now : Time} {db : Database} {gameID : ℤ}
  {rows base : List EventRow} {task : Task} {todo : List Effect}

def Game.projection (g : Game) : Projection where
  currentTurn := g.currentTurn
  winnerID := g.winnerID
  endedAt := g.endedAt
  details := g.players.filterMap Player.detail

def Detail.scored (d : Detail) (p : Player) : Detail :=
  if p.userID.isNone then d
  else if d.turnOrder = p.turnOrder then { d with score := p.score } else d

theorem foldl_updateScore (players : List Player) (details : List Detail) :
    players.foldl Projection.updateScore details =
      details.map fun d => players.foldl Detail.scored d := by
  induction players generalizing details with
  | nil => simp
  | cons p players ih =>
    have hone : Projection.updateScore details p = details.map (·.scored p) := by
      unfold Projection.updateScore Detail.scored
      split <;> simp
    rw [List.foldl_cons, hone, ih, List.map_map]
    rfl

theorem foldl_scored_seat (players : List Player) (d : Detail) :
    (players.foldl Detail.scored d).userID = d.userID ∧
      (players.foldl Detail.scored d).turnOrder = d.turnOrder := by
  induction players generalizing d with
  | nil => exact ⟨rfl, rfl⟩
  | cons p players ih =>
    have hone : (d.scored p).userID = d.userID ∧ (d.scored p).turnOrder = d.turnOrder := by
      unfold Detail.scored
      split
      · exact ⟨rfl, rfl⟩
      · split <;> exact ⟨rfl, rfl⟩
    rw [List.foldl_cons, (ih _).1, (ih _).2]
    exact hone

theorem foldl_scored_score {players : List Player} {d : Detail} {score : ℤ}
    (h : ∀ p ∈ players, p.userID.isSome = true → p.turnOrder = d.turnOrder → p.score = score) :
    (players.foldl Detail.scored d).score = score ∨
      (players.foldl Detail.scored d).score = d.score ∧
        ∀ p ∈ players, p.userID.isSome = true → p.turnOrder ≠ d.turnOrder := by
  induction players generalizing d with
  | nil => exact .inr ⟨rfl, by simp⟩
  | cons p players ih =>
    have hturn : (d.scored p).turnOrder = d.turnOrder := (foldl_scored_seat [p] d).2
    have hrest := ih (d := d.scored p) fun q hq huser hseat =>
      h q (List.mem_cons_of_mem p hq) huser (hseat.trans hturn)
    rw [List.foldl_cons]
    by_cases hmatch : p.userID.isSome = true ∧ p.turnOrder = d.turnOrder
    · left
      have hscored : (d.scored p).score = score := by
        rw [← h p List.mem_cons_self hmatch.1 hmatch.2]
        simp [Detail.scored, hmatch.2, Option.isNone_eq_false_iff.mpr hmatch.1]
      rcases hrest with hscore | ⟨hscore, -⟩
      · exact hscore
      · exact hscore.trans hscored
    · have hsame : d.scored p = d := by
        unfold Detail.scored
        split
        · rfl
        case isFalse huser =>
          have hsome : p.userID.isSome = true := by
            simpa [Option.isSome_iff_ne_none] using huser
          rw [if_neg fun hseat => hmatch ⟨hsome, hseat.symm⟩]
      rw [hsame] at hrest ⊢
      rcases hrest with hscore | ⟨hscore, hnone⟩
      · exact .inl hscore
      · refine .inr ⟨hscore, fun q hq huser hseat => ?_⟩
        rcases List.mem_cons.mp hq with rfl | hq
        · exact hmatch ⟨huser, hseat⟩
        · exact hnone q hq huser hseat

/-- The rows of a game have the users and the seats of its players. -/
def SameSeats (details : List Detail) (players : List Player) : Prop :=
  List.Forall₂ (fun d p => p.userID = some d.userID ∧ p.turnOrder = d.turnOrder) details players

theorem SameSeats.updated {details : List Detail} {players : List Player}
    (h : SameSeats details players) (players' : List Player) :
    SameSeats (players'.foldl Projection.updateScore details) players := by
  rw [foldl_updateScore]
  refine List.forall₂_map_left_iff.mpr (h.imp fun d p hd => ?_)
  obtain ⟨huser, hturn⟩ := foldl_scored_seat players' d
  rw [huser, hturn]
  exact hd

theorem filterMap_eq_map_of_forall₂ {α β γ : Type} {f : α → γ} {g : β → Option γ} {xs : List α}
    {ys : List β} (h : List.Forall₂ (fun x y => g y = some (f x)) xs ys) :
    ys.filterMap g = xs.map f := by
  induction h with
  | nil => rfl
  | cons hxy _ ih => rw [List.filterMap_cons_some hxy, ih, List.map_cons]

theorem SameSeats.scored {details : List Detail} {players : List Player}
    (h : SameSeats details players)
    (halone : ∀ p ∈ players, ∀ q ∈ players, p.turnOrder = q.turnOrder → p = q) :
    players.foldl Projection.updateScore details = players.filterMap Player.detail := by
  have hrow (d : Detail) (p : Player) (hp : p ∈ players)
      (hd : p.userID = some d.userID ∧ p.turnOrder = d.turnOrder) :
      p.detail = some (players.foldl Detail.scored d) := by
    obtain ⟨huser, hturn⟩ := foldl_scored_seat players d
    have hscore : (players.foldl Detail.scored d).score = p.score := by
      have hsame (q : Player) (hq : q ∈ players) (_ : q.userID.isSome = true)
          (hseat : q.turnOrder = d.turnOrder) : q.score = p.score := by
        rw [halone q hq p hp (hseat.trans hd.2.symm)]
      rcases foldl_scored_score hsame with hscore | ⟨-, hnone⟩
      · exact hscore
      · exact absurd hd.2 (hnone p hp (by rw [hd.1]; rfl))
    rw [Player.detail, hd.1, Option.map_some, hd.2, ← huser, ← hturn, ← hscore]
  have hrows : List.Forall₂ (fun d p => p.detail = some (players.foldl Detail.scored d))
      details players :=
    List.forall₂_iff_zip.mpr ⟨h.length_eq, fun hmem =>
      hrow _ _ (List.of_mem_zip hmem).2 ((List.forall₂_iff_zip.mp h).2 hmem)⟩
  rw [foldl_updateScore, filterMap_eq_map_of_forall₂ hrows]

/-- The game is what is read back after the aggregate has been appended. -/
structure ReadBack (db : Database) (aggregate g : Game) : Prop where
  sameView : SameView aggregate g
  endedAt : g.endedAt = aggregate.endedAt.map db.precision

theorem Stored.loadEvents_append {events : List DomainEvent} (hs : Stored gameID g rows)
    (hs' : Stored gameID g' (db.appendEvents rows events))
    (htypes : ∀ e ∈ events, e.type = e.payload.type) {es : List DomainEvent}
    (hload : db.loadEvents gameID rows = .ok es) :
    db.loadEvents gameID (db.appendEvents rows events) = .ok (es ++ events.map (db.loaded gameID)) := by
  have hrows : rows.mapM (EventRow.load gameID) = .ok es := by
    rw [← hload, Database.loadEvents, db.orderByVersion_eq hs.ordered]
  rw [Database.loadEvents, db.orderByVersion_eq hs'.ordered, Database.appendEvents, List.mapM_append,
    hrows, mapM_load_row db gameID htypes]
  rfl

theorem findByID_eq_some (h : db.findByID gameID rows = some (.ok (some g))) :
    ∃ es, db.loadEvents gameID rows = .ok es ∧ 0 < es.length ∧ loadFromEvents es = some g := by
  unfold Database.findByID at h
  split at h
  · cases h
  case h_2 es hload =>
    split at h
    case isTrue hpos =>
      obtain ⟨g₁, hfold, heq⟩ := Option.map_eq_some_iff.mp h
      cases heq
      exact ⟨es, hload, hpos, hfold⟩
    case isFalse => cases h

theorem occurredAt_of_mem_stamped {aggregateID : String} {version : ℤ} {ps : List Payload}
    {e : DomainEvent} (h : e ∈ stamped now aggregateID version ps) : e.occurredAt = now := by
  induction ps generalizing version with
  | nil => cases h
  | cons p ps ih =>
    rcases List.mem_cons.mp h with rfl | h
    · rfl
    · exact ih h

/-- What a call has made of the newest game is read back from the rows once it is appended. -/
theorem Prepared.readBack (hp : Prepared db gameID roster n task base g' todo)
    (hs : Stored gameID g base) :
    Stored gameID g' (db.appendEvents base g'.uncommittedEvents) ∧
      ∃ h, db.findByID gameID (db.appendEvents base g'.uncommittedEvents) = some (.ok (some h)) ∧
        ReadBack db g' h := by
  obtain ⟨now, g₀, hfetched, hsucceeds⟩ := hp
  obtain ⟨first, -, hchanges, -⟩ := hsucceeds.changes hfetched.shaped
  obtain ⟨payloads, hcreated, hraise⟩ := hchanges.raises
  obtain ⟨hevents, -, -⟩ := raiseAll_records hcreated hraise
  rw [hfetched.clean, List.nil_append] at hevents
  have hs₀ : Stored gameID g₀ base := hs.sameView (hs.findByID db hfetched.found).sameView
  have hs' := hs₀.append db g₀.aggregateID hcreated hraise
  rw [hevents]
  refine ⟨hs', ?_⟩
  set new := stamped now g₀.aggregateID g₀.version payloads with hnew
  have htypes : ∀ e ∈ new, e.type = e.payload.type := fun e he => type_of_mem_stamped he
  obtain ⟨es, hload, hpos, hfold⟩ := findByID_eq_some hfetched.found
  have hload' := hs₀.loadEvents_append hs' htypes hload
  obtain ⟨es', h, hes', hfold', hr⟩ := hs'.loadEvents db
  obtain rfl : es ++ new.map (db.loaded gameID) = es' := Except.ok.inj (hload'.symm.trans hes')
  refine ⟨h, ?_, hr.sameView, ?_⟩
  · have hlength : 0 < (es ++ new.map (db.loaded gameID)).length := by
      rw [List.length_append]
      omega
    simp only [Database.findByID, hload', hfold', Option.map_some]
    exact if_pos hlength
  · have hreplay : (new.map (db.loaded gameID)).foldlM Game.applyEvent g₀ = some h := by
      rw [loadFromEvents, List.foldlM_append] at hfold'
      obtain ⟨g₁, hfirst, hrest⟩ := Option.bind_eq_some_iff.mp hfold'
      cases hfold.symm.trans hfirst
      exact hrest
    have hread : ∀ e ∈ new.map (db.loaded gameID),
        e.type = e.payload.type ∧ e.occurredAt = db.precision now := by
      intro e he
      obtain ⟨e₀, he₀, rfl⟩ := List.mem_map.mp he
      exact ⟨htypes e₀ he₀, congrArg db.precision (occurredAt_of_mem_stamped he₀)⟩
    have hopen : g₀.endedAt = none := by simpa [hasEnded] using hchanges.running
    have hterminal : (new.map (db.loaded gameID)).any (fun e => e.payload.terminal) =
        payloads.any Payload.terminal := by
      rw [List.any_map, ← map_payload_stamped now g₀.aggregateID g₀.version payloads, List.any_map]
      rfl
    rw [foldlM_endedAt hread hreplay, raiseAll_endedAt hraise, hterminal, hopen]
    cases payloads.any Payload.terminal <;> rfl

theorem SameSeats.of_shaped {details : List Detail} (h : SameSeats details roster)
    (hg : Shaped roster n g) : SameSeats details g.players := by
  have hmap (players : List Player) :
      SameSeats details (players.map Player.unscored) ↔ SameSeats details players :=
    List.forall₂_map_right_iff
  rw [← hmap, hg.players, hmap]
  exact h

theorem Shaped.eq_of_turnOrder (h : Shaped roster n g) (hseat : Seated roster) {p q : Player}
    (hp : p ∈ g.players) (hq : q ∈ g.players) (hpq : p.turnOrder = q.turnOrder) : p = q := by
  obtain ⟨i, hi, rfl⟩ := List.getElem_of_mem hp
  obtain ⟨j, hj, rfl⟩ := List.getElem_of_mem hq
  rw [h.turnOrder_getElem hseat hi, h.turnOrder_getElem hseat hj] at hpq
  obtain rfl : i = j := by exact_mod_cast hpq
  rfl

/-- Writing an aggregate that is read back as the game brings the projection up to date. -/
theorem ReadBack.update {aggregate : Game} (h : ReadBack db aggregate g)
    (hg : Shaped roster n g) (hseat : Seated roster) {projection : Projection}
    (hseats : SameSeats projection.details roster) :
    projection.update db aggregate = g.projection := by
  have hturn : aggregate.currentTurn = g.currentTurn := congrArg View.currentTurn h.sameView
  have hwinner : aggregate.winnerID = g.winnerID := congrArg View.winnerID h.sameView
  have hplayers : aggregate.players = g.players := congrArg View.players h.sameView
  rw [Projection.update, hturn, hwinner, ← h.endedAt, hplayers,
    (hseats.of_shaped hg).scored fun p hp q hq => hg.eq_of_turnOrder hseat hp hq]
  rfl

namespace World

variable {w w' : World} {act : Act} {projection : Projection}

/-- The step is no failure, and what is appended was made of all the rows that are there. -/
def orderly (w : World) : Act → Bool
  | .fail _ => false
  | .append i =>
    match w.calls i, w.store with
    | some ⟨_, .changed base _ _⟩, .persisted rows _ => base.length = rows.length
    | _, _ => true
  | _ => true

/-- If the step writes the projection, then from an aggregate that has all stored events. -/
def writesNewest (w : World) : Act → Bool
  | .effect i =>
    match w.calls i, w.store with
    | some ⟨_, .finishing _ (.updateProjection g :: _)⟩, .persisted rows _ =>
      g.version = rows.length
    | _, _ => true
  | _ => true

/-- A call has still to write an aggregate that has all stored events. -/
def OwesNewest (w : World) : Prop :=
  ∃ rows projection g, w.store = .persisted rows projection ∧ w.Owes (.updateProjection g) ∧
    g.version = rows.length

/-- The projection is that of the game which is read back from the rows, or a call is to write
it. -/
structure Synced (db : Database) (gameID : ℤ) (roster : List Player) (n : ℕ)
    (rows : List EventRow) (projection : Projection) (g : Game) (w : World) : Prop
    extends w.Coherent db gameID roster n where
  store : w.store = .persisted rows projection
  fetched : Fetched db gameID roster n rows g
  stored : Stored gameID g rows
  seats : SameSeats projection.details roster
  bases : ∀ i task stage base, w.calls i = some ⟨task, stage⟩ → stage.base = some base →
    base <+: rows
  owed : ∀ aggregate, w.Owes (.updateProjection aggregate) → aggregate.version ≤ rows.length ∧
    (aggregate.version = rows.length → ReadBack db aggregate g)
  current : projection = g.projection ∨
    ∃ aggregate, w.Owes (.updateProjection aggregate) ∧ aggregate.version = rows.length

theorem Synced.bases_step (h : w.Synced db gameID roster n rows projection g)
    (hstep : Step db gameID w act w') {rows' : List EventRow} (hrows : rows <+: rows') :
    ∀ i task stage base, w'.calls i = some ⟨task, stage⟩ → stage.base = some base →
      base <+: rows' := by
  intro i task stage base hcall hbase
  rcases hstep.base hcall hbase with ⟨stage₀, hcall₀, hbase₀⟩ | ⟨-, projection₀, hstore⟩
  · exact (h.bases i task stage₀ base hcall₀ hbase₀).trans hrows
  · cases h.store.symm.trans hstore
    exact hrows

theorem Synced.congr (h : w.Synced db gameID roster n rows projection g)
    (hw : w'.Coherent db gameID roster n) (hstep : Step db gameID w act w')
    (hstore : w'.store = w.store)
    (howes : ∀ aggregate, w'.Owes (.updateProjection aggregate) ↔
      w.Owes (.updateProjection aggregate)) :
    w'.Synced db gameID roster n rows projection g := by
  refine ⟨hw, hstore.trans h.store, h.fetched, h.stored, h.seats,
    h.bases_step hstep (List.prefix_refl rows), ?_, ?_⟩
  · intro aggregate haggregate
    exact h.owed aggregate ((howes aggregate).mp haggregate)
  · rcases h.current with hcurrent | ⟨aggregate, haggregate, hversion⟩
    · exact .inl hcurrent
    · exact .inr ⟨aggregate, (howes aggregate).mpr haggregate, hversion⟩

/-- A call that does something else leaves the projections that are to be written. -/
theorem owes_updateProjection_iff {i : ℕ} {e : Effect} {rest : List Effect} {aggregate : Game}
    (hi : w.owed i = e :: rest) (howed : w'.owed = Function.update w.owed i rest)
    (he : ∀ g, e ≠ .updateProjection g) :
    w'.Owes (.updateProjection aggregate) ↔ w.Owes (.updateProjection aggregate) :=
  ⟨fun howes => howes.before hi howed,
    fun howes => (howes.carried hi howed).resolve_left (Ne.symm (he aggregate))⟩

theorem Synced.append (h : w.Synced db gameID roster n rows projection g) (hk : 0 < roster.length)
    (hw : w'.Coherent db gameID roster n) (hstep : Step db gameID w act w') {i : ℕ}
    (hcall : w.calls i = some ⟨task, .changed rows g' todo⟩)
    (hstore : w'.store = .persisted (db.appendEvents rows g'.uncommittedEvents) projection)
    (howed : w'.owed = Function.update w.owed i (todo.filter Effect.essential)) :
    ∃ g₁, w'.Synced db gameID roster n (db.appendEvents rows g'.uncommittedEvents) projection
      g₁ := by
  have hprepared : Prepared db gameID roster n task rows g' todo := h.calls i task _ hcall
  obtain ⟨hstored, g₁, hfound, hread⟩ := hprepared.readBack h.stored
  obtain ⟨g₀, first, hfetched, -, -, hrecording, -⟩ := hprepared.recording
  obtain ⟨now, g₂, -, hsucceeds⟩ := hprepared
  set rows' := db.appendEvents rows g'.uncommittedEvents with hrows'
  have hlength : rows'.length = rows.length + g'.uncommittedEvents.length := by
    rw [hrows', Database.appendEvents, List.length_append, List.length_map]
  have hversion : g'.version = rows'.length := by
    rw [hrecording.version, hfetched.version, hlength]
    push_cast
    rfl
  have hsome : 0 < g'.uncommittedEvents.length := by
    obtain ⟨rest, hmap, -⟩ := hrecording.payloads
    rw [← List.length_map (·.payload), hmap]
    exact Nat.succ_pos _
  have hgrows : rows <+: rows' := List.prefix_append rows _
  have howes (aggregate : Game) : w'.Owes (.updateProjection aggregate) ↔
      aggregate = g'.clearEvents ∨ w.Owes (.updateProjection aggregate) := by
    rw [owes_iff_of_changed (owed_of_calls hcall) howed, List.mem_filter,
      hsucceeds.projects aggregate]
    simp [Effect.essential]
  refine ⟨g₁, hw, hstore, (hw.intact hstore).fetched_of_findByID hk hfound,
    hstored.sameView hread.sameView, h.seats, h.bases_step hstep hgrows, ?_, ?_⟩
  · intro aggregate haggregate
    rcases (howes aggregate).mp haggregate with rfl | hbefore
    · exact ⟨hversion.le, fun _ => ⟨hread.sameView, hread.endedAt⟩⟩
    · have hle := (h.owed aggregate hbefore).1
      constructor
      · omega
      · intro hnewest
        omega
  · exact .inr ⟨g'.clearEvents, (howes _).mpr (.inl rfl), hversion⟩

/-- A call writes the projection, from the newest aggregate or before another call does. -/
theorem Synced.updateProjection (h : w.Synced db gameID roster n rows projection g)
    (hseat : Seated roster) (hw : w'.Coherent db gameID roster n)
    (hstep : Step db gameID w act w') {i : ℕ} {aggregate : Game} {rest : List Effect}
    (hi : w.owed i = .updateProjection aggregate :: rest)
    (hstore : w'.store = .persisted rows (projection.update db aggregate))
    (howed : w'.owed = Function.update w.owed i rest)
    (hnewest : aggregate.version = rows.length ∨ w.OwesNewest) :
    w'.Synced db gameID roster n rows (projection.update db aggregate) g := by
  have howes : w.Owes (.updateProjection aggregate) := ⟨i, hi ▸ List.mem_cons_self⟩
  refine ⟨hw, hstore, h.fetched, h.stored, h.seats.updated aggregate.players,
    h.bases_step hstep (List.prefix_refl rows), ?_, ?_⟩
  · intro aggregate' howes'
    exact h.owed aggregate' (howes'.before hi howed)
  · have hwritten (hversion : aggregate.version = rows.length) :
        projection.update db aggregate = g.projection :=
      ((h.owed aggregate howes).2 hversion).update h.fetched.shaped hseat h.seats
    rcases hnewest with hversion | ⟨rows₀, _, newest, hstore₀, hnewest, hversion⟩
    · exact .inl (hwritten hversion)
    · cases h.store.symm.trans hstore₀
      rcases hnewest.carried hi howed with heq | hleft
      · cases heq
        exact .inl (hwritten hversion)
      · exact .inr ⟨newest, hleft, hversion⟩

/-- Every orderly step keeps the projection in step with the log, if the newest aggregate is
written last. -/
theorem Synced.step (h : w.Synced db gameID roster n rows projection g) (hk : 0 < roster.length)
    (hseat : Seated roster) (hstep : Step db gameID w act w') (horderly : w.orderly act = true)
    (hnewest : w.writesNewest act = true ∨ w.OwesNewest) :
    ∃ rows' projection' g', w'.Synced db gameID roster n rows' projection' g' := by
  have hw := h.toCoherent.step hk hseat hstep
  cases hstep.does with
  | aside hstore _ howed =>
    refine ⟨rows, projection, g, h.congr hw hstep hstore fun aggregate => ?_⟩
    rw [Owes, Owes, howed]
  | @updateProjection i task answer aggregate todo rest _ hcall hi hstore htimer howed =>
    refine ⟨rows, _, g, h.updateProjection hseat hw hstep hi ?_ howed ?_⟩
    · rw [hstore, perform, h.store]
    · rw [writesNewest, hcall, h.store] at hnewest
      simpa using hnewest
  | failProjection => cases horderly
  | stopTimer hi hstore _ howed =>
    exact ⟨rows, projection, g, h.congr hw hstep hstore fun aggregate =>
      owes_updateProjection_iff hi howed fun _ => Effect.noConfusion⟩
  | startTimer hi hstore _ howed =>
    exact ⟨rows, projection, g, h.congr hw hstep hstore fun aggregate =>
      owes_updateProjection_iff hi howed fun _ => Effect.noConfusion⟩
  | stopAfterGrace _ hstore _ howed =>
    refine ⟨rows, projection, g, h.congr hw hstep hstore fun aggregate => ?_⟩
    rw [Owes, Owes, howed]
  | @append i task base rows₀ projection₀ g' todo _ hcall hstore hstore' _ howed =>
    cases h.store.symm.trans hstore
    have hlength : base.length = rows.length := by
      rw [orderly, hcall, h.store] at horderly
      simpa using horderly
    obtain rfl : base = rows := (h.bases i task _ base hcall rfl).eq_of_length hlength
    obtain ⟨g₁, h'⟩ := h.append hk hw hstep hcall hstore' howed
    exact ⟨_, _, g₁, h'⟩
  | exclusive _ hstore => cases h.store.symm.trans hstore
  | wake hstore => cases h.store.symm.trans hstore

theorem sameSeats_filterMap_detail {players : List Player}
    (h : ∀ p ∈ players, p.userID.isSome = true) :
    SameSeats (players.filterMap Player.detail) players := by
  induction players with
  | nil => exact .nil
  | cons p players ih =>
    obtain ⟨userID, huser⟩ := Option.isSome_iff_exists.mp (h p List.mem_cons_self)
    have hdetail : p.detail = some ⟨userID, p.turnOrder, p.score⟩ := by
      rw [Player.detail, huser]
      rfl
    rw [List.filterMap_cons_some hdetail]
    exact .cons ⟨huser, rfl⟩ (ih fun q hq => h q (List.mem_cons_of_mem p hq))

theorem create_eq_projection {tempID : Option ℤ} {boardSize : ℤ}
    (hnew : newGame now tempID boardSize roster = some g)
    (hview : SameView (clearEvents { g with gameID := some gameID }) g') :
    Projection.create (clearEvents { g with gameID := some gameID }) = g'.projection := by
  rw [newGame_eq] at hnew
  obtain ⟨grid, -, rfl⟩ := Option.map_eq_some_iff.mp hnew
  have hturn : 0 = g'.currentTurn := congrArg View.currentTurn hview
  have hwinner : none = g'.winnerID := congrArg View.winnerID hview
  have hplayers : roster = g'.players := congrArg View.players hview
  have hended : false = g'.endedAt.isSome := congrArg View.ended hview
  have hopen : g'.endedAt = none := by simpa using hended.symm
  rw [Game.projection, ← hturn, ← hwinner, ← hplayers, hopen]
  rfl

theorem Created.synced (h : Created db gameID w) (hstore : w.store = .persisted rows projection) :
    ∃ n roster g, 0 < roster.length ∧ Seated roster ∧
      w.Synced db gameID roster n rows projection g := by
  obtain ⟨n, roster, g, hw⟩ := h.begins
  obtain ⟨now, tempID, hnew⟩ := hw.new
  rcases hw.kind with ⟨hbot, -⟩ | ⟨g', rows', hcreate, hstore', hcreating⟩
  · cases hstore.symm.trans hbot
  cases hstore.symm.trans hstore'
  have hpos : 0 < roster.length := by
    have hcount := hw.count
    omega
  have hintact := intact_create db hnew hcreate
  obtain ⟨g₁, hfetched⟩ := hintact.fetched hpos db
  have hstored := stored_createdRows db hnew gameID
  have hplayers : g.players = roster := by
    rw [newGame_eq] at hnew
    obtain ⟨grid, -, rfl⟩ := Option.map_eq_some_iff.mp hnew
    rfl
  have hcall (i : ℕ) (task : Task) (stage : Stage) (hcall : w.calls i = some ⟨task, stage⟩) :
      stage.base = none ∧ ∀ aggregate, .updateProjection aggregate ∉ stage.owes := by
    rw [hcreating] at hcall
    obtain ⟨rfl, rfl, rfl⟩ := eq_of_creating hcall
    exact ⟨rfl, by simp [Stage.owes, Effect.essential]⟩
  obtain ⟨hnamed, rfl, rfl⟩ := Database.create_eq_ok hcreate
  have hview := (hstored.findByID db hfetched.found).sameView
  refine ⟨n, roster, g₁, hpos, hw.seated, hw.coherent, hstore, hfetched,
    hstored.sameView hview, ?_, ?_, ?_, .inl (create_eq_projection hnew hview)⟩
  · rw [← hplayers]
    exact sameSeats_filterMap_detail hnamed
  · intro i task stage base hi hbase
    rw [(hcall i task stage hi).1] at hbase
    cases hbase
  · intro aggregate howes
    obtain ⟨i, task, stage, hi, he⟩ := howes.call
    exact absurd he ((hcall i task stage hi).2 aggregate)

/-- If the calls append one after the other and no transaction fails, and the newest aggregate is
always the last to be written, then the projection of a game that rests is the state of its log. -/
theorem projection_is_log (h : Created db gameID w) (hstore : w.store = .persisted rows projection)
    {run : List (Act × World)} (hrun : Along (Step db gameID) w run)
    (horderly : Along (fun w act _ => w.orderly act = true) w run)
    (hnewest : Along (fun w act _ => w.writesNewest act = true ∨ w.OwesNewest) w run)
    (hidle : (last w run).Idle) :
    ∃ rows' projection' g, (last w run).store = .persisted rows' projection' ∧
      db.findByID gameID rows' = some (.ok (some g)) ∧ projection' = g.projection := by
  obtain ⟨n, roster, g, hk, hseat, hw⟩ := h.synced hstore
  have hkeep (w : World) (act : Act) (w' : World)
      (hw : ∃ rows projection g, w.Synced db gameID roster n rows projection g)
      (hstep : (Step db gameID w act w' ∧ w.orderly act = true) ∧
        (w.writesNewest act = true ∨ w.OwesNewest)) :
      ∃ rows projection g, w'.Synced db gameID roster n rows projection g := by
    obtain ⟨_, _, _, hw⟩ := hw
    exact hw.step hk hseat hstep.1.1 hstep.1.2 hstep.2
  obtain ⟨rows', projection', g', hlast⟩ :=
    ((hrun.and horderly).and hnewest).inv_last ⟨rows, projection, g, hw⟩ hkeep
  refine ⟨rows', projection', g', hlast.store, hlast.fetched.found, ?_⟩
  rcases hlast.current with hcurrent | ⟨aggregate, howes, -⟩
  · exact hcurrent
  · exact absurd howes (hidle.not_owes _)

theorem projection_is_log_duel : ∃ run,
    duelWorld.play .byInsertion 1 .first 3 moveThenForfeit = some run ∧
      ∃ rows projection g, (last duelWorld run).store = .persisted rows projection ∧
        Database.byInsertion.findByID 1 rows = some (.ok (some g)) ∧
        projection = g.projection := by
  have hsome : ((duelWorld.play .byInsertion 1 .first 3 moveThenForfeit).map fun run =>
      (decide (Along (fun w act _ => w.orderly act = true ∧ w.writesNewest act = true)
        duelWorld run), (last duelWorld run).returnedBelow 3)) = some (true, true) := by
    decide +kernel
  obtain ⟨run, hplay, hlast⟩ := Option.map_eq_some_iff.mp hsome
  obtain ⟨hrest, hreturned⟩ := Prod.mk.inj hlast
  have hwrites := of_decide_eq_true hrest
  have hnumbered := numbered_duelWorld (m := 3) (by omega)
  exact ⟨run, hplay, projection_is_log created_duelWorld rfl (along_play hnumbered hplay)
    (hwrites.imp fun _ _ _ => And.left) (hwrites.imp fun _ _ _ h => .inl h.2)
    ((hnumbered.play hplay).idle hreturned)⟩

/-- A player moves. Before the projection of the move is written, the other one forfeits. -/
def lateProjection : List Order :=
  let go (i m : ℕ) : List Order := List.replicate m (.go i)
  go 0 2 ++ [.receive 1 (.makeMove (some 7) 7 0 0 "top")] ++ go 1 3 ++
    [.receive 2 (.forfeit 8)] ++ go 2 7 ++ go 1 3

/-- The end of the game is on record, but not in its projection. -/
def endMissing (db : Database) (gameID : ℤ) (w : World) : Bool :=
  match w.store with
  | .bot _ => false
  | .persisted rows projection =>
    match db.findByID gameID rows with
    | some (.ok (some g)) => g.hasEnded && projection.endedAt.isNone
    | _ => false

theorem end_overwritten : Created .byInsertion 1 duelWorld ∧
    ∃ run, Along (Step .byInsertion 1) duelWorld run ∧
      Along (fun w act _ => w.orderly act = true) duelWorld run ∧ (last duelWorld run).Idle ∧
      ∃ rows projection g, (last duelWorld run).store = .persisted rows projection ∧
        Database.byInsertion.findByID 1 rows = some (.ok (some g)) ∧
        g.hasEnded = true ∧ projection.endedAt = none ∧ projection ≠ g.projection := by
  have hsome : ((duelWorld.play .byInsertion 1 .first 3 lateProjection).map fun run =>
      (decide (Along (fun w act _ => w.orderly act = true) duelWorld run),
        (last duelWorld run).returnedBelow 3, (last duelWorld run).endMissing .byInsertion 1)) =
      some (true, true, true) := by
    decide +kernel
  obtain ⟨run, hplay, hlast⟩ := Option.map_eq_some_iff.mp hsome
  obtain ⟨horderly, hreturned, hmissing⟩ := by simpa only [Prod.mk.injEq] using hlast
  have hnumbered := numbered_duelWorld (m := 3) (by omega)
  refine ⟨created_duelWorld, run, along_play hnumbered hplay, of_decide_eq_true horderly,
    (hnumbered.play hplay).idle hreturned, ?_⟩
  unfold endMissing at hmissing
  split at hmissing
  case h_1 => cases hmissing
  case h_2 rows projection hstore =>
    split at hmissing
    case h_1 g hfound =>
      obtain ⟨hended, hopen⟩ : g.hasEnded = true ∧ projection.endedAt = none := by
        simpa using hmissing
      refine ⟨rows, projection, g, hstore, hfound, hended, hopen, ?_⟩
      rintro rfl
      rw [hasEnded, show g.endedAt = none from hopen] at hended
      cases hended
    case h_2 => cases hmissing

end World

end DotsAndBoxes
