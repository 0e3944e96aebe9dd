import DotsAndBoxes.Game.Grammar
import DotsAndBoxes.Service.Requests

/-! # The event log under concurrent requests

A request that appends to the log it loaded extends the log of a game played by the
rules. If every append is to the log its request loaded, then the log is that of the
successful requests one after the other, and it is safe: versions count up, and
nothing is claimed twice, scored twice, or played after the end. The version column
has no constraint, so two requests that load the same log both succeed, and the log
is not safe.
-/

namespace DotsAndBoxes

open Slices Enclosure Serial Game

variable {n : ℕ} {roster : List Player} {g g' : Game} {pos : BoardPosition n roster.length}

def EventRow.decode (row : EventRow) : Except LoadError Payload :=
  deserializePayload row.eventType row.payload

def Payload.claimed (n : ℕ) : Payload → Option (Segment n)
  | .moveApplied p => Move.segment n ⟨p.turnOrder, p.row, p.col, .ofString p.edge⟩
  | _ => none

def Payload.scored : Payload → Option (ℤ × ℤ)
  | .boxCompleted p => some (p.row, p.col)
  | _ => none

def EventRow.said {α : Type} (what : Payload → Option α) (row : EventRow) : Option α :=
  match row.decode with
  | .ok p => what p
  | .error _ => none

def EventRow.terminal (row : EventRow) : Bool :=
  row.eventType = EventType.gameEnded.toString ∨ row.eventType = EventType.gameForfeited.toString

/-- Versions count up from one, and nothing is claimed twice, scored twice or played after
the end. -/
structure SafeLog (n : ℕ) (rows : List EventRow) : Prop where
  versions : rows.map (·.version) = (List.range rows.length).map fun i : ℕ => (i : ℤ) + 1
  claimedOnce : (rows.filterMap (EventRow.said (Payload.claimed n))).Nodup
  scoredOnce : (rows.filterMap (EventRow.said Payload.scored)).Nodup
  endsLast : ∀ before row after, rows = before ++ row :: after → row.terminal = true → after = []

/-- The rows are those of the events of a game: its creation, then payloads that perform
enabled acts on the empty board. -/
structure History (n : ℕ) (roster : List Player) (hk : 0 < roster.length) (rows : List EventRow)
    (payloads : List Payload) (acts : List (Act (Segment n) (Cell n) (Fin roster.length))) :
    Prop where
  decoded : ∃ created, rows.map EventRow.decode = (.gameCreated created :: payloads).map .ok ∧
    rows.map (·.eventType) =
      (.gameCreated created :: payloads).map fun p : Payload => p.type.toString
  versions : rows.map (·.version) = (List.range rows.length).map fun i : ℕ => (i : ℤ) + 1
  denotes : List.Forall₂ (Denotes n roster.length) payloads acts
  enabled : (emptyBoard n hk).EnabledAll acts

variable {hk : 0 < roster.length} {rows : List EventRow} {payloads : List Payload}
  {acts : List (Act (Segment n) (Cell n) (Fin roster.length))}

theorem filterMap_said {α : Type} (what : Payload → Option α) {rows : List EventRow}
    {payloads : List Payload} (h : rows.map EventRow.decode = payloads.map .ok) :
    rows.filterMap (EventRow.said what) = payloads.filterMap what := by
  induction rows generalizing payloads with
  | nil => cases payloads with
    | nil => rfl
    | cons p payloads => simp at h
  | cons row rows ih =>
    cases payloads with
    | nil => simp at h
    | cons p payloads =>
      simp only [List.map_cons, List.cons.injEq] at h
      have hsaid : row.said what = what p := by simp only [EventRow.said, h.1]
      rw [List.filterMap_cons, List.filterMap_cons, hsaid, ih h.2]

theorem filterMap_claimed (h : List.Forall₂ (Denotes n roster.length) payloads acts) :
    payloads.filterMap (Payload.claimed n) = marks acts := by
  induction h with
  | nil => rfl
  | cons hd _ ih =>
    cases hd with
    | moveApplied turnOrder c s =>
      have hseg : Payload.claimed n (.moveApplied ⟨turnOrder, c.1.val, c.2.val, s.edge.toString⟩) =
          some (Segment.of c s) :=
        Move.segment_eq_some_iff.mpr ⟨c, s, ⟨rfl, rfl, by simp⟩, rfl⟩
      rw [List.filterMap_cons_some hseg, ih]
      rfl
    | boxCompleted c t => exact ih
    | turnPassed t => exact ih
    | gameEnded winnerID => exact ih
    | gameForfeited forfeitedBy winnerID => exact ih

theorem filterMap_scored (h : List.Forall₂ (Denotes n roster.length) payloads acts) :
    payloads.filterMap Payload.scored =
      (owns acts).map fun c => ((c.1.val : ℤ), (c.2.val : ℤ)) := by
  induction h with
  | nil => rfl
  | cons hd _ ih =>
    cases hd with
    | moveApplied turnOrder c s => exact ih
    | boxCompleted c t => exact congrArg (List.cons _) ih
    | turnPassed t => exact ih
    | gameEnded winnerID => exact ih
    | gameForfeited forfeitedBy winnerID => exact ih

theorem finish_of_terminal {p : Payload} {act : Act (Segment n) (Cell n) (Fin roster.length)}
    (h : Denotes n roster.length p act)
    (ht : p.type.toString = EventType.gameEnded.toString ∨
      p.type.toString = EventType.gameForfeited.toString) : act = .finish := by
  cases h with
  | gameEnded winnerID => rfl
  | gameForfeited forfeitedBy winnerID => rfl
  | _ => simp [Payload.type, EventType.toString] at ht

theorem nil_of_terminal {pos : BoardPosition n roster.length} {before after : List Payload}
    {p : Payload} (h : List.Forall₂ (Denotes n roster.length) (before ++ p :: after) acts)
    (hen : pos.EnabledAll acts)
    (ht : p.type.toString = EventType.gameEnded.toString ∨
      p.type.toString = EventType.gameForfeited.toString) : after = [] := by
  induction before generalizing acts pos with
  | nil =>
    obtain ⟨act, acts, hd, hrest, rfl⟩ := List.forall₂_cons_left_iff.mp h
    obtain rfl := finish_of_terminal hd ht
    have hen' : pos.EnabledAll ([] ++ .finish :: acts) := hen
    rwa [hen'.finish_last, List.forall₂_nil_right_iff] at hrest
  | cons q before ih =>
    obtain ⟨act, acts, -, hrest, rfl⟩ := List.forall₂_cons_left_iff.mp h
    exact ih hrest hen.2

theorem History.safe (h : History n roster hk rows payloads acts) : SafeLog n rows := by
  obtain ⟨created, hdecode, htypes⟩ := h.decoded
  refine ⟨h.versions, ?_, ?_, fun before row after hsplit hterm => ?_⟩
  · rw [filterMap_said _ hdecode, List.filterMap_cons_none rfl, filterMap_claimed h.denotes]
    exact h.enabled.marks_nodup.1
  · rw [filterMap_said _ hdecode, List.filterMap_cons_none rfl, filterMap_scored h.denotes]
    apply h.enabled.owns_nodup.1.map
    intro c d hcd
    obtain ⟨hr, hc⟩ := Prod.mk.inj hcd
    exact Prod.ext (Fin.ext (by exact_mod_cast hr)) (Fin.ext (by exact_mod_cast hc))
  · rw [hsplit] at htypes
    cases before with
    | nil =>
      simp only [List.nil_append, List.map_cons, List.cons.injEq] at htypes
      simp [EventRow.terminal, htypes.1, Payload.type, EventType.toString] at hterm
    | cons first before =>
      simp only [List.cons_append, List.map_cons, List.map_append, List.cons.injEq] at htypes
      obtain ⟨ps, qs, rfl, -, hqs⟩ := List.map_eq_append_iff.mp htypes.2.symm
      obtain ⟨p, qs, rfl, hp, hafter⟩ := List.map_eq_cons_iff.mp hqs
      have hnil : qs = [] := nil_of_terminal h.denotes h.enabled
        (by simpa only [EventRow.terminal, decide_eq_true_eq, hp] using hterm)
      rw [hnil] at hafter
      exact List.map_eq_nil_iff.mp hafter.symm

theorem decode_row (db : Database) {event : DomainEvent} (htype : event.type = event.payload.type) :
    (db.row event).decode = .ok event.payload := by
  rw [EventRow.decode, Database.row, htype]
  exact deserializePayload_marshal event.payload

theorem map_decode_row (db : Database) {domainEvents : List DomainEvent}
    (htypes : ∀ e ∈ domainEvents, e.type = e.payload.type) :
    (domainEvents.map db.row).map EventRow.decode = (domainEvents.map (·.payload)).map .ok := by
  rw [List.map_map, List.map_map]
  exact List.map_congr_left fun e he => decode_row db (htypes e he)

theorem map_eventType_row (db : Database) {domainEvents : List DomainEvent}
    (htypes : ∀ e ∈ domainEvents, e.type = e.payload.type) :
    (domainEvents.map db.row).map (·.eventType) =
      (domainEvents.map (·.payload)).map fun p : Payload => p.type.toString := by
  rw [List.map_map, List.map_map]
  exact List.map_congr_left fun e he => congrArg EventType.toString (htypes e he)

theorem History.append (h : History n roster hk rows payloads acts) (db : Database) (now : Time)
    (aggregateID : String) {payloads' : List Payload}
    {acts' : List (Act (Segment n) (Cell n) (Fin roster.length))}
    (hden : List.Forall₂ (Denotes n roster.length) payloads' acts')
    (hen : ((emptyBoard n hk).applyAll acts).EnabledAll acts') :
    History n roster hk
      (db.appendEvents rows (stamped now aggregateID rows.length payloads'))
      (payloads ++ payloads') (acts ++ acts') := by
  obtain ⟨created, hdecode, htypes⟩ := h.decoded
  have hstamped : ∀ e ∈ stamped now aggregateID rows.length payloads', e.type = e.payload.type :=
    fun e he => type_of_mem_stamped he
  refine ⟨⟨created, ?_, ?_⟩, ?_, List.rel_append h.denotes hden,
    Position.enabledAll_append.mpr ⟨h.enabled, hen⟩⟩
  · rw [Database.appendEvents, List.map_append, hdecode, map_decode_row db hstamped,
      map_payload_stamped, ← List.map_append, List.cons_append]
  · rw [Database.appendEvents, List.map_append, htypes, map_eventType_row db hstamped,
      map_payload_stamped, ← List.map_append, List.cons_append]
  · rw [Database.appendEvents, List.map_append, h.versions, List.map_map, List.length_append,
      List.length_map, length_stamped, List.range_add, List.map_append, List.map_map]
    refine congrArg _ ((map_version_stamped now aggregateID rows.length payloads').trans ?_)
    exact List.map_congr_left fun i _ => by simp only [Function.comp_apply]; push_cast; rfl

/-- The rows are those of a game that is played by the rules. -/
structure Logged (gameID : ℤ) (n : ℕ) (roster : List Player) (hk : 0 < roster.length)
    (rows : List EventRow) (g : Game) (payloads : List Payload)
    (acts : List (Act (Segment n) (Cell n) (Fin roster.length))) : Prop where
  stored : Stored gameID g rows
  tracks : Tracks roster n g ((emptyBoard n hk).applyAll acts)
  version : g.version = rows.length
  history : History n roster hk rows payloads acts

theorem Tracks.applyMove_ok (h : Tracks roster n g pos) {now : Time} {move : Move}
    {result : MoveResult} (hmove : g.applyMove now move = some (g', .ok result)) :
    ∃ payloads acts, pos.EnabledAll acts ∧ Performs roster n now g g' pos payloads acts := by
  rcases h.applyMove_cases hmove with ⟨_, _, _, _, ha, -, hperf⟩ | ⟨-, err, herr⟩
  · exact ⟨_, _, hperf.enabled ha.running, hperf⟩
  · cases herr

theorem Tracks.passTurnOnTimeout_ok (h : Tracks roster n g pos) {now : Time}
    {result : MoveResult} (hpass : g.passTurnOnTimeout now = some (g', .ok result)) :
    ∃ payloads acts, pos.EnabledAll acts ∧ Performs roster n now g g' pos payloads acts := by
  rcases h.passTurnOnTimeout_cases hpass with ⟨_, hrun, -, hperf⟩ | ⟨-, -, herr⟩
  · exact ⟨_, _, hperf.enabled hrun, hperf⟩
  · cases herr

/-- A change of a game performs enabled acts whenever it succeeds. -/
def Rightful (n : ℕ) (roster : List Player) (change : Game → Exec (Except ServiceError Game)) :
    Prop :=
  ∀ g g' (pos : BoardPosition n roster.length), Tracks roster n g pos →
    change g = some (.ok g') → ∃ now payloads acts,
      pos.EnabledAll acts ∧ Performs roster n now g g' pos payloads acts

theorem exists_result_of_map_fst {x : Exec (Except ServiceError (Game × MoveResult))}
    (h : x.map (·.map Prod.fst) = some (.ok g')) : ∃ result, x = some (.ok (g', result)) := by
  obtain ⟨y, rfl, hy⟩ := Option.map_eq_some_iff.mp h
  cases y with
  | error e => cases hy
  | ok y => exact ⟨y.2, by rw [← Except.ok.inj hy]⟩

theorem rightful_makeMove (now : Time) (playerID row col : ℤ) (edge : EdgeType) :
    Rightful n roster fun g => (g.makeMove now playerID row col edge).map (·.map Prod.fst) := by
  intro g g' pos h hchange
  obtain ⟨result, hmake⟩ := exists_result_of_map_fst hchange
  obtain ⟨turnOrder, -, hmove⟩ := makeMove_eq_ok hmake
  exact ⟨now, h.applyMove_ok hmove⟩

theorem rightful_passTurnRequest (now : Time) :
    Rightful n roster fun g => (g.passTurnRequest now).map (·.map Prod.fst) := by
  intro g g' pos h hchange
  obtain ⟨result, hrequest⟩ := exists_result_of_map_fst hchange
  exact ⟨now, h.passTurnOnTimeout_ok (passTurnRequest_eq_ok hrequest)⟩

theorem rightful_forfeitRequest (now : Time) (playerID : ℤ) :
    Rightful n roster (·.forfeitRequest now playerID) := by
  intro g g' pos h hchange
  simp only [Game.forfeitRequest, h.ended] at hchange
  cases hended : pos.ended with
  | true => simp [hended] at hchange
  | false =>
    obtain ⟨g₁, payloads, heq, hperf⟩ := h.forfeit playerID now
    simp only [hended, Bool.false_eq_true, if_false, heq, Option.map_some, Option.some.injEq,
      Except.ok.injEq] at hchange
    subst hchange
    exact ⟨now, payloads, _, hperf.enabled hended, hperf⟩

theorem Stored.findByID {gameID : ℤ} (hs : Stored gameID g rows) (db : Database) {g₀ : Game}
    (hfind : db.findByID gameID rows = some (.ok (some g₀))) : Rebuilt g g₀ := by
  obtain ⟨es, g₁, hload, hfold, hr⟩ := hs.loadEvents db
  unfold Database.findByID at hfind
  rw [hload] at hfind
  dsimp only at hfind
  split at hfind
  · rw [hfold] at hfind
    obtain rfl := Option.some.inj (Except.ok.inj (Option.some.inj hfind))
    exact hr
  · cases hfind

/-- A rightful change that is appended to the log it was made on extends the history. -/
theorem Logged.loadAndAppend {gameID : ℤ} (h : Logged gameID n roster hk rows g payloads acts)
    (db : Database) {change : Game → Exec (Except ServiceError Game)}
    (hchange : Rightful n roster change) :
    ∃ g' payloads' acts', Logged gameID n roster hk
      ((db.loadAndAppend gameID change).run rows).1 g' payloads' acts' := by
  rcases run_loadAndAppend db gameID change rows with
    ⟨g₀, g', hfind, hok, hrun⟩ | ⟨response, hrun, -⟩
  case inr => exact ⟨g, payloads, acts, by rw [hrun]; exact h⟩
  have hr := h.stored.findByID db hfind
  obtain ⟨now, payloads', acts', hen, hperf⟩ :=
    hchange g₀ g' _ (h.tracks.sameView hr.sameView) hok
  have hcreated := gameCreated_notMem hperf.denotes
  obtain ⟨hevents, hversion, -⟩ := raiseAll_records hcreated hperf.raised
  have hlength : g₀.version = rows.length :=
    (congrArg View.version hr.sameView).symm.trans h.version
  rw [hr.clean, List.nil_append] at hevents
  have hstored := (h.stored.sameView hr.sameView).append db g₀.aggregateID hcreated hperf.raised
  rw [hrun, hevents]
  refine ⟨g', payloads ++ payloads', acts ++ acts', hstored, ?_, ?_, ?_⟩
  · rw [Position.applyAll_append]; exact hperf.tracks
  · rw [hversion, hlength, Database.appendEvents, List.length_append, List.length_map,
      length_stamped]
    push_cast
    rfl
  · rw [hlength]
    exact h.history.append db now g₀.aggregateID hperf.denotes hen

theorem Logged.program {gameID : ℤ} (h : Logged gameID n roster hk rows g payloads acts)
    (db : Database) (q : Request) :
    ∃ g' payloads' acts', Logged gameID n roster hk
      ((q.program db gameID).run rows).1 g' payloads' acts' := by
  cases q with
  | makeMove now playerID row col edge =>
    simp only [Request.program]
    cases parseEdge edge with
    | error e => exact ⟨g, payloads, acts, h⟩
    | ok edge => exact h.loadAndAppend db (rightful_makeMove now playerID row col edge)
  | passTurnOnTimeout now => exact h.loadAndAppend db (rightful_passTurnRequest now)
  | forfeitGame now playerID => exact h.loadAndAppend db (rightful_forfeitRequest now playerID)

theorem logged_createdRows (db : Database) (hn : 0 < n) (hk : 0 < roster.length) {now : Time}
    {tempID : Option ℤ} (hnew : Game.newGame now tempID n roster = some g) (gameID : ℤ) :
    ∃ g₁, Logged gameID n roster hk (db.createdRows gameID g) g₁ [] [] := by
  have hstored := stored_createdRows db hnew gameID
  have htracks := tracks_newGame hn hk hnew
  rw [newGame_eq] at hnew
  obtain ⟨grid, hgrid, rfl⟩ := Option.map_eq_some_iff.mp hnew
  refine ⟨_, hstored, ?_, rfl, ⟨⟨gameID, n, roster⟩, ?_, rfl⟩, rfl, .nil, trivial⟩
  · exact ⟨⟨htracks.boardSize, htracks.turn, htracks.ended, htracks.box, htracks.length,
      htracks.player⟩, htracks.sound, htracks.playable⟩
  · exact congrArg (fun x => [x]) (deserializePayload_marshal (.gameCreated ⟨gameID, n, roster⟩))

def succeeded {ι : Type} (c : Conf ι (List EventRow) Response) (i : ι) : Bool :=
  match c.prog i with
  | .ret (some (.ok _)) => true
  | _ => false

theorem succeeded_iff {ι : Type} {c : Conf ι (List EventRow) Response} {i : ι} :
    succeeded c i = true ↔ ∃ g, c.Returned i (some (.ok g)) := by
  unfold succeeded Conf.Returned
  split
  case h_1 g hprog => simp [hprog]
  case h_2 hprog => simpa using fun g hg => hprog g hg

theorem run_program_fst {db : Database} {gameID : ℤ} {q : Request} {rows : List EventRow}
    (h : ∀ g, ((q.program db gameID).run rows).2 ≠ some (.ok g)) :
    ((q.program db gameID).run rows).1 = rows := by
  have hload (change : Game → Exec (Except ServiceError Game))
      (h : ∀ g, ((db.loadAndAppend gameID change).run rows).2 ≠ some (.ok g)) :
      ((db.loadAndAppend gameID change).run rows).1 = rows := by
    rcases run_loadAndAppend db gameID change rows with ⟨g, g', -, -, hrun⟩ | ⟨response, hrun, -⟩
    · exact absurd (congrArg Prod.snd hrun) (h _)
    · rw [hrun]
  cases q with
  | makeMove now playerID row col edge =>
    simp only [Request.program] at h ⊢
    cases hparse : parseEdge edge with
    | error e => rfl
    | ok edge => exact hload _ (by simpa only [hparse] using h)
  | passTurnOnTimeout now => exact hload _ h
  | forfeitGame now playerID => exact hload _ h

theorem program_ne_ret_ok (db : Database) (gameID : ℤ) (q : Request) (g : Game) :
    q.program db gameID ≠ .ret (some (.ok g)) := by
  cases q with
  | makeMove now playerID row col edge =>
    simp only [Request.program]
    cases parseEdge edge <;> simp [Database.loadAndAppend, Prog.read]
  | passTurnOnTimeout now => simp [Request.program, Database.loadAndAppend, Prog.read]
  | forfeitGame now playerID => simp [Request.program, Database.loadAndAppend, Prog.read]

/-- If every append is to the log that its request loaded, then the log is that of the
requests that succeeded, one after the other, and it is safe. -/
theorem stored_log_serializable {ι : Type} [DecidableEq ι] (db : Database) (hn : 0 < n)
    (hk : 0 < roster.length) {now : Time} {tempID : Option ℤ} {gameID : ℤ} {g₁ : Game}
    {rows : List EventRow} (hnew : Game.newGame now tempID n roster = some g)
    (hcreate : db.create gameID g = .ok (g₁, rows)) (requests : ι → Request) (schedule : List ι)
    (hfresh : (Conf.start rows fun i => (requests i).program db gameID).FreshRun schedule) :
    let c := (Conf.start rows fun i => (requests i).program db gameID).exec schedule
    (∃ order, Serialized (fun i => (requests i).program db gameID) rows c order ∧
      ∀ i, i ∈ order ↔ ∃ g, c.Returned i (some (.ok g))) ∧ SafeLog n c.store := by
  intro c
  obtain ⟨order, hserial, hdone, hmem⟩ := exec_serialized Prog.settled_isRet
    (fun i => (requests i).oneWrite_program db gameID) hfresh
  refine ⟨⟨order.filter (succeeded c), hserial.filter _ fun before i hpre hfail => ?_,
    fun i => ?_⟩, ?_⟩
  · obtain ⟨response, hret⟩ := hdone i (hpre.subset (by simp))
    apply run_program_fst
    intro g hok
    rw [hserial.result before i response hpre hret] at hok
    have hsucc : succeeded c i = true := succeeded_iff.mpr ⟨g, hret.trans (congrArg _ hok)⟩
    rw [hsucc] at hfail
    cases hfail
  · rw [List.mem_filter, succeeded_iff]
    refine ⟨And.right, fun hret => ⟨?_, hret⟩⟩
    obtain ⟨g, hg⟩ := hret
    rcases hmem i _ hg with hi | hidle
    · exact hi
    · exact absurd hidle (program_ne_ret_ok db gameID (requests i) g)
  · obtain ⟨-, -, hrows⟩ := Database.create_eq_ok hcreate
    obtain ⟨g₂, hlogged⟩ := logged_createdRows db hn hk hnew gameID
    obtain ⟨_, _, _, hend⟩ := runAll_induction
      (P := fun rows => ∃ g payloads acts, Logged gameID n roster hk rows g payloads acts)
      ⟨g₂, [], [], hrows ▸ hlogged⟩ order fun i _ _ ⟨_, _, _, h⟩ => h.program db (requests i)
    rw [hserial.store]
    exact hend.history.safe

def newDuel : Game := (Game.newGame 0 (some 0) 5 duel).getD {}

/-- Two requests on the persisted duel: the first two moves. -/
def openingMoves : Bool → Request
  | false => .makeMove 1 7 0 0 "top"
  | true => .makeMove 2 8 4 4 "left_edge"

theorem stored_log_serializable_duel : SafeLog 5
    ((Conf.start (Database.byInsertion.createdRows 1 newDuel)
      fun i => (openingMoves i).program .byInsertion 1).exec [false, false, true, true]).store := by
  have hnew : Game.newGame 0 (some 0) (5 : ℕ) duel = some newDuel := rfl
  have hcreate : Database.byInsertion.create 1 newDuel =
      .ok (_, Database.byInsertion.createdRows 1 newDuel) := rfl
  exact (stored_log_serializable .byInsertion (by decide) (by decide) hnew hcreate openingMoves
    [false, false, true, true] ⟨Conf.fresh_of_isNone rfl, (Conf.fresh_of_isNone rfl).step,
      Conf.fresh_of_isNone (by decide +kernel),
      (Conf.fresh_of_isNone (by decide +kernel)).step, trivial⟩).2

/-- Two clicks on one segment, whose requests both load the new game, claim it twice. -/
theorem double_click_claims_twice :
    let c := (Conf.start (Database.byInsertion.createdRows 1 newDuel)
      fun _ : Bool => (Request.makeMove 1 7 0 0 "top").program .byInsertion 1).exec
        [false, true, false, true]
    succeeded c false = true ∧ succeeded c true = true ∧
      c.store.map (·.version) = [1, 2, 3, 2, 3] ∧ ¬ SafeLog 5 c.store := by
  refine ⟨by decide +kernel, by decide +kernel, by decide +kernel, fun hsafe => ?_⟩
  have hunique := hsafe.claimedOnce
  revert hunique
  decide +kernel

end DotsAndBoxes
