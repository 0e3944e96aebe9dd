import DotsAndBoxes.Game.Grammar

/-! # The replay viewer

The browser projects the stored events with functions of its own, and keeps a snapshot of the
board for each step that it shows. A claimed segment is pending until the turn passes, the game
ends or the next segment is claimed, and the snapshot is taken then.
-/

namespace DotsAndBoxes.Web

open Slices Enclosure Game

inductive EdgeField where
  | topEdge
  | rightEdge
  | bottomEdge
  | leftEdge
  deriving DecidableEq, Repr

def edgeNameToField : String → EdgeField
  | "top" => .topEdge
  | "right" => .rightEdge
  | "bottom" => .bottomEdge
  | "left" => .leftEdge
  | _ => .topEdge

def makeEmptyGrid (size : ℤ) : List (List Box) :=
  (List.range size.toNat).map fun (r : ℕ) =>
    (List.range size.toNat).map fun (c : ℕ) => { row := r, col := c }

/-- Set an edge in its box and in the box across. A box that does not exist throws. -/
def setEdge (grid : List (List Box)) (boardSize row col : ℤ) (edge : EdgeField) :
    Exec (List (List Box)) :=
  (at2? grid row col).bind fun _ =>
    match edge with
    | .topEdge => do
      let grid ← modify2? grid row col fun box => { box with topEdge := true }
      if row > 0 then modify2? grid (row - 1) col fun box => { box with bottomEdge := true }
      else some grid
    | .rightEdge => do
      let grid ← modify2? grid row col fun box => { box with rightEdge := true }
      if col < boardSize - 1 then
        modify2? grid row (col + 1) fun box => { box with leftEdge := true }
      else some grid
    | .bottomEdge => do
      let grid ← modify2? grid row col fun box => { box with bottomEdge := true }
      if row < boardSize - 1 then
        modify2? grid (row + 1) col fun box => { box with topEdge := true }
      else some grid
    | .leftEdge => do
      let grid ← modify2? grid row col fun box => { box with leftEdge := true }
      if col > 0 then modify2? grid row (col - 1) fun box => { box with rightEdge := true }
      else some grid

/-- A snapshot. Scores are kept by turn order, and one that is missing counts as zero. -/
structure ReplayState where
  grid : List (List Box)
  scores : ℤ → Option ℤ
  currentTurn : ℤ
  lastMove : Option MoveAppliedPayload

def ReplayState.score (s : ReplayState) (turnOrder : ℤ) : ℤ := (s.scores turnOrder).getD 0

structure Builder where
  states : List ReplayState := []
  boardSize : ℤ := 0
  grid : List (List Box) := []
  scores : ℤ → Option ℤ := fun _ => none
  currentTurn : ℤ := 0
  hasPendingMove : Bool := false
  lastMove : Option MoveAppliedPayload := none

namespace Builder

def snapshot (b : Builder) : ReplayState := ⟨b.grid, b.scores, b.currentTurn, b.lastMove⟩

def push (b : Builder) : Builder := { b with states := b.states ++ [b.snapshot] }

def flush (b : Builder) : Builder :=
  if b.hasPendingMove then { b.push with hasPendingMove := false } else b

/-- The switch on the type of an event. The server decodes payloads by the type of their event,
so a payload has the properties that are read; an event of another type is skipped. -/
def project (b : Builder) (event : DomainEvent) : Exec Builder :=
  match event.type, event.payload with
  | .gameCreated, .gameCreated p =>
    let grid := makeEmptyGrid p.boardSize
    some { b with
      boardSize := p.boardSize, grid, scores := fun _ => none, currentTurn := 0
      states := b.states ++ [⟨grid, fun _ => none, 0, none⟩] }
  | .moveApplied, .moveApplied p => do
    let grid ← setEdge b.grid b.boardSize p.row p.col (edgeNameToField p.edge)
    return { b with grid, lastMove := some p, hasPendingMove := true }
  | .boxCompleted, .boxCompleted p => do
    let grid ← modify2? b.grid p.row p.col fun box => { box with ownerTurn := some p.ownerTurn }
    return { b with
      grid
      scores := Function.update b.scores p.ownerTurn (some ((b.scores p.ownerTurn).getD 0 + 1)) }
  | .turnPassed, .turnPassed p =>
    some { { b with currentTurn := p.nextTurn }.push with hasPendingMove := false }
  | .gameEnded, .gameEnded _ => some { b.push with hasPendingMove := false }
  | .gameForfeited, .gameForfeited _ => some { b.push with hasPendingMove := false }
  | .unknown _, _ => some b
  | _, _ => none

/-- One pass of the loop: a pending move is shown before the next one. -/
def event (b : Builder) (e : DomainEvent) : Exec Builder :=
  if e.type = .moveApplied then b.flush.project e else b.project e

end Builder

def buildReplayStates (domainEvents : List DomainEvent) : Exec (List ReplayState) := do
  let b ← domainEvents.foldlM Builder.event {}
  return b.flush.states

variable {n : ℕ} {roster : List Player} {g g' : Game} {b : Builder}

theorem setEdge_eq_markEdge (grid : List (List Box)) (boardSize row col : ℤ) (s : Side) :
    setEdge grid boardSize row col (edgeNameToField s.edge.toString) =
      markEdge grid boardSize row col s.edge := by
  cases s <;> rfl

theorem makeEmptyGrid_eq {grid : List (List Box)} (h : Game.makeEmptyGrid n = some grid) :
    makeEmptyGrid n = grid := by
  rw [Game.makeEmptyGrid, if_neg (by omega)] at h
  exact Option.some.inj h

/-- The viewer and the aggregate show the same board, scores and turn. -/
structure Agrees (b : Builder) (g : Game) : Prop where
  boardSize : b.boardSize = g.boardSize
  grid : b.grid = g.grid
  currentTurn : b.currentTurn = g.currentTurn
  score : ∀ (i : ℕ) p, g.players[i]? = some p → (b.scores i).getD 0 = p.score

theorem Agrees.flush (h : Agrees b g) : Agrees b.flush g := by
  unfold Builder.flush
  split
  · exact ⟨h.boardSize, h.grid, h.currentTurn, h.score⟩
  · exact h

structure Shows (s : ReplayState) (g : Game) : Prop where
  grid : s.grid = g.grid
  currentTurn : s.currentTurn = g.currentTurn
  score : ∀ (i : ℕ) p, g.players[i]? = some p → s.score i = p.score

theorem Agrees.shows (h : Agrees b g) : Shows b.snapshot g := ⟨h.grid, h.currentTurn, h.score⟩

theorem Agrees.scored (h : Agrees b g) {t : ℕ} {players : List Player}
    (hplayers : modify? g.players t (fun p => { p with score := p.score + 1 }) = some players)
    (i : ℕ) (p : Player) (hp : players[i]? = some p) :
    (Function.update b.scores t (some ((b.scores t).getD 0 + 1)) i).getD 0 = p.score := by
  unfold modify? at hplayers
  split at hplayers
  case isFalse => cases hplayers
  obtain rfl := Option.some.inj hplayers
  rw [Int.toNat_natCast, List.getElem?_modify] at hp
  by_cases hi : t = i
  · subst hi
    simp only [if_true, Option.map_eq_map, Option.map_eq_some_iff] at hp
    obtain ⟨q, hq, rfl⟩ := hp
    simp [h.score t q hq]
  · have hne : (i : ℤ) ≠ t := fun heq => hi (by exact_mod_cast heq.symm)
    rw [Function.update_of_ne hne]
    exact h.score i p (by simpa [hi] using hp)

/-- The viewer projects an event as the aggregate does. A move is pending from its claim on, and
shown by the passing of the turn and by the end of the game. -/
theorem Agrees.project (h : Agrees b g) {e : DomainEvent} (htype : e.type = e.payload.type)
    {k : ℕ} {act : Act (Segment n) (Cell n) (Fin k)} (hden : Denotes n k e.payload act)
    (happly : g.applyEvent e = some g') :
    ∃ b', b.project e = some b' ∧ Agrees b' g' ∧
      b'.states = (if e.payload.opens then b.states else b.states ++ [b'.snapshot]) ∧
      b'.hasPendingMove =
        (e.payload.opens && (b.hasPendingMove || e.payload.type = .moveApplied)) := by
  have happlied := applied htype happly
  obtain ⟨type, occurredAt, aggregateID, version, payload⟩ := e
  dsimp only at htype hden happlied
  subst htype
  cases hden with
  | moveApplied turnOrder c s =>
    cases happlied with
    | @moveApplied _ grid hmark =>
      have hgrid : setEdge b.grid b.boardSize c.1.val c.2.val (edgeNameToField s.edge.toString) =
          some grid := by
        rw [setEdge_eq_markEdge, h.grid, h.boardSize, ← hmark, Side.ofString_toString_edge]
      refine ⟨{ b with
        grid, hasPendingMove := true
        lastMove := some ⟨turnOrder, c.1.val, c.2.val, s.edge.toString⟩ }, ?_, ?_, rfl, ?_⟩
      · simp [Builder.project, Payload.type, hgrid]
      · exact ⟨h.boardSize, rfl, h.currentTurn, h.score⟩
      · simp [Payload.opens, Payload.type]
  | boxCompleted c t =>
    cases happlied with
    | @boxCompleted _ grid players hgrid hplayers =>
      rw [← h.grid] at hgrid
      refine ⟨{ b with
        grid
        scores := Function.update b.scores t.val (some ((b.scores t.val).getD 0 + 1)) },
        ?_, ?_, rfl, ?_⟩
      · simp [Builder.project, Payload.type, hgrid]
      · exact ⟨h.boardSize, rfl, h.currentTurn, h.scored hplayers⟩
      · simp [Payload.opens, Payload.type]
  | turnPassed t =>
    cases happlied
    exact ⟨_, rfl, ⟨h.boardSize, h.grid, rfl, h.score⟩, rfl, rfl⟩
  | gameEnded winnerID =>
    cases happlied
    exact ⟨_, rfl, ⟨h.boardSize, h.grid, h.currentTurn, h.score⟩, rfl, rfl⟩
  | gameForfeited forfeitedBy winnerID =>
    cases happlied
    exact ⟨_, rfl, ⟨h.boardSize, h.grid, h.currentTurn, h.score⟩, rfl, rfl⟩

def claims (log : List DomainEvent) (m : ℕ) : ℕ :=
  (log.take m).countP fun e => e.type = .moveApplied

theorem take_succ_of_getElem? {log : List DomainEvent} {m : ℕ} {e : DomainEvent}
    (he : log[m]? = some e) : log.take (m + 1) = log.take m ++ [e] := by
  rw [List.take_add_one, he, Option.toList_some]

theorem claims_succ {log : List DomainEvent} {m : ℕ} {e : DomainEvent} (he : log[m]? = some e) :
    claims log (m + 1) = claims log m + if e.type = .moveApplied then 1 else 0 := by
  rw [claims, take_succ_of_getElem? he, List.countP_append, List.countP_singleton]
  simp only [claims, decide_eq_true_eq]

/-- The snapshot shows what the aggregate loads from the first events of the log. -/
def ShowsAt (log : List DomainEvent) (m : ℕ) (s : ReplayState) : Prop :=
  ∃ g, Game.loadFromEvents (log.take m) = some g ∧ Shows s g

/-- The viewer has projected the first `m` events, and shown them up to `shown`; each snapshot
is of a longer part of the log than the one before, with at most one more segment. -/
structure Shown (log : List DomainEvent) (m : ℕ) (b : Builder) (cuts : List ℕ) (shown : ℕ) :
    Prop where
  loaded : ∃ g, Game.loadFromEvents (log.take m) = some g ∧ Agrees b g
  states : List.Forall₂ (ShowsAt log) cuts b.states
  first : cuts.head? = some 1
  steps : cuts.IsChain fun i j => i < j ∧ claims log j ≤ claims log i + 1
  last : cuts.getLast? = some shown
  claimed : claims log m ≤ claims log shown + if b.hasPendingMove then 1 else 0
  behind : if b.hasPendingMove then shown < m else shown = m

theorem Shown.push {log : List DomainEvent} {m : ℕ} {b b' : Builder} {cuts : List ℕ} {shown : ℕ}
    (h : Shown log m b cuts shown) {m' : ℕ} (hm : shown < m')
    (hloaded : ∃ g, Game.loadFromEvents (log.take m') = some g ∧ Agrees b' g)
    (hstates : b'.states = b.states ++ [b'.snapshot]) (hpending : b'.hasPendingMove = false)
    (hclaims : claims log m' ≤ claims log shown + 1) : Shown log m' b' (cuts ++ [m']) m' where
  loaded := hloaded
  states := by
    obtain ⟨g, hg, hagrees⟩ := hloaded
    rw [hstates]
    exact List.rel_append h.states (.cons ⟨g, hg, hagrees.shows⟩ .nil)
  first := by rw [List.head?_append, h.first, Option.some_or]
  steps := by
    refine List.isChain_append.mpr ⟨h.steps, List.isChain_singleton m', ?_⟩
    rintro i hi j hj
    obtain rfl := Option.some.inj (h.last.symm.trans hi)
    obtain rfl := Option.some.inj hj
    exact ⟨hm, hclaims⟩
  last := List.getLast?_concat
  claimed := by simp
  behind := by simp [hpending]

theorem Shown.flush {log : List DomainEvent} {m : ℕ} {cuts : List ℕ} {shown : ℕ}
    (h : Shown log m b cuts shown) : ∃ cuts', Shown log m b.flush cuts' m := by
  cases hpending : b.hasPendingMove with
  | false =>
    have hsame : b.flush = b := if_neg (by simp [hpending])
    have hshown : shown = m := by simpa [hpending] using h.behind
    exact ⟨cuts, by rw [hsame]; exact hshown ▸ h⟩
  | true =>
    have hflush : b.flush = { b.push with hasPendingMove := false } := if_pos hpending
    have hbehind : shown < m := by simpa [hpending] using h.behind
    obtain ⟨g, hg, hagrees⟩ := h.loaded
    refine ⟨_, h.push hbehind ⟨g, hg, hagrees.flush⟩ ?_ ?_ ?_⟩
    · rw [hflush]
      rfl
    · rw [hflush]
    · simpa [hpending] using h.claimed

/-- A log whose events the viewer can project: each loads, and denotes an act after the first. -/
structure Playable (n k : ℕ) (log : List DomainEvent) : Prop where
  types : ∀ e ∈ log, e.type = e.payload.type
  loads : ∃ g, Game.loadFromEvents log = some g
  denotes : ∀ (i : ℕ) e, log[i + 1]? = some e → ∃ act, Denotes n k e.payload act
  adjacent : (log.map (·.payload)).IsChain Payload.Adjacent

variable {log : List DomainEvent} {k m : ℕ} {cuts : List ℕ} {shown : ℕ} {e : DomainEvent}

theorem Playable.loads_take (h : Playable n k log) (m : ℕ) :
    ∃ g, Game.loadFromEvents (log.take m) = some g := by
  obtain ⟨g, hg⟩ := h.loads
  rw [Game.loadFromEvents, ← List.take_append_drop m log, List.foldlM_append] at hg
  obtain ⟨g₁, hg₁, -⟩ := Option.bind_eq_some_iff.mp hg
  exact ⟨g₁, hg₁⟩

theorem Shown.project (hlog : Playable n k log) (h : Shown log (m + 1) b cuts shown)
    (he : log[m + 1]? = some e) (hmove : e.payload.type = .moveApplied → b.hasPendingMove = false)
    (hbox : ∀ c, e.payload = .boxCompleted c → b.hasPendingMove = true) :
    ∃ b' cuts' shown', b.project e = some b' ∧ Shown log (m + 2) b' cuts' shown' ∧
      b'.hasPendingMove = e.payload.opens := by
  have htype := hlog.types e (List.mem_of_getElem? he)
  obtain ⟨act, hden⟩ := hlog.denotes m e he
  obtain ⟨g, hg, hagrees⟩ := h.loaded
  obtain ⟨g', hg'⟩ := hlog.loads_take (m + 2)
  have happly : g.applyEvent e = some g' := by
    rw [Game.loadFromEvents, take_succ_of_getElem? he, List.foldlM_append] at hg'
    rw [Game.loadFromEvents] at hg
    simpa [hg] using hg'
  obtain ⟨b', hproject, hagrees', hstates, hpending⟩ := hagrees.project htype hden happly
  have hclaims : claims log (m + 2) = _ := claims_succ he
  have hclaimed := h.claimed
  have hbehind := h.behind
  rw [htype] at hclaims
  cases hopens : e.payload.opens with
  | true =>
    rw [hopens, if_pos rfl] at hstates
    rw [hopens, Bool.true_and] at hpending
    have hopened : b'.hasPendingMove = true ∧ claims log (m + 2) ≤ claims log shown + 1 := by
      cases hp : e.payload with
      | moveApplied c =>
        rw [hp] at hmove hpending hclaims
        rw [hmove rfl] at hclaimed
        simp only [Payload.type, decide_true, Bool.or_true, if_true, Bool.false_eq_true, if_false]
          at hpending hclaims hclaimed
        exact ⟨hpending, by omega⟩
      | boxCompleted c =>
        rw [hp] at hpending hclaims
        rw [hbox c hp] at hclaimed hpending
        simp only [Payload.type, Bool.true_or, reduceCtorEq, if_true, if_false]
          at hpending hclaims hclaimed
        exact ⟨hpending, by omega⟩
      | _ => simp [hp, Payload.opens] at hopens
    refine ⟨b', cuts, shown, hproject, ⟨⟨g', hg', hagrees'⟩, ?_, h.first, h.steps, h.last, ?_, ?_⟩,
      hopened.1⟩
    · rw [hstates]
      exact h.states
    · rw [hopened.1]
      exact hopened.2
    · rw [hopened.1]
      split_ifs at hbehind <;> simp <;> omega
  | false =>
    rw [hopens] at hstates hpending
    have hmoved : ¬ e.payload.type = .moveApplied := by
      intro hp
      cases hpay : e.payload <;> simp [hpay, Payload.opens, Payload.type] at hopens hp
    rw [if_neg hmoved] at hclaims
    refine ⟨b', _, m + 2, hproject, h.push ?_ ⟨g', hg', hagrees'⟩ hstates hpending ?_, hpending⟩
    · split_ifs at hbehind <;> omega
    · split_ifs at hclaimed <;> omega

theorem Shown.event (hlog : Playable n k log) (h : Shown log (m + 1) b cuts shown)
    (he : log[m + 1]? = some e) (hbox : ∀ c, e.payload = .boxCompleted c → b.hasPendingMove = true) :
    ∃ b' cuts' shown', b.event e = some b' ∧ Shown log (m + 2) b' cuts' shown' ∧
      b'.hasPendingMove = e.payload.opens := by
  have htype := hlog.types e (List.mem_of_getElem? he)
  unfold Builder.event
  split
  case isTrue hmove =>
    obtain ⟨cuts', hflush⟩ := h.flush
    refine hflush.project hlog he (fun _ => ?_) fun c hc => ?_
    · unfold Builder.flush
      split <;> simp_all
    · rw [htype, hc] at hmove
      cases hmove
  case isFalse hmove => exact h.project hlog he (fun hp => absurd (htype.trans hp) hmove) hbox

/-- The viewer projects every part of the log, from the creation of the game on. -/
theorem exists_shown (hlog : Playable n k log) {id : ℤ} {seats : List Player}
    (hcreated : log.head?.map (·.payload) = some (.gameCreated ⟨id, n, seats⟩))
    (hscores : ∀ p ∈ seats, p.score = 0) (m : ℕ) (hm : m < log.length) :
    ∃ b cuts shown, (log.take (m + 1)).foldlM Builder.event {} = some b ∧
      Shown log (m + 1) b cuts shown ∧ b.hasPendingMove = log[m].payload.opens := by
  induction m with
  | zero =>
    obtain ⟨e, log, rfl⟩ := List.exists_cons_of_length_pos hm
    have htype := hlog.types e List.mem_cons_self
    have hpayload : e.payload = .gameCreated ⟨id, n, seats⟩ := Option.some.inj hcreated
    obtain ⟨g, hg⟩ := hlog.loads_take 1
    have happly : Game.applyEvent {} e = some g := by simpa [Game.loadFromEvents] using hg
    rw [hpayload] at htype
    have hevent : Builder.event {} e = some
        { boardSize := n, grid := makeEmptyGrid n, states := [⟨makeEmptyGrid n, fun _ => none, 0, none⟩] } := by
      simp [Builder.event, Builder.project, htype, Payload.type, hpayload]
    have hagrees : Agrees
        { boardSize := n, grid := makeEmptyGrid n, states := [⟨makeEmptyGrid n, fun _ => none, 0, none⟩] } g := by
      simp only [Game.applyEvent, htype, Payload.type, hpayload] at happly
      obtain ⟨grid, hgrid, hg⟩ := Option.bind_eq_some_iff.mp happly
      obtain rfl := Option.some.inj hg
      refine ⟨rfl, makeEmptyGrid_eq hgrid, rfl, fun i p hp => ?_⟩
      exact (hscores p (List.mem_of_getElem? hp)).symm
    refine ⟨_, [1], 1, by simpa using hevent, ?_, by simp [hpayload, Payload.opens]⟩
    exact ⟨⟨g, hg, hagrees⟩, .cons ⟨g, hg, hagrees.shows⟩ .nil, rfl, by simp, rfl, by simp, by simp⟩
  | succ m ih =>
    obtain ⟨b, cuts, shown, hbuilt, hshown, hpending⟩ := ih (by omega)
    have he : log[m + 1]? = some log[m + 1] := List.getElem?_eq_getElem hm
    have hadjacent := List.isChain_iff_getElem.mp hlog.adjacent m (by simpa using hm)
    simp only [List.getElem_map] at hadjacent
    obtain ⟨b', cuts', shown', hevent, hshown', hpending'⟩ :=
      hshown.event hlog he fun c hc => hpending.trans (hadjacent.completed c hc)
    refine ⟨b', cuts', shown', ?_, hshown', hpending'⟩
    rw [take_succ_of_getElem? he, List.foldlM_append, hbuilt]
    simpa using hevent

/-- The events after the first that are read back from the rows denote acts. -/
def Denoting (n k : ℕ) (gameID : ℤ) (rows : List EventRow) : Prop :=
  ∃ events, rows.mapM (EventRow.load gameID) = .ok events ∧
    ∀ (i : ℕ) e, events[i + 1]? = some e → ∃ act, Denotes n k e.payload act

theorem Denoting.append {gameID : ℤ} {rows : List EventRow} (h : Denoting n k gameID rows)
    (db : Database) {new : List DomainEvent}
    (hnew : ∀ e ∈ new, e.type = e.payload.type ∧ ∃ act, Denotes n k e.payload act) :
    Denoting n k gameID (db.appendEvents rows new) := by
  obtain ⟨events, hread, hden⟩ := h
  refine ⟨events ++ new.map (db.loaded gameID), ?_, fun i e he => ?_⟩
  · rw [Database.appendEvents, List.mapM_append, hread,
      mapM_load_row db gameID fun e he => (hnew e he).1]
    rfl
  · rcases Nat.lt_or_ge (i + 1) events.length with hlt | hge
    · exact hden i e (by rwa [List.getElem?_append_left hlt] at he)
    · rw [List.getElem?_append_right hge] at he
      obtain ⟨e₀, he₀, rfl⟩ := List.mem_map.mp (List.mem_of_getElem? he)
      exact (hnew e₀ he₀).2

theorem Denoting.run {gameID : ℤ} {rows rows' : List EventRow} {g : Game}
    {pos : BoardPosition n roster.length} (ha : Archived gameID n roster rows g pos)
    (h : Denoting n roster.length gameID rows) (db : Database) {commands : List Command}
    (hrun : storedRun db gameID commands rows = some rows') :
    Denoting n roster.length gameID rows' ∧ ∃ g' pos', Archived gameID n roster rows' g' pos' := by
  induction commands generalizing rows g pos with
  | nil =>
    obtain rfl := Option.some.inj hrun
    exact ⟨h, g, pos, ha⟩
  | cons c commands ih =>
    obtain ⟨new, outcome, g₁, pos₁, hstep, hnew, ha₁⟩ := ha.step db c
    obtain ⟨rows₁, hfirst, hrest⟩ := Option.bind_eq_some_iff.mp hrun
    simp only [hstep, Option.map_some] at hfirst
    obtain rfl := Option.some.inj hfirst
    exact ih ha₁ (h.append db hnew) hrest

theorem exists_between {cuts : List ℕ} {first last j : ℕ} (hfirst : cuts.head? = some first)
    (hlast : cuts.getLast? = some last) (hj : first ≤ j) (hlt : j < last) :
    ∃ (i : ℕ) (a c : ℕ), cuts[i]? = some a ∧ cuts[i + 1]? = some c ∧ a ≤ j ∧ j < c := by
  induction cuts generalizing first with
  | nil => cases hfirst
  | cons a cuts ih =>
    obtain rfl := Option.some.inj hfirst
    cases cuts with
    | nil =>
      have hend : a = last := by simpa using hlast
      omega
    | cons c cuts =>
      by_cases hc : j < c
      · exact ⟨0, a, c, rfl, rfl, hj, hc⟩
      · obtain ⟨i, a', c', ha', hc', hle, hlt'⟩ := ih rfl (by simpa using hlast) (by omega)
        exact ⟨i + 1, a', c', ha', hc', hle, hlt'⟩

/-- Strictly increasing bounds leave one place for what lies between the first and the last. -/
theorem existsUnique_between {cuts : List ℕ} {first last j : ℕ} (hcuts : cuts.IsChain (· < ·))
    (hfirst : cuts.head? = some first) (hlast : cuts.getLast? = some last) (hj : first ≤ j)
    (hlt : j < last) :
    ∃! i : ℕ, ∃ a c, cuts[i]? = some a ∧ cuts[i + 1]? = some c ∧ a ≤ j ∧ j < c := by
  obtain ⟨i, hi⟩ := exists_between hfirst hlast hj hlt
  have horder : ∀ {i i' a c : ℕ}, i < i' → cuts[i + 1]? = some c → cuts[i']? = some a → c ≤ a := by
    intro i i' a c hlt hc ha
    obtain ⟨hi, rfl⟩ := List.getElem?_eq_some_iff.mp hc
    obtain ⟨hi', rfl⟩ := List.getElem?_eq_some_iff.mp ha
    rcases Nat.eq_or_lt_of_le hlt with rfl | hlt
    · exact le_rfl
    · exact (List.pairwise_iff_getElem.mp hcuts.pairwise _ _ hi hi' hlt).le
  refine ⟨i, hi, ?_⟩
  rintro i' ⟨a', c', ha', hc', hle', hlt'⟩
  obtain ⟨a, c, ha, hc, hle, hlt⟩ := hi
  rcases Nat.lt_trichotomy i' i with hless | heq | hmore
  · have := horder hless hc' ha
    omega
  · exact heq
  · have := horder hmore hc ha'
    omega

theorem denoting_createdRows (hn : 0 < n) (hk : 0 < roster.length) (db : Database) {now : Time}
    {tempID : Option ℤ} (hnew : Game.newGame now tempID n roster = some g) (gameID : ℤ) :
    Denoting n roster.length gameID (db.createdRows gameID g) := by
  obtain ⟨created, hread, -, hversion⟩ := (archived_createdRows hn hk db hnew gameID).log
  refine ⟨created, hread, fun i e he => ?_⟩
  rw [newGame_eq] at hnew
  obtain ⟨grid, -, rfl⟩ := Option.map_eq_some_iff.mp hnew
  have hone : (1 : ℤ) = created.length := hversion
  rw [List.getElem?_eq_none (by omega)] at he
  cases he

theorem playable_of_loadEvents {gameID : ℤ} {rows : List EventRow}
    {pos : BoardPosition n roster.length} (ha : Archived gameID n roster rows g pos)
    (hden : Denoting n roster.length gameID rows) {db : Database} {events : List DomainEvent}
    (hload : db.loadEvents gameID rows = .ok events) :
    Playable n roster.length events ∧
      ∃ id, events.head?.map (·.payload) = some (.gameCreated ⟨id, n, roster⟩) := by
  obtain ⟨read, hread, hden⟩ := hden
  obtain ⟨read', hread', hrecorded, -⟩ := ha.log
  obtain rfl := Except.ok.inj (hread.symm.trans hread')
  obtain ⟨loaded, h, hload', hfold, -⟩ := ha.stored.loadEvents db
  obtain rfl := Except.ok.inj (hload.symm.trans hload')
  rw [Database.loadEvents, db.orderByVersion_eq ha.stored.ordered] at hload
  obtain rfl := Except.ok.inj (hload.symm.trans hread)
  obtain ⟨id, rest, hfirst⟩ := hrecorded.word.created_first
  refine ⟨⟨hrecorded.types, ⟨h, hfold⟩, hden, hrecorded.word.adjacent⟩, id, ?_⟩
  rw [← List.head?_map, hfirst, List.head?_cons]

/-- The viewer shows the log of every game that is played by commands one at a time. Its snapshots
are those of the aggregate after ever longer parts of the log, from the creation of the game to
its last event; from one to the next there is at most one more segment, and each claimed segment
falls between two of them. -/
theorem replay_shows_log (hn : 0 < n) (hk : 0 < roster.length)
    (hscores : ∀ p ∈ roster, p.score = 0) {now : Time} {tempID : Option ℤ} {g : Game}
    (hnew : Game.newGame now tempID n roster = some g) (db : Database) (gameID : ℤ)
    (commands : List Command) {rows : List EventRow} {events : List DomainEvent}
    (hrun : storedRun db gameID commands (db.createdRows gameID g) = some rows)
    (hload : db.loadEvents gameID rows = .ok events) :
    ∃ states cuts, buildReplayStates events = some states ∧
      cuts.head? = some 1 ∧ cuts.getLast? = some events.length ∧ cuts.IsChain (· < ·) ∧
      List.Forall₂ (ShowsAt events) cuts states ∧
      cuts.IsChain (fun i j => claims events j ≤ claims events i + 1) ∧
      ∀ (j : ℕ) e, events[j]? = some e → e.type = .moveApplied →
        ∃! i : ℕ, ∃ a c, cuts[i]? = some a ∧ cuts[i + 1]? = some c ∧ a ≤ j ∧ j < c := by
  have hcreated := archived_createdRows hn hk db hnew gameID
  obtain ⟨hden, g', pos', ha⟩ :=
    (denoting_createdRows hn hk db hnew gameID).run hcreated db hrun
  obtain ⟨hplayable, id, hhead⟩ := playable_of_loadEvents ha hden hload
  have hpos : 0 < events.length := by
    by_contra hempty
    obtain rfl := List.eq_nil_of_length_eq_zero (Nat.eq_zero_of_not_pos hempty)
    cases hhead
  obtain ⟨b, cuts, shown, hbuilt, hshown, -⟩ :=
    exists_shown hplayable hhead hscores (events.length - 1) (by omega)
  rw [Nat.sub_add_cancel hpos] at hbuilt hshown
  rw [List.take_length] at hbuilt
  obtain ⟨cuts', hflush⟩ := hshown.flush
  have hsteps := hflush.steps
  refine ⟨b.flush.states, cuts', ?_, hflush.first, hflush.last, hsteps.imp fun _ _ hs => hs.1,
    hflush.states, hsteps.imp fun _ _ hs => hs.2, fun j e he htype => ?_⟩
  · rw [buildReplayStates, hbuilt]
    rfl
  · apply existsUnique_between (hsteps.imp fun _ _ hs => hs.1) hflush.first hflush.last
    · -- the first event creates the game
      by_contra hlt
      obtain rfl : j = 0 := by omega
      have hpayload : e.payload = .gameCreated ⟨id, n, roster⟩ := by
        rw [List.head?_eq_getElem?, he] at hhead
        exact Option.some.inj hhead
      rw [hplayable.types e (List.mem_of_getElem? he), hpayload] at htype
      cases htype
    · exact (List.getElem?_eq_some_iff.mp he).1

theorem replay_shows_log_duel : ∃ rows events states,
    storedRun .byInsertion 9 [.applyMove 1 ⟨0, 0, 0, .bottom⟩]
      (Database.byInsertion.createdRows 9 duelStart) = some rows ∧
    Database.byInsertion.loadEvents 9 rows = .ok events ∧ buildReplayStates events = some states := by
  have hnew : Game.newGame 0 (some 1) (2 : ℕ) duel = some duelStart := by decide
  obtain ⟨rows, g, pos, hrun, ha⟩ :=
    (archived_createdRows (by decide) (by decide) .byInsertion hnew 9).run .byInsertion
      [.applyMove 1 ⟨0, 0, 0, .bottom⟩]
  obtain ⟨events, h, hload, -, -⟩ := ha.stored.loadEvents .byInsertion
  obtain ⟨states, cuts, hstates, -⟩ := replay_shows_log (by decide) (by decide) (by decide) hnew
    .byInsertion 9 [.applyMove 1 ⟨0, 0, 0, .bottom⟩] hrun hload
  exact ⟨rows, events, states, hrun, hload, hstates⟩

end DotsAndBoxes.Web
