import DotsAndBoxes.Game.Replay
import DotsAndBoxes.Game.Scores

/-! # The grammar of the event log

The log of a game starts with its creation. Every later command adds nothing, one round, or
the block that ends the game. A round is a move with the boxes it completes or with the
passing of the turn, or a passing alone. A game ends naturally only by a move that completes
a box, since a move that completes none leaves a box without an owner.
-/

namespace DotsAndBoxes

open Slices Enclosure Game

variable {n k : ℕ} {roster : List Player} {g g' h : Game} {pos : BoardPosition n roster.length}
  {gameID : ℤ} {rows : List EventRow}

def successor (k : ℕ) (turn : ℤ) : ℤ := (turn + 1) % k

/-- A move of the player to move, with the boxes that it completes. -/
inductive Completion (turn : ℤ) : List Payload → Prop where
  | one {row col row₁ col₁ : ℤ} {edge : String} :
      Completion turn [.moveApplied ⟨turn, row, col, edge⟩, .boxCompleted ⟨row₁, col₁, turn⟩]
  | two {row col row₁ col₁ row₂ col₂ : ℤ} {edge : String} :
      Completion turn [.moveApplied ⟨turn, row, col, edge⟩, .boxCompleted ⟨row₁, col₁, turn⟩,
        .boxCompleted ⟨row₂, col₂, turn⟩]

/-- A round of play with the turn current at its start, and the turn it leaves. -/
inductive Round (k : ℕ) (turn : ℤ) : List Payload → ℤ → Prop where
  | moved {row col : ℤ} {edge : String} :
      Round k turn [.moveApplied ⟨turn, row, col, edge⟩, .turnPassed ⟨successor k turn⟩]
        (successor k turn)
  | completed {block : List Payload} : Completion turn block → Round k turn block turn
  | passed : Round k turn [.turnPassed ⟨successor k turn⟩] (successor k turn)

inductive Terminal (turn : ℤ) : List Payload → Prop where
  | ended {block : List Payload} {winnerID : Option ℤ} :
      Completion turn block → Terminal turn (block ++ [.gameEnded ⟨winnerID⟩])
  | forfeited {forfeitedBy : ℤ} {winnerID : Option ℤ} :
      Terminal turn [.gameForfeited ⟨forfeitedBy, winnerID⟩]

/-- The creation of a game and any number of rounds, with the turn they leave. -/
inductive Rounds (n : ℕ) (roster : List Player) : List Payload → ℤ → Prop where
  | created {gameID : ℤ} : Rounds n roster [.gameCreated ⟨gameID, n, roster⟩] 0
  | round {log block : List Payload} {turn next : ℤ} :
      Rounds n roster log turn → Round roster.length turn block next →
      Rounds n roster (log ++ block) next

/-- A word of the grammar, with the turn it leaves and whether the game has ended. -/
inductive Word (n : ℕ) (roster : List Player) : List Payload → ℤ → Bool → Prop where
  | going {log : List Payload} {turn : ℤ} : Rounds n roster log turn → Word n roster log turn false
  | over {log block : List Payload} {turn : ℤ} :
      Rounds n roster log turn → Terminal turn block → Word n roster (log ++ block) turn true

/-- The events are a word of the grammar, each of the type of its payload, with versions that
count up from one. -/
structure Recorded (n : ℕ) (roster : List Player) (g : Game) (events : List DomainEvent) :
    Prop where
  word : Word n roster (events.map (·.payload)) g.currentTurn g.hasEnded
  types : ∀ e ∈ events, e.type = e.payload.type
  versions : events.map (·.version) = (List.range events.length).map fun i : ℕ => (i : ℤ) + 1

theorem Rounds.created_first {log : List Payload} {turn : ℤ} (h : Rounds n roster log turn) :
    ∃ id rest, log = .gameCreated ⟨id, n, roster⟩ :: rest := by
  induction h with
  | created => exact ⟨_, _, rfl⟩
  | round _ _ ih =>
    obtain ⟨id, rest, rfl⟩ := ih
    exact ⟨id, _, rfl⟩

theorem Word.created_first {log : List Payload} {turn : ℤ} {ended : Bool}
    (h : Word n roster log turn ended) : ∃ id rest, log = .gameCreated ⟨id, n, roster⟩ :: rest := by
  rcases h with hlog | ⟨hlog, -⟩
  · exact hlog.created_first
  · obtain ⟨id, rest, rfl⟩ := hlog.created_first
    exact ⟨id, _, rfl⟩

def Payload.opens : Payload → Bool
  | .moveApplied _ => true
  | .boxCompleted _ => true
  | _ => false

/-- One payload may come right before another: a game is created first, and a box is completed
right after a move or another box. -/
@[mk_iff adjacent_iff]
structure Payload.Adjacent (p q : Payload) : Prop where
  created : ∀ c, q ≠ .gameCreated c
  completed : ∀ c, q = .boxCompleted c → p.opens = true

open Payload

theorem Completion.adjacent {turn : ℤ} {block : List Payload} (h : Completion turn block) :
    block.IsChain Adjacent ∧ ∃ p, block.head? = some (.moveApplied p) := by
  cases h with
  | one => exact ⟨by simp [opens, adjacent_iff], _, rfl⟩
  | two => exact ⟨by simp [opens, adjacent_iff], _, rfl⟩

theorem adjacent_append {log block : List Payload} (hlog : log.IsChain Adjacent)
    (hblock : block.IsChain Adjacent)
    (hhead : ∀ q ∈ block.head?, (∀ c, q ≠ .gameCreated c) ∧ ∀ c, q ≠ .boxCompleted c) :
    (log ++ block).IsChain Adjacent := by
  refine List.isChain_append.mpr ⟨hlog, hblock, ?_⟩
  rintro p - q hq
  exact ⟨(hhead q hq).1, fun c hc => absurd hc ((hhead q hq).2 c)⟩

theorem Round.adjacent {turn next : ℤ} {block : List Payload} (h : Round k turn block next) :
    block.IsChain Adjacent ∧
      ∀ q ∈ block.head?, (∀ c, q ≠ .gameCreated c) ∧ ∀ c, q ≠ .boxCompleted c := by
  cases h with
  | moved => simp [adjacent_iff]
  | completed hblock =>
    obtain ⟨hchain, p, hp⟩ := hblock.adjacent
    exact ⟨hchain, by simp [hp]⟩
  | passed => simp

theorem Terminal.adjacent {turn : ℤ} {block : List Payload} (h : Terminal turn block) :
    block.IsChain Adjacent ∧
      ∀ q ∈ block.head?, (∀ c, q ≠ .gameCreated c) ∧ ∀ c, q ≠ .boxCompleted c := by
  cases h with
  | ended hblock =>
    obtain ⟨hchain, p, hp⟩ := hblock.adjacent
    exact ⟨adjacent_append hchain (by simp) (by simp), by simp [List.head?_append, hp]⟩
  | forfeited => simp

theorem Word.adjacent {log : List Payload} {turn : ℤ} {ended : Bool}
    (h : Word n roster log turn ended) : log.IsChain Adjacent := by
  have hrounds : ∀ {log : List Payload} {turn : ℤ}, Rounds n roster log turn →
      log.IsChain Adjacent := by
    intro log turn hlog
    induction hlog with
    | created => simp
    | round _ hround ih => exact adjacent_append ih hround.adjacent.1 hround.adjacent.2
  rcases h with hlog | ⟨hlog, hend⟩
  · exact hrounds hlog
  · exact adjacent_append (hrounds hlog) hend.adjacent.1 hend.adjacent.2

/-- What one command adds to the log: nothing, a round, or the block that ends the game. -/
inductive Added (k : ℕ) (turn : ℤ) : Bool → List Payload → ℤ → Bool → Prop where
  | nothing {ended : Bool} : Added k turn ended [] turn ended
  | round {block : List Payload} {next : ℤ} :
      Round k turn block next → Added k turn false block next false
  | terminal {block : List Payload} : Terminal turn block → Added k turn false block turn true

theorem Word.append {log block : List Payload} {turn next : ℤ} {ended ended' : Bool}
    (h : Word n roster log turn ended) (ha : Added roster.length turn ended block next ended') :
    Word n roster (log ++ block) next ended' := by
  cases ha with
  | nothing => rwa [List.append_nil]
  | round hround =>
    cases h with
    | going hlog => exact .going (hlog.round hround)
  | terminal hend =>
    cases h with
    | going hlog => exact .over hlog hend

theorem length_completedCells_le (pos : BoardPosition n roster.length) (c : Cell n) (s : Side) :
    (completedCells pos c s).length ≤ 2 := by
  apply (List.length_filter_le _ _).trans
  cases across c s <;> simp

theorem completion_of_cells (t : Fin roster.length) (c : Cell n) (s : Side)
    {cells : List (Cell n)} (hsome : cells ≠ []) (htwo : cells.length ≤ 2) :
    Completion t.val (.moveApplied ⟨t.val, c.1.val, c.2.val, s.edge.toString⟩ ::
      cells.map fun d => .boxCompleted ⟨d.1.val, d.2.val, t.val⟩) := by
  match cells with
  | [] => exact absurd rfl hsome
  | [_] => exact .one
  | [_, _] => exact .two
  | _ :: _ :: _ :: _ => simp at htwo

theorem successor_val (t : Fin k) : successor k t.val = (nextSeat t).val := by
  simp [successor, nextSeat]

theorem Tracks.ended_play_of_no_capture (hg : Tracks roster n g pos) (hrun : pos.ended = false)
    {seg : Segment n} (hnone : (rules n roster.length).captures pos seg = ∅) :
    ((rules n roster.length).play pos seg).ended = false := by
  rw [← Bool.not_eq_true, Rules.ended_play_iff]
  intro howned
  have hall : allOwned pos = true := by
    rw [allOwned, decide_eq_true_iff]
    intro c
    simpa [Rules.play, hnone] using howned c
  rw [hg.playable hrun] at hall
  cases hall

theorem Tracks.added_movePayloads (hg : Tracks roster n g pos) (hrun : pos.ended = false)
    (c : Cell n) (s : Side) (winnerID : Option ℤ) :
    Added roster.length pos.turn.val false (movePayloads pos c s winnerID)
      ((rules n roster.length).play pos (Segment.of c s)).turn.val
      ((rules n roster.length).play pos (Segment.of c s)).ended := by
  have hcap (d : Cell n) := mem_completedCells_iff hg.sound (c := c) (d := d) (s := s)
  set cells := completedCells (pos.apply (.mark (Segment.of c s))) c s with hcells
  have hnil : cells = [] ↔ (rules n roster.length).captures pos (Segment.of c s) = ∅ := by
    rw [List.eq_nil_iff_forall_not_mem, Finset.eq_empty_iff_forall_notMem]
    exact forall_congr' fun d => not_congr (hcap d)
  by_cases hnone : cells = []
  · have hgoing := hg.ended_play_of_no_capture hrun (hnil.mp hnone)
    have hturn : ((rules n roster.length).play pos (Segment.of c s)).turn = nextSeat pos.turn := by
      rw [Rules.play, if_pos (hnil.mp hnone)]
      rfl
    rw [hgoing, hturn, movePayloads, hgoing]
    simp only [← hcells, hnone, List.map_nil, if_true, Bool.false_eq_true, if_false]
    rw [← successor_val]
    exact .round .moved
  · have hturn : ((rules n roster.length).play pos (Segment.of c s)).turn = pos.turn := by
      rw [Rules.play, if_neg (mt hnil.mpr hnone)]
    have hblock := completion_of_cells pos.turn c s hnone
      (hcells ▸ length_completedCells_le _ c s)
    rw [hturn, movePayloads]
    simp only [← hcells, hnone, if_false, List.append_nil]
    cases ((rules n roster.length).play pos (Segment.of c s)).ended with
    | false => simpa using .round (.completed hblock)
    | true => exact .terminal (.ended hblock)

/-- Every command runs without a panic, and what it adds to the log is in the grammar. -/
theorem Tracks.execute (hg : Tracks roster n g pos) (c : Command) :
    ∃ g' reply now payloads acts, g.execute c = some (g', reply) ∧
      Performs roster n now g g' pos payloads acts ∧
      Added roster.length g.currentTurn g.hasEnded payloads g'.currentTurn g'.hasEnded := by
  have hended : g.hasEnded = pos.ended := hg.ended
  cases c with
  | applyMove now move =>
    by_cases hallowed : ∃ (c : Cell n) (s : Side), Allowed pos move c s
    · obtain ⟨c, s, ha⟩ := hallowed
      obtain ⟨g', result, winnerID, hmove, hperf⟩ := hg.performs_movePayloads ha now
      refine ⟨g', _, now, _, _, by simp [Game.execute, hmove]; rfl, hperf, ?_⟩
      have hafter := hperf.tracks
      have hcap (d : Cell n) := mem_completedCells_iff hg.sound (c := c) (d := d) (s := s)
      rw [Rules.applyAll_turnActs ha.running hcap] at hafter
      have hended' : g'.hasEnded = ((rules n roster.length).play pos (Segment.of c s)).ended :=
        hafter.ended
      rw [hg.turn, hafter.turn, hended, hended', ha.running]
      exact hg.added_movePayloads ha.running c s winnerID
    · obtain ⟨err, herr⟩ := applyMove_of_not_allowed hg.toRepresents
        (fun c s ha => hallowed ⟨c, s, ha⟩) now
      exact ⟨g, _, now, [], [], by simp [Game.execute, herr]; rfl, hg.performs_nil now, .nothing⟩
  | passTurnOnTimeout now =>
    cases hrun : pos.ended with
    | true =>
      have herr := passTurnOnTimeout_of_ended hg.toRepresents hrun now
      exact ⟨g, _, now, [], [], by simp [Game.execute, herr]; rfl, hg.performs_nil now, .nothing⟩
    | false =>
      obtain ⟨g', _, hpass, hperf⟩ := hg.performs_turnPassed hrun now
      refine ⟨g', _, now, _, _, by simp [Game.execute, hpass]; rfl, hperf, ?_⟩
      have hended' : g'.hasEnded = pos.ended := hperf.tracks.ended
      have hturn' : g'.currentTurn = (nextSeat pos.turn).val := hperf.tracks.turn
      rw [hg.turn, hturn', hended, hended', hrun, ← successor_val]
      exact .round .passed
  | forfeit now playerID =>
    cases hrun : pos.ended with
    | true =>
      have herr : g.guardedForfeit now playerID = some (g, .error .gameEnded) :=
        if_pos (hg.ended.trans hrun)
      exact ⟨g, _, now, [], [], herr, hg.performs_nil now, .nothing⟩
    | false =>
      obtain ⟨g', winnerID, hforfeit, hperf⟩ := hg.performs_gameForfeited playerID now
      have hnot : g.endedAt.isSome = false := hg.ended.trans hrun
      refine ⟨g', .ok none, now, _, _,
        by simp [Game.execute, Game.guardedForfeit, hnot, hforfeit], hperf, ?_⟩
      have hended' : g'.hasEnded = true := hperf.tracks.ended
      have hturn' : g'.currentTurn = pos.turn.val := hperf.tracks.turn
      rw [hg.turn, hturn', hended, hended', hrun]
      exact .terminal .forfeited

theorem Recorded.append {events new : List DomainEvent} {payloads : List Payload}
    (hr : Recorded n roster g events)
    (ha : Added roster.length g.currentTurn g.hasEnded payloads g'.currentTurn g'.hasEnded)
    (hpayloads : new.map (·.payload) = payloads) (htypes : ∀ e ∈ new, e.type = e.payload.type)
    (hversions : new.map (·.version) =
      (List.range payloads.length).map fun i : ℕ => (events.length : ℤ) + i + 1) :
    Recorded n roster g' (events ++ new) := by
  refine ⟨?_, ?_, ?_⟩
  · rw [List.map_append, hpayloads]
    exact hr.word.append ha
  · intro e he
    exact (List.mem_append.mp he).elim (hr.types e) (htypes e)
  · rw [← hpayloads, List.length_map] at hversions
    rw [List.map_append, hr.versions, hversions, List.length_append, List.range_add,
      List.map_append, List.map_map]
    refine congrArg _ (List.map_congr_left fun i _ => ?_)
    rw [Function.comp_apply]
    push_cast
    rfl

def liveRun (commands : List Command) (g : Game) : Exec Game :=
  commands.foldlM (fun g c => (liveStep c g).map Prod.fst) g

/-- Execute commands one after the other, each on an aggregate rebuilt from the stored
events. -/
def storedRun (db : Database) (gameID : ℤ) (commands : List Command) (rows : List EventRow) :
    Exec (List EventRow) :=
  commands.foldlM (fun rows c => (storedStep db gameID c rows).map Prod.fst) rows

/-- A live aggregate whose recorded events are its log. -/
structure Live (n : ℕ) (roster : List Player) (g : Game) (pos : BoardPosition n roster.length) :
    Prop extends Tracks roster n g pos where
  recorded : Recorded n roster g g.uncommittedEvents
  version : g.version = g.uncommittedEvents.length

theorem recorded_created (hend : g.hasEnded = false) (hturn : g.currentTurn = 0)
    {e : DomainEvent} {gameID : ℤ} (hpayload : e.payload = .gameCreated ⟨gameID, n, roster⟩)
    (htype : e.type = .gameCreated) (hversion : e.version = 1) : Recorded n roster g [e] := by
  refine ⟨?_, ?_, ?_⟩
  · rw [List.map_singleton, hpayload, hend, hturn]
    exact .going .created
  · intro e' he'
    obtain rfl := List.mem_singleton.mp he'
    rw [htype, hpayload]
    rfl
  · simp [hversion]

theorem live_newGame (hn : 0 < n) (hk : 0 < roster.length) {now : Time} {gameID : Option ℤ}
    (hnew : Game.newGame now gameID n roster = some g) :
    Live n roster g (emptyBoard n hk) := by
  have htracks := tracks_newGame hn hk hnew
  rw [newGame_eq] at hnew
  obtain ⟨grid, -, rfl⟩ := Option.map_eq_some_iff.mp hnew
  exact ⟨htracks, recorded_created rfl rfl rfl rfl rfl, rfl⟩

theorem Live.step (hl : Live n roster g pos) (c : Command) :
    ∃ g' outcome pos', liveStep c g = some (g', outcome) ∧ Live n roster g' pos' := by
  obtain ⟨g', reply, now, payloads, acts, hexec, hperf, hadded⟩ := hl.toTracks.execute c
  obtain ⟨hevents, hversion, -⟩ :=
    raiseAll_records (gameCreated_notMem hperf.denotes) hperf.raised
  have hstep : liveStep c g = some (g', ⟨reply.mapError .move, some g'.view⟩) := by
    simp [liveStep, hexec]
  refine ⟨g', _, _, hstep, hperf.tracks, ?_, ?_⟩
  · rw [hevents]
    exact hl.recorded.append hadded (map_payload_stamped ..) (fun e he => type_of_mem_stamped he)
      (by rw [map_version_stamped, hl.version])
  · rw [hversion, hevents, List.length_append, length_stamped, hl.version]
    push_cast
    rfl

theorem Live.run (hl : Live n roster g pos) (commands : List Command) :
    ∃ g' pos', liveRun commands g = some g' ∧ Live n roster g' pos' := by
  induction commands generalizing g pos with
  | nil => exact ⟨g, pos, rfl, hl⟩
  | cons c commands ih =>
    obtain ⟨g₁, outcome, pos₁, hstep, hl₁⟩ := hl.step c
    obtain ⟨g', pos', hrun, hl'⟩ := ih hl₁
    exact ⟨g', pos', by simp only [liveRun, List.foldlM_cons, hstep]; exact hrun, hl'⟩

theorem Represents.sameView (h : Represents roster n g pos) (hs : SameView g g') :
    Represents roster n g' pos := by
  obtain ⟨hsize, hturn, hended, hbox, hlength, hplayer⟩ := h
  rw [show g.boardSize = g'.boardSize from congrArg View.boardSize hs] at hsize
  rw [show g.currentTurn = g'.currentTurn from congrArg View.currentTurn hs] at hturn
  rw [show g.endedAt.isSome = g'.endedAt.isSome from congrArg View.ended hs] at hended
  rw [show g.grid = g'.grid from congrArg View.grid hs] at hbox
  rw [show g.players = g'.players from congrArg View.players hs] at hlength hplayer
  exact ⟨hsize, hturn, hended, hbox, hlength, hplayer⟩

theorem Tracks.sameView (h : Tracks roster n g pos) (hs : SameView g g') :
    Tracks roster n g' pos := ⟨h.toRepresents.sameView hs, h.sound, h.playable⟩

/-- Rows that rebuild a game by the rules, whose events are its log. -/
structure Archived (gameID : ℤ) (n : ℕ) (roster : List Player) (rows : List EventRow) (g : Game)
    (pos : BoardPosition n roster.length) : Prop extends Tracks roster n g pos where
  stored : Stored gameID g rows
  log : ∃ events, rows.mapM (EventRow.load gameID) = .ok events ∧ Recorded n roster g events ∧
    g.version = events.length

theorem archived_createdRows (hn : 0 < n) (hk : 0 < roster.length) (db : Database) {now : Time}
    {tempID : Option ℤ} (hnew : Game.newGame now tempID n roster = some g) (gameID : ℤ) :
    Archived gameID n roster (db.createdRows gameID g)
      (Game.clearEvents { g with gameID := some gameID }) (emptyBoard n hk) := by
  have hstored := stored_createdRows db hnew gameID
  obtain ⟨hrep, hsound, hplayable⟩ := tracks_newGame hn hk hnew
  rw [newGame_eq] at hnew
  obtain ⟨grid, -, rfl⟩ := Option.map_eq_some_iff.mp hnew
  let created : DomainEvent := ⟨.gameCreated, now, "", 1, .gameCreated ⟨gameID, n, roster⟩⟩
  have htypes : ∀ e ∈ [created], e.type = e.payload.type := by simp [created, Payload.type]
  refine ⟨⟨⟨hrep.boardSize, hrep.turn, hrep.ended, hrep.box, hrep.length, hrep.player⟩, hsound,
    hplayable⟩, hstored, [db.loaded gameID created], mapM_load_row db gameID htypes, ?_, rfl⟩
  exact recorded_created rfl rfl rfl rfl rfl

/-- A command appends events that denote acts, and leaves a log in the grammar. -/
theorem Archived.step (ha : Archived gameID n roster rows g pos) (db : Database) (c : Command) :
    ∃ new outcome g' pos', storedStep db gameID c rows = some (db.appendEvents rows new, outcome) ∧
      (∀ e ∈ new, e.type = e.payload.type ∧ ∃ act, Denotes n roster.length e.payload act) ∧
      Archived gameID n roster (db.appendEvents rows new) g' pos' := by
  obtain ⟨events, hread, hrecorded, hversion⟩ := ha.log
  obtain ⟨es, g₀, hload, hfold, hr⟩ := ha.stored.loadEvents db
  have hturn : g.currentTurn = g₀.currentTurn := congrArg View.currentTurn hr.sameView
  have hended : g.hasEnded = g₀.hasEnded := congrArg View.ended hr.sameView
  have hsame : g.version = g₀.version := congrArg View.version hr.sameView
  obtain ⟨g', reply, now, payloads, acts, hexec, hperf, hadded⟩ :=
    (ha.toTracks.sameView hr.sameView).execute c
  have hcreated := gameCreated_notMem hperf.denotes
  obtain ⟨hraised, hversion', -⟩ := raiseAll_records hcreated hperf.raised
  rw [hr.clean, List.nil_append] at hraised
  set new := stamped now g₀.aggregateID g₀.version payloads with hnew
  have htypes : ∀ e ∈ new, e.type = e.payload.type := fun e he => type_of_mem_stamped he
  have hstep : storedStep db gameID c rows = some (db.appendEvents rows new,
      ⟨reply.mapError .move, some g'.view⟩) := by
    simp [storedStep, hload, hfold, hexec, hraised]
  refine ⟨new, _, g', _, hstep, fun e he => ⟨htypes e he, ?_⟩, hperf.tracks, ?_,
    events ++ new.map (db.loaded gameID), ?_, ?_, ?_⟩
  · obtain ⟨act, -, hact⟩ := exists_act_of_mem hperf.denotes (payload_mem_of_mem_stamped he)
    exact ⟨act, hact⟩
  · exact (ha.stored.sameView hr.sameView).append db _ hcreated hperf.raised
  · rw [Database.appendEvents, List.mapM_append, hread, mapM_load_row db gameID htypes]
    rfl
  · rw [← hturn, ← hended] at hadded
    have hpayloads : (new.map (db.loaded gameID)).map (·.payload) = payloads := by
      rw [List.map_map, ← map_payload_stamped now g₀.aggregateID g₀.version payloads]
      rfl
    refine hrecorded.append hadded hpayloads ?_ ?_
    · intro e he
      obtain ⟨e₀, he₀, rfl⟩ := List.mem_map.mp he
      exact htypes e₀ he₀
    · rw [← hversion, hsame, ← map_version_stamped now g₀.aggregateID g₀.version payloads,
        List.map_map]
      rfl
  · rw [hversion', ← hsame, hversion, List.length_append, List.length_map, length_stamped]
    push_cast
    rfl

theorem Archived.run (ha : Archived gameID n roster rows g pos) (db : Database)
    (commands : List Command) : ∃ rows' g' pos', storedRun db gameID commands rows = some rows' ∧
      Archived gameID n roster rows' g' pos' := by
  induction commands generalizing rows g pos with
  | nil => exact ⟨rows, g, pos, rfl, ha⟩
  | cons c commands ih =>
    obtain ⟨new, outcome, g₁, pos₁, hstep, -, ha₁⟩ := ha.step db c
    obtain ⟨rows', g', pos', hrun, ha'⟩ := ih ha₁
    exact ⟨rows', g', pos', by simp only [storedRun, List.foldlM_cons, hstep]; exact hrun, ha'⟩

theorem Recorded.sameView {events : List DomainEvent} (hr : Recorded n roster g events)
    (hs : SameView g h) : Recorded n roster h events := by
  have hturn : g.currentTurn = h.currentTurn := congrArg View.currentTurn hs
  have hended : g.hasEnded = h.hasEnded := congrArg View.ended hs
  exact ⟨hturn ▸ hended ▸ hr.word, hr.types, hr.versions⟩

/-- Commands processed one at a time, whatever their arguments, leave a log that is a word of
the grammar: the events recorded in memory, and the events read back from the table. -/
theorem log_is_word (hn : 0 < n) (hk : 0 < roster.length) {now : Time} {tempID : Option ℤ}
    (hnew : Game.newGame now tempID n roster = some g) (commands : List Command) :
    (∃ g', liveRun commands g = some g' ∧ Recorded n roster g' g'.uncommittedEvents) ∧
    ∀ (db : Database) (gameID : ℤ), ∃ rows events g',
      storedRun db gameID commands (db.createdRows gameID g) = some rows ∧
      db.loadEvents gameID rows = .ok events ∧ Game.loadFromEvents events = some g' ∧
      Recorded n roster g' events := by
  constructor
  · obtain ⟨g', _, hrun, hl⟩ := (live_newGame hn hk hnew).run commands
    exact ⟨g', hrun, hl.recorded⟩
  · intro db gameID
    obtain ⟨rows, g', _, hrun, ha⟩ := (archived_createdRows hn hk db hnew gameID).run db commands
    obtain ⟨events, hread, hrecorded, -⟩ := ha.log
    obtain ⟨es, h, hload, hfold, hr⟩ := ha.stored.loadEvents db
    have hes : es = events := by
      rw [Database.loadEvents, db.orderByVersion_eq ha.stored.ordered] at hload
      exact Except.ok.inj (hload.symm.trans hread)
    exact ⟨rows, events, h, hrun, hes ▸ hload, hes ▸ hfold, hrecorded.sameView hr.sameView⟩

theorem log_is_word_duel :
    ∃ g', liveRun [.applyMove 1 ⟨0, 0, 0, .bottom⟩, .forfeit 2 7] duelStart = some g' ∧
      Recorded 2 duel g' g'.uncommittedEvents :=
  have hnew : Game.newGame 0 (some 1) (2 : ℕ) duel = some duelStart := by decide
  (log_is_word (by decide) (by decide) hnew [.applyMove 1 ⟨0, 0, 0, .bottom⟩, .forfeit 2 7]).1

end DotsAndBoxes
