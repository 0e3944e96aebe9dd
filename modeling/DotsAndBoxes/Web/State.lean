import DotsAndBoxes.Game.Grammar
import DotsAndBoxes.Game.Winner

/-! # The end of a game in the browser

The browser reads a game as JSON and takes it for finished when a winner is named or every
box is owned. The server records the time of the end. The two agree in every game of a run:
the natural end is recorded exactly when no box is left, and a forfeit names a winner
whatever the scores are.
-/

namespace Tagged

/-- A property of a parsed value: the last member of the name, or none if it is undefined. -/
def Json.property (name : String) : Json → Option Json
  | .obj members => (members.reverse.find? fun member => member.1 = name).map Prod.snd
  | _ => none

def Json.isNull : Json → Bool
  | .null => true
  | _ => false

/-- The elements of an array; a value without the methods of an array throws. -/
def Json.elements : Json → Option (List Json)
  | .arr elems => some elems
  | _ => none

theorem isNull_pointer_int (a : Option ℤ) : (Codec.int.pointer.marshal a).isNull = a.isNone := by
  cases a <;> rfl

end Tagged

namespace DotsAndBoxes

open Slices Enclosure Game Simulation Tagged

variable {n : ℕ} {roster : List Player} {g g' h : Game} {pos : BoardPosition n roster.length}

def Box.codec : Codec Box :=
  .struct { row := 0, col := 0 } [
    .of "row" .int (·.row) fun b row => { b with row },
    .of "col" .int (·.col) fun b col => { b with col },
    .of "top_edge" .bool (·.topEdge) fun b topEdge => { b with topEdge },
    .of "right_edge" .bool (·.rightEdge) fun b rightEdge => { b with rightEdge },
    .of "bottom_edge" .bool (·.bottomEdge) fun b bottomEdge => { b with bottomEdge },
    .of "left_edge" .bool (·.leftEdge) fun b leftEdge => { b with leftEdge },
    .of "owner_turn" (.pointer .int) (·.ownerTurn) fun b ownerTurn => { b with ownerTurn }]

/-- The JSON of a game, with its timestamps written by the given format. The aggregate has no
exported field, and no game is given a name. -/
def Game.marshal (stamp : Time → String) (g : Game) : Json :=
  .obj [
    ("game_id", Codec.int.pointer.marshal g.gameID),
    ("game_name", .null),
    ("board_size", Codec.int.marshal g.boardSize),
    ("current_turn", Codec.int.marshal g.currentTurn),
    ("winner_id", Codec.int.pointer.marshal g.winnerID),
    ("created_at", .str (stamp g.createdAt)),
    ("ended_at", Codec.string.pointer.marshal (g.endedAt.map stamp)),
    ("players", Player.codec.slice.marshal g.players),
    ("grid", Box.codec.slice.slice.marshal g.grid)]

/-- The game is finished as the browser sees it: no game is loaded, or a winner is named, or
every box has an owner. -/
def isGameFinished : Option Json → Exec Bool
  | none => some false
  | some state =>
    if (state.property "winner_id").any (! ·.isNull) then some true
    else do
      let grid ← (state.property "grid").bind Json.elements
      grid.allM fun row => do
        let boxes ← row.elements
        boxes.allM fun box => some !(box.property "owner_turn").any Json.isNull

def Game.fullyOwned (g : Game) : Bool := g.grid.all fun row => row.all fun box => box.ownerTurn.isSome

theorem property_owner_turn (box : Box) :
    (Box.codec.marshal box).property "owner_turn" = some (Codec.int.pointer.marshal box.ownerTurn) := by
  simp [Box.codec, Codec.struct, Json.property, Field.of]

theorem isGameFinished_marshal (stamp : Time → String) (g : Game) :
    isGameFinished (some (g.marshal stamp)) = some (g.winnerID.isSome || g.fullyOwned) := by
  have hwinner : (g.marshal stamp).property "winner_id" =
      some (Codec.int.pointer.marshal g.winnerID) := by
    simp [Game.marshal, Json.property]
  have hgrid : ((g.marshal stamp).property "grid").bind Json.elements =
      some (g.grid.map Box.codec.slice.marshal) := by
    simp [Game.marshal, Json.property]
    rfl
  have hrow : ∀ row : List Box, (Box.codec.slice.marshal row).elements =
      some (row.map Box.codec.marshal) := fun row => rfl
  simp only [isGameFinished, hwinner, hgrid, Option.any_some, isNull_pointer_int]
  cases g.winnerID with
  | some winner => rfl
  | none =>
    simp only [Option.isNone_none, Bool.not_true, Bool.false_eq_true, if_false, Option.isSome_none,
      Bool.false_or, Option.bind_eq_bind, Option.bind_some]
    rw [allM_of_eq_some (p := fun row => (row.elements.getD []).all fun box =>
      !(box.property "owner_turn").any Json.isNull)]
    · simp [Game.fullyOwned, hrow, List.all_map, Function.comp_def, property_owner_turn,
        isNull_pointer_int]
    · rintro _ hmem
      obtain ⟨row, -, rfl⟩ := List.mem_map.mp hmem
      rw [hrow]
      exact allM_of_eq_some fun _ _ => rfl

/-- What setting a side in a row keeps of the row is kept of all rows by setting an edge. -/
theorem map_of_markEdge {β : Type*} {k : List Box → β} {grid grid' : List (List Box)}
    {boardSize row col : ℤ} {edge : EdgeType}
    (hk : ∀ (s : Side) (j : ℤ) row row', modify? row j (·.setSide s) = some row' → k row' = k row)
    (h : markEdge grid boardSize row col edge = some grid') : grid'.map k = grid.map k := by
  rcases exists_side_or_other edge with ⟨s, rfl⟩ | ⟨name, rfl⟩
  · rw [markEdge_side] at h
    obtain ⟨_, -, h⟩ := Option.bind_eq_some_iff.mp h
    obtain ⟨grid₁, hown, h⟩ := Option.bind_eq_some_iff.mp h
    have hfirst : grid₁.map k = grid.map k := map_modify2? hown (hk s _)
    dsimp only at h
    split at h
    · exact (map_modify2? h (hk s.opposite _)).trans hfirst
    · obtain rfl := Option.some.inj h
      exact hfirst
  · obtain ⟨_, -, h⟩ := Option.bind_eq_some_iff.mp h
    obtain rfl := Option.some.inj h
    rfl

theorem map_length_of_markEdge {grid grid' : List (List Box)} {boardSize row col : ℤ}
    {edge : EdgeType} (h : markEdge grid boardSize row col edge = some grid') :
    grid'.map List.length = grid.map List.length :=
  map_of_markEdge (fun _ _ _ _ => length_of_modify?) h

theorem raiseAll_rowLengths {now : Time} {payloads : List Payload}
    (hcreated : ∀ p, .gameCreated p ∉ payloads) (h : g.raiseAll now payloads = some g') :
    g'.grid.map List.length = g.grid.map List.length := by
  refine raiseAll_frame (v := fun g => g.grid.map List.length) (fun _ _ => rfl) ?_ h
  intro p hp g₁ g₂ happlied
  cases happlied with
  | gameCreated => exact absurd hp (hcreated _)
  | moveApplied hmark => exact map_length_of_markEdge hmark
  | boxCompleted hgrid => exact map_length_of_modify2? hgrid
  | _ => rfl

theorem fullyOwned_eq (hrep : Represents roster n g pos)
    (hrows : g.grid.map List.length = List.replicate n n) : g.fullyOwned = allOwned pos := by
  have hlen : g.grid.length = n := by simpa using congrArg List.length hrows
  have hrow (i : ℕ) (hi : i < g.grid.length) : g.grid[i].length = n := by
    have hget := List.getElem_of_eq hrows (i := i) (by simpa using hi)
    simpa using hget
  have hbox (i : ℕ) (hi : i < g.grid.length) (j : ℕ) (hj : j < g.grid[i].length) :
      (g.grid[i][j].ownerTurn.isSome = true) ↔
        (pos.owner (⟨i, hlen ▸ hi⟩, ⟨j, hrow i hi ▸ hj⟩)).isSome = true := by
    have hat := hrep.box (⟨i, hlen ▸ hi⟩, ⟨j, hrow i hi ▸ hj⟩)
    simp only [at2?, at?_natCast, List.getElem?_eq_getElem hi, Option.bind_some,
      List.getElem?_eq_getElem hj, Option.some.injEq] at hat
    rw [hat, boxView, Option.isSome_map]
  rw [Bool.eq_iff_iff, allOwned, decide_eq_true_iff, Game.fullyOwned, List.all_eq_true]
  constructor
  · intro h c
    have hi : c.1.val < g.grid.length := hlen ▸ c.1.isLt
    have hj : c.2.val < g.grid[c.1.val].length := (hrow _ hi).symm ▸ c.2.isLt
    have hmem := List.all_eq_true.mp (h _ (List.getElem_mem hi)) _ (List.getElem_mem hj)
    exact (hbox _ hi _ hj).mp hmem
  · rintro h row hmem
    obtain ⟨i, hi, rfl⟩ := List.getElem_of_mem hmem
    rw [List.all_eq_true]
    intro box hbox'
    obtain ⟨j, hj, rfl⟩ := List.getElem_of_mem hbox'
    exact (hbox i hi j hj).mpr (h _)

theorem raiseAll_winnerID {now : Time} {payloads : List Payload}
    (hgoing : payloads.any Payload.terminal = false) (h : g.raiseAll now payloads = some g') :
    g'.winnerID = g.winnerID := by
  refine raiseAll_frame (v := Game.winnerID) (fun _ _ => rfl) ?_ h
  intro p hp g₁ g₂ happlied
  have hon := List.any_eq_false.mp hgoing p hp
  cases happlied with
  | gameEnded => exact absurd rfl hon
  | gameForfeited => exact absurd rfl hon
  | _ => rfl

/-- Players that can beat one another: at least two, each with an id of its own and with no
score below zero. -/
structure Rivals (roster : List Player) : Prop where
  two : 2 ≤ roster.length
  named : ∀ p ∈ roster, p.userID.isSome = true
  distinct : (roster.map (·.userID)).Nodup
  scores : ∀ p ∈ roster, 0 ≤ p.score

theorem Rivals.exists_other (h : Rivals roster) (playerID : ℤ) :
    ∃ t : Fin roster.length, (roster.get t).userID ≠ some playerID := by
  by_contra hnone
  push Not at hnone
  have hlen := h.two
  have hcount : (roster.map (·.userID)).length = roster.length := List.length_map _
  have hsame : (roster.map (·.userID)).get ⟨0, by omega⟩ =
      (roster.map (·.userID)).get ⟨1, by omega⟩ := by
    simpa using (hnone ⟨0, by omega⟩).trans (hnone ⟨1, by omega⟩).symm
  have hindex := congrArg Fin.val (h.distinct.get_inj_iff.mp hsame)
  simp at hindex

theorem Rivals.contenders (h : Rivals roster) (hg : Tracks roster n g pos) :
    Contenders g.players := by
  intro p hp
  rw [hg.players_eq, List.mem_ofFn] at hp
  obtain ⟨t, rfl⟩ := hp
  have hscore := h.scores _ (List.get_mem roster t)
  refine ⟨h.named (roster.get t) (List.get_mem roster t), ?_⟩
  simp only [seatView]
  omega

theorem Rivals.forfeit_winnerID (h : Rivals roster) (hg : Tracks roster n g pos) {now : Time}
    {playerID : ℤ} (hforfeit : g.forfeit now playerID = some g') :
    g'.winnerID.isSome = true := by
  set winnerID := (g.players.foldl (forfeitLeader playerID) (-1, none)).2 with hwinnerID
  have hraise : g.raise now .gameForfeited (.gameForfeited ⟨playerID, winnerID⟩) = some g' :=
    hforfeit
  obtain ⟨g₁, happlied, rfl⟩ := applied_of_raise (p := .gameForfeited _) hraise
  have hwinner : g₁.winnerID = winnerID := by
    cases happlied
    rfl
  have hplayers := h.contenders hg
  rcases (succeeds_forfeitLeader playerID hplayers).best with ⟨i, -, hbest⟩ | ⟨hall, -⟩
  · have hnamed := (hplayers _ (List.get_mem g.players i)).1
    rwa [← hbest, ← hwinnerID, ← hwinner] at hnamed
  · obtain ⟨t, ht⟩ := h.exists_other playerID
    have hplays : seatView roster pos t ∈ g.players := by
      rw [hg.players_eq, List.mem_ofFn]
      exact ⟨t, rfl⟩
    exact absurd (hall _ hplays) ht

/-- The grid is a square, a winner is named only at the end, and at the end a winner is named
or every box has an owner. -/
structure Decided (roster : List Player) (n : ℕ) (g : Game) (pos : BoardPosition n roster.length) :
    Prop extends Tracks roster n g pos where
  rows : g.grid.map List.length = List.replicate n n
  winner : g.winnerID.isSome = true → pos.ended = true
  decided : pos.ended = true → g.winnerID.isSome = true ∨ allOwned pos = true

theorem Decided.isGameFinished (h : Decided roster n g pos) (stamp : Time → String) :
    isGameFinished (some (g.marshal stamp)) = some g.hasEnded := by
  have hended : g.hasEnded = pos.ended := h.ended
  rw [isGameFinished_marshal, fullyOwned_eq h.toRepresents h.rows, hended]
  congr 1
  rw [Bool.eq_iff_iff, Bool.or_eq_true]
  constructor
  · rintro (hwinner | hall)
    · exact h.winner hwinner
    · by_contra hrun
      rw [h.playable (Bool.eq_false_iff.mpr hrun)] at hall
      cases hall
  · exact h.decided

/-- Payloads that perform acts leave a decided game, if none of them is a forfeit. -/
theorem Decided.of_performs (h : Decided roster n g pos) {now : Time} {payloads : List Payload}
    {acts : List (Act (Segment n) (Cell n) (Fin roster.length))}
    (hperf : Performs roster n now g g' pos payloads acts)
    (hforfeit : ∀ p, .gameForfeited p ∉ payloads) : Decided roster n g' (pos.applyAll acts) := by
  have hended : g'.hasEnded = (g.hasEnded || payloads.any Payload.terminal) :=
    raiseAll_hasEnded hperf.raised
  have hbefore : g.hasEnded = pos.ended := h.ended
  have hafter : g'.hasEnded = (pos.applyAll acts).ended := hperf.tracks.ended
  have hrows := raiseAll_rowLengths (gameCreated_notMem hperf.denotes) hperf.raised
  refine ⟨hperf.tracks, hrows.trans h.rows, ?_, ?_⟩
  · intro hwinner
    rw [← hafter, hended]
    cases hany : payloads.any Payload.terminal with
    | true => simp
    | false =>
      rw [raiseAll_winnerID hany hperf.raised] at hwinner
      simp [hbefore, h.winner hwinner]
  · intro hend
    rw [← hafter, hended, Bool.or_eq_true] at hend
    cases hany : payloads.any Payload.terminal with
    | true =>
      obtain ⟨p, hp, hterminal⟩ := List.any_eq_true.mp hany
      cases p with
      | gameEnded p => exact .inr (hperf.natural p hp)
      | gameForfeited p => exact absurd hp (hforfeit p)
      | _ => cases hterminal
    | false =>
      rw [hany] at hend
      rw [raiseAll_winnerID hany hperf.raised]
      rcases h.decided (hbefore ▸ hend.resolve_right (by simp)) with hwinner | hall
      · exact .inl hwinner
      · exact .inr (allOwned_of_extends hperf.keeps hall)

theorem decided_newGame (hn : 0 < n) (hk : 0 < roster.length) {now : Time} {gameID : Option ℤ}
    (hnew : Game.newGame now gameID n roster = some g) :
    Decided roster n g (emptyBoard n hk) := by
  have htracks := tracks_newGame hn hk hnew
  rw [newGame_eq] at hnew
  obtain ⟨grid, hgrid, rfl⟩ := Option.map_eq_some_iff.mp hnew
  refine ⟨htracks, ?_, by simp, by simp [emptyBoard]⟩
  rw [makeEmptyGrid, if_neg (by omega)] at hgrid
  obtain rfl := Option.some.inj hgrid
  simp [List.eq_replicate_iff]

theorem gameForfeited_notMem_movePayloads (pos : BoardPosition n roster.length) (c : Cell n)
    (s : Side) (winnerID : Option ℤ) (p : GameForfeitedPayload) :
    .gameForfeited p ∉ movePayloads pos c s winnerID := by
  unfold movePayloads
  intro hp
  simp only [List.mem_append, List.mem_cons, List.mem_map] at hp
  split_ifs at hp <;> simp at hp

theorem Decided.step (h : Decided roster n g pos) (hrivals : Rivals roster)
    (hstep : Step g g') : ∃ pos', Decided roster n g' pos' := by
  cases hstep with
  | @applyMove now move result hmove =>
    rcases h.applyMove_cases hmove with ⟨c, s, _, winnerID, -, -, hperf⟩ | ⟨rfl, -⟩
    · exact ⟨_, h.of_performs hperf (gameForfeited_notMem_movePayloads pos c s winnerID)⟩
    · exact ⟨pos, h⟩
  | @passTurnOnTimeout now result hpass =>
    rcases h.passTurnOnTimeout_cases hpass with ⟨_, -, -, hperf⟩ | ⟨-, rfl, -⟩
    · exact ⟨_, h.of_performs hperf (by simp)⟩
    · exact ⟨pos, h⟩
  | @forfeit now playerID hforfeit =>
    obtain ⟨g₁, winnerID, heq, hperf⟩ := h.performs_gameForfeited playerID now
    obtain rfl := Option.some.inj (heq.symm.trans hforfeit)
    have hwinner := hrivals.forfeit_winnerID h.toTracks hforfeit
    have hrows := raiseAll_rowLengths (gameCreated_notMem hperf.denotes) hperf.raised
    exact ⟨_, hperf.tracks, hrows.trans h.rows, fun _ => rfl, fun _ => .inl hwinner⟩

theorem Decided.steps (h : Decided roster n g pos) (hrivals : Rivals roster)
    (hsteps : Steps g g') : ∃ pos', Decided roster n g' pos' := by
  induction hsteps with
  | refl => exact ⟨pos, h⟩
  | tail _ hstep ih =>
    obtain ⟨pos₁, h₁⟩ := ih
    exact h₁.step hrivals hstep

theorem steps_of_execute {c : Command} {reply : Reply} (h : g.execute c = some (g', reply)) :
    Steps g g' := by
  cases c with
  | applyMove now move =>
    obtain ⟨⟨g₁, result⟩, hmove, heq⟩ := Option.map_eq_some_iff.mp h
    obtain ⟨rfl, -⟩ := Prod.mk.inj heq
    exact .single (.applyMove hmove)
  | passTurnOnTimeout now =>
    obtain ⟨⟨g₁, result⟩, hpass, heq⟩ := Option.map_eq_some_iff.mp h
    obtain ⟨rfl, -⟩ := Prod.mk.inj heq
    exact .single (.passTurnOnTimeout hpass)
  | forfeit now playerID =>
    change g.guardedForfeit now playerID = _ at h
    unfold Game.guardedForfeit at h
    split at h
    · obtain ⟨rfl, -⟩ := Prod.mk.inj (Option.some.inj h)
      exact .refl
    · obtain ⟨g₁, hforfeit, heq⟩ := Option.map_eq_some_iff.mp h
      obtain ⟨rfl, -⟩ := Prod.mk.inj heq
      exact .single (.forfeit hforfeit)

/-- Commands on the stored events keep them those of a game that takes the same steps. -/
theorem Stored.storedRun {gameID : ℤ} {rows rows' : List EventRow} (hs : Stored gameID g rows)
    (db : Database) {commands : List Command}
    (hrun : storedRun db gameID commands rows = some rows') :
    ∃ g', Steps g g' ∧ Stored gameID g' rows' := by
  induction commands generalizing g rows with
  | nil =>
    obtain rfl := Option.some.inj hrun
    exact ⟨g, .refl, hs⟩
  | cons c commands ih =>
    obtain ⟨rows₁, hfirst, hrest⟩ := Option.bind_eq_some_iff.mp hrun
    obtain ⟨⟨rows₂, outcome⟩, hstored, rfl⟩ := Option.map_eq_some_iff.mp hfirst
    have hrel := lockstep_stored db gameID c g rows hs
    rw [hstored] at hrel
    obtain ⟨⟨g₁, outcome₁⟩, hlive, hs₁, -⟩ := exists_of_rel_of_some hrel
    obtain ⟨⟨g₂, reply⟩, hexec, heq⟩ := Option.map_eq_some_iff.mp hlive
    obtain ⟨rfl, -⟩ := Prod.mk.inj heq
    obtain ⟨g', hsteps, hs'⟩ := ih hs₁ hrest
    exact ⟨g', (steps_of_execute hexec).trans hsteps, hs'⟩

theorem Game.SameView.isGameFinished (hsame : SameView g h) (stamp : Time → String) :
    isGameFinished (some (g.marshal stamp)) = isGameFinished (some (h.marshal stamp)) := by
  have hwinner : g.winnerID = h.winnerID := congrArg View.winnerID hsame
  have hgrid : g.grid = h.grid := congrArg View.grid hsame
  rw [isGameFinished_marshal, isGameFinished_marshal, Game.fullyOwned, Game.fullyOwned, hwinner,
    hgrid]

/-- The browser takes a game for finished exactly when its end is recorded: in every game that
moves, passes and forfeits by any id make of a new one, and in every game that is loaded from
the rows such commands leave. -/
theorem browser_sees_end (hn : 0 < n) (hrivals : Rivals roster) {now : Time} {tempID : Option ℤ}
    (hnew : Game.newGame now tempID n roster = some g) (stamp : Time → String) :
    (∀ g', Steps g g' → isGameFinished (some (g'.marshal stamp)) = some g'.hasEnded) ∧
    ∀ (db : Database) gameID commands rows events g',
      storedRun db gameID commands (db.createdRows gameID g) = some rows →
      db.loadEvents gameID rows = .ok events → Game.loadFromEvents events = some g' →
      isGameFinished (some (g'.marshal stamp)) = some g'.hasEnded := by
  have hdecided := decided_newGame hn (by have := hrivals.two; omega) hnew
  constructor
  · rintro g' hsteps
    obtain ⟨pos, hpos⟩ := hdecided.steps hrivals hsteps
    exact hpos.isGameFinished stamp
  · rintro db gameID commands rows events g' hrun hload hfold
    -- the rows are those of a game that was made without the table
    have hcreated : Decided roster n (Game.clearEvents { g with gameID := some gameID }) _ :=
      ⟨⟨⟨hdecided.boardSize, hdecided.turn, hdecided.ended, hdecided.box, hdecided.length,
        hdecided.player⟩, hdecided.sound, hdecided.playable⟩, hdecided.rows, hdecided.winner,
        hdecided.decided⟩
    obtain ⟨h, hsteps, hs⟩ := (stored_createdRows db hnew gameID).storedRun db hrun
    obtain ⟨pos, hpos⟩ := hcreated.steps hrivals hsteps
    obtain ⟨es, h', hload', hfold', hr⟩ := hs.loadEvents db
    obtain rfl := Except.ok.inj (hload.symm.trans hload')
    obtain rfl := Option.some.inj (hfold.symm.trans hfold')
    have hended : h.hasEnded = g'.hasEnded := congrArg View.ended hr.sameView
    rw [← hr.sameView.isGameFinished stamp, hpos.isGameFinished stamp, hended]

/-- The last edge of a duel, which ends it. -/
theorem browser_sees_end_duel : ∃ g result,
    lastEdge.applyMove 4 ⟨1, 0, 0, .left⟩ = some (g, .ok result) ∧ result.gameOver = true ∧
      isGameFinished (some (lastEdge.marshal toString)) = some false ∧
      isGameFinished (some (g.marshal toString)) = some true := by
  obtain ⟨now, tempID, start, hnew, hsteps⟩ := reachable_lastEdge
  have hrivals : Rivals duel := ⟨by decide, by decide, by decide, by decide⟩
  have hsees := (browser_sees_end (by decide) hrivals hnew toString).1
  obtain ⟨⟨g, outcome⟩, hmove, houtcome⟩ := Option.map_eq_some_iff.mp
    (show (lastEdge.applyMove 4 ⟨1, 0, 0, .left⟩).map (fun r => (r.2, r.1.hasEnded)) = some
      (.ok ⟨[⟨0, 0, true, true, true, true, none⟩], 1, true, some 8⟩, true) by decide)
  obtain ⟨rfl, hended⟩ := Prod.mk.inj houtcome
  refine ⟨g, _, hmove, rfl, ?_, ?_⟩
  · rw [hsees lastEdge hsteps]
    decide
  · rw [hsees g (hsteps.tail (.applyMove hmove)), hended]

end DotsAndBoxes
