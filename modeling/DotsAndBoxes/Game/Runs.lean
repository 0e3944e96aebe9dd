import DotsAndBoxes.Game.RuleBook
import Mathlib.Logic.Relation

/-! # Runs of a game

A run applies moves, timeout passes and forfeits to a new game, in any order and
with any arguments. Every game of a run tracks a sound position of the physical
board, and along the run claimed segments and owners are kept.
-/

namespace DotsAndBoxes

open Slices Enclosure

variable {n : ℕ} {roster : List Player} {g g' : Game} {pos : BoardPosition n roster.length}

/-- One command on a game, with any arguments. A forfeit is not guarded. -/
inductive Step : Game → Game → Prop where
  | applyMove {g g' : Game} {now : Time} {move : Move} {result : Except MoveError MoveResult} :
      g.applyMove now move = some (g', result) → Step g g'
  | passTurnOnTimeout {g g' : Game} {now : Time} {result : Except MoveError MoveResult} :
      g.passTurnOnTimeout now = some (g', result) → Step g g'
  | forfeit {g g' : Game} {now : Time} {playerID : ℤ} :
      g.forfeit now playerID = some g' → Step g g'

abbrev Steps : Game → Game → Prop := Relation.ReflTransGen Step

def Reachable (roster : List Player) (n : ℕ) (g : Game) : Prop :=
  ∃ now gameID g₀, Game.newGame now gameID n roster = some g₀ ∧ Steps g₀ g

/-- A game tracks a position: the position is sound, and an open game has a free box. -/
structure Tracks (roster : List Player) (n : ℕ) (g : Game) (pos : BoardPosition n roster.length) :
    Prop extends Represents roster n g pos where
  sound : (rules n roster.length).Sound pos
  playable : pos.ended = false → allOwned pos = false

theorem at2?_makeEmptyGrid {grid : List (List Box)} (h : Game.makeEmptyGrid n = some grid)
    (c : Cell n) : at2? grid c.1.val c.2.val = some { row := c.1.val, col := c.2.val } := by
  rw [Game.makeEmptyGrid, if_neg (by omega)] at h
  obtain rfl := Option.some.inj h
  simp [at2?]

theorem newGame_spec (hk : 0 < roster.length) (now : Time) (gameID : Option ℤ) :
    ∃ g, Game.newGame now gameID n roster = some g ∧
      Represents roster n g (emptyBoard n hk) := by
  have hgrid : ∃ grid, Game.makeEmptyGrid n = some grid :=
    ⟨_, if_neg (by omega)⟩
  obtain ⟨grid, hgrid⟩ := hgrid
  refine ⟨_, by simp [Game.newGame, Game.raise, Game.applyEvent, hgrid]; rfl, ?_⟩
  refine ⟨rfl, rfl, rfl, fun c => ?_, rfl, fun t => ?_⟩
  · exact at2?_makeEmptyGrid hgrid c
  · simp [seatView, held, emptyBoard, Game.recordEvent, Game.incrementVersion]

theorem tracks_newGame (hn : 0 < n) (hk : 0 < roster.length) {now : Time} {gameID : Option ℤ}
    (h : Game.newGame now gameID n roster = some g) : Tracks roster n g (emptyBoard n hk) := by
  obtain ⟨g₀, hg₀, hrep⟩ := newGame_spec (n := n) hk now gameID
  obtain rfl := Option.some.inj (h.symm.trans hg₀)
  refine ⟨hrep, sound_emptyBoard n hk, fun _ => ?_⟩
  have hnone : ¬ ∀ c : Cell n, ((emptyBoard n hk).owner c).isSome := fun hall =>
    absurd (hall (⟨0, hn⟩, ⟨0, hn⟩)) (by simp [emptyBoard])
  exact decide_eq_false hnone

theorem Tracks.play (h : Tracks roster n g pos) {s : Segment n}
    (hrep : Represents roster n g' ((rules n roster.length).play pos s)) :
    Tracks roster n g' ((rules n roster.length).play pos s) := by
  refine ⟨hrep, h.sound.play s, fun hrun => decide_eq_false fun hall => ?_⟩
  rw [Rules.ended_play_iff.mpr hall] at hrun
  cases hrun

/-- A game becomes another by raising payloads that perform acts on its position. They
take nothing away, go by the rules while play goes on, and record the natural end of the
game only when every box is owned. -/
structure Performs (roster : List Player) (n : ℕ) (now : Time) (g g' : Game)
    (pos : BoardPosition n roster.length) (payloads : List Payload)
    (acts : List (Act (Segment n) (Cell n) (Fin roster.length))) : Prop where
  raised : g.raiseAll now payloads = some g'
  denotes : List.Forall₂ (Denotes n roster.length) payloads acts
  tracks : Tracks roster n g' (pos.applyAll acts)
  keeps : pos.Extends (pos.applyAll acts)
  enabled : pos.ended = false → pos.EnabledAll acts
  natural : ∀ p, .gameEnded p ∈ payloads → allOwned (pos.applyAll acts) = true

theorem Tracks.performs_nil (h : Tracks roster n g pos) (now : Time) :
    Performs roster n now g g pos [] [] where
  raised := rfl
  denotes := .nil
  tracks := h
  keeps := .refl pos
  enabled _ := trivial
  natural _ hp := by cases hp

theorem exists_act_of_mem {payloads : List Payload}
    {acts : List (Act (Segment n) (Cell n) (Fin roster.length))}
    (h : List.Forall₂ (Denotes n roster.length) payloads acts) {p : Payload}
    (hp : p ∈ payloads) : ∃ act ∈ acts, Denotes n roster.length p act := by
  induction h with
  | nil => cases hp
  | cons hd _ ih =>
    rcases List.mem_cons.mp hp with rfl | hp
    · exact ⟨_, List.mem_cons_self, hd⟩
    · obtain ⟨act, hact, hden⟩ := ih hp
      exact ⟨act, List.mem_cons_of_mem _ hact, hden⟩

theorem Tracks.performs_movePayloads (h : Tracks roster n g pos) {move : Move} {c : Cell n}
    {s : Side} (ha : Allowed pos move c s) (now : Time) :
    ∃ g' result winnerID, g.applyMove now move = some (g', .ok result) ∧
      Performs roster n now g g' pos (movePayloads pos c s winnerID)
        ((rules n roster.length).turnActs pos (Segment.of c s)
          (completedCells (pos.apply (.mark (Segment.of c s))) c s)) := by
  obtain ⟨g', result, winnerID, hmove, hraise, hrep, -⟩ :=
    applyMove_of_allowed h.toRepresents h.sound ha now
  have hden := denotes_movePayloads pos c s winnerID
  have hcap (d : Cell n) := mem_completedCells_iff h.sound (c := c) (d := d) (s := s)
  have heffect := Rules.applyAll_turnActs ha.running hcap
  refine ⟨g', result, winnerID, hmove, hraise, hden, ?_, ?_, fun _ => ?_, ?_⟩
  · rw [heffect]; exact h.play hrep
  · rw [heffect]; exact Rules.extends_play _ _ _
  · exact Rules.enabledAll_turnActs (p := pos.turn) ⟨rfl, ha.free, ha.running⟩
      (nodup_completedCells _ c s) hcap
  · intro p hp
    obtain ⟨act, hfinish, hact⟩ := exists_act_of_mem hden hp
    cases hact
    rw [heffect, allOwned, decide_eq_true_iff, ← Rules.ended_play_iff]
    by_contra hrun
    simp [Rules.turnActs, Rules.moveActs, hrun] at hfinish

theorem Tracks.applyMove (h : Tracks roster n g pos) {move : Move} {c : Cell n} {s : Side}
    (ha : Allowed pos move c s) (now : Time) :
    ∃ g' result payloads acts, g.applyMove now move = some (g', .ok result) ∧
      pos.applyAll acts = (rules n roster.length).play pos (Segment.of c s) ∧
      Performs roster n now g g' pos payloads acts := by
  obtain ⟨g', result, _, hmove, hperf⟩ := h.performs_movePayloads ha now
  have hcap (d : Cell n) := mem_completedCells_iff h.sound (c := c) (d := d) (s := s)
  exact ⟨g', result, _, _, hmove, Rules.applyAll_turnActs ha.running hcap, hperf⟩

theorem Tracks.performs_turnPassed (h : Tracks roster n g pos) (hrun : pos.ended = false)
    (now : Time) : ∃ g' result, g.passTurnOnTimeout now = some (g', .ok result) ∧
      Performs roster n now g g' pos [.turnPassed ⟨(nextSeat pos.turn).val⟩]
        [.pass (nextSeat pos.turn)] := by
  obtain ⟨g', hpass, hraise, hrep⟩ :=
    passTurnOnTimeout_of_running h.toRepresents hrun (h.playable hrun) now
  refine ⟨g', _, hpass, hraise, .cons (.turnPassed _) .nil, ⟨hrep, h.sound, h.playable⟩, ?_,
    fun _ => ⟨hrun, trivial⟩, ?_⟩
  · exact ⟨Finset.Subset.refl _, fun _ _ ho => ho⟩
  · simp

theorem Tracks.performs_gameForfeited (h : Tracks roster n g pos) (playerID : ℤ) (now : Time) :
    ∃ g' winnerID, g.forfeit now playerID = some g' ∧
      Performs roster n now g g' pos [.gameForfeited ⟨playerID, winnerID⟩] [.finish] := by
  obtain ⟨g', winnerID, hforfeit, hraise, hrep⟩ := forfeit_spec h.toRepresents playerID now
  refine ⟨g', winnerID, hforfeit, hraise, .cons (.gameForfeited _ _) .nil,
    ⟨hrep, h.sound, by simp [Position.apply]⟩, ?_, fun hrun => ⟨hrun, trivial⟩, ?_⟩
  · exact ⟨Finset.Subset.refl _, fun _ _ ho => ho⟩
  · simp

theorem Tracks.forfeit (h : Tracks roster n g pos) (playerID : ℤ) (now : Time) :
    ∃ g' payloads, g.forfeit now playerID = some g' ∧
      Performs roster n now g g' pos payloads [.finish] := by
  obtain ⟨g', winnerID, hforfeit, hperf⟩ := h.performs_gameForfeited playerID now
  exact ⟨g', _, hforfeit, hperf⟩

/-- A move that is allowed performs a turn of the rule book, and any other changes nothing. -/
theorem Tracks.applyMove_cases (h : Tracks roster n g pos) {now : Time} {move : Move}
    {result : Except MoveError MoveResult} (hmove : g.applyMove now move = some (g', result)) :
    (∃ c s r winnerID, Allowed pos move c s ∧ result = .ok r ∧
      Performs roster n now g g' pos (movePayloads pos c s winnerID)
        ((rules n roster.length).turnActs pos (Segment.of c s)
          (completedCells (pos.apply (.mark (Segment.of c s))) c s))) ∨
    g' = g ∧ ∃ err, result = .error err := by
  by_cases hallowed : ∃ (c : Cell n) (s : Side), Allowed pos move c s
  · obtain ⟨c, s, ha⟩ := hallowed
    obtain ⟨g₁, r, winnerID, heq, hperf⟩ := h.performs_movePayloads ha now
    obtain ⟨rfl, hr⟩ := Prod.mk.inj (Option.some.inj (heq.symm.trans hmove))
    exact .inl ⟨c, s, r, winnerID, ha, hr.symm, hperf⟩
  · obtain ⟨err, heq⟩ := applyMove_of_not_allowed h.toRepresents
      (fun c s ha => hallowed ⟨c, s, ha⟩) now
    obtain ⟨rfl, hr⟩ := Prod.mk.inj (Option.some.inj (heq.symm.trans hmove))
    exact .inr ⟨rfl, err, hr.symm⟩

theorem Tracks.passTurnOnTimeout_cases (h : Tracks roster n g pos) {now : Time}
    {result : Except MoveError MoveResult} (hpass : g.passTurnOnTimeout now = some (g', result)) :
    (∃ r, pos.ended = false ∧ result = .ok r ∧
      Performs roster n now g g' pos [.turnPassed ⟨(nextSeat pos.turn).val⟩]
        [.pass (nextSeat pos.turn)]) ∨
    pos.ended = true ∧ g' = g ∧ result = .error .gameEnded := by
  cases hended : pos.ended with
  | true =>
    have heq := passTurnOnTimeout_of_ended h.toRepresents hended now
    obtain ⟨rfl, hr⟩ := Prod.mk.inj (Option.some.inj (heq.symm.trans hpass))
    exact .inr ⟨rfl, rfl, hr.symm⟩
  | false =>
    obtain ⟨g₁, r, heq, hperf⟩ := h.performs_turnPassed hended now
    obtain ⟨rfl, hr⟩ := Prod.mk.inj (Option.some.inj (heq.symm.trans hpass))
    exact .inl ⟨r, rfl, hr.symm, hperf⟩

theorem Tracks.step (h : Tracks roster n g pos) (hstep : Step g g') :
    ∃ now payloads acts, Performs roster n now g g' pos payloads acts := by
  cases hstep with
  | @applyMove now move result hmove =>
    rcases h.applyMove_cases hmove with ⟨_, _, _, _, -, -, hperf⟩ | ⟨rfl, -⟩
    · exact ⟨now, _, _, hperf⟩
    · exact ⟨now, [], [], h.performs_nil now⟩
  | @passTurnOnTimeout now result hpass =>
    rcases h.passTurnOnTimeout_cases hpass with ⟨_, -, -, hperf⟩ | ⟨-, rfl, -⟩
    · exact ⟨now, _, _, hperf⟩
    · exact ⟨now, [], [], h.performs_nil now⟩
  | @forfeit now playerID hforfeit =>
    obtain ⟨g₁, payloads, heq, hperf⟩ := h.forfeit playerID now
    obtain rfl := Option.some.inj (heq.symm.trans hforfeit)
    exact ⟨now, payloads, _, hperf⟩

theorem Tracks.steps (h : Tracks roster n g pos) (hsteps : Steps g g') :
    ∃ pos', Tracks roster n g' pos' ∧ pos.Extends pos' := by
  induction hsteps with
  | refl => exact ⟨pos, h, .refl pos⟩
  | tail _ hstep ih =>
    obtain ⟨pos₁, h₁, hext₁⟩ := ih
    obtain ⟨_, _, _, h₂⟩ := h₁.step hstep
    exact ⟨_, h₂.tracks, hext₁.trans h₂.keeps⟩

theorem Reachable.tracks (hn : 0 < n) (hk : 0 < roster.length) (h : Reachable roster n g) :
    ∃ pos, Tracks roster n g pos := by
  obtain ⟨now, gameID, g₀, hg₀, hsteps⟩ := h
  obtain ⟨pos, hpos, -⟩ := (tracks_newGame hn hk hg₀).steps hsteps
  exact ⟨pos, hpos⟩

/-- One turn of the game on the physical board: the segment is claimed, the boxes it
completes go to the player to move, who keeps the turn if there is one, and play ends
when every box is owned. -/
structure Turn {k : ℕ} (pos : BoardPosition n k) (s : Segment n) (pos' : BoardPosition n k) :
    Prop where
  claimed : pos'.claimed = insert s pos.claimed
  owner : ∀ c, pos'.owner c =
    if (∀ t, Segment.of c t ∈ pos'.claimed) ∧ pos.owner c = none then some pos.turn
    else pos.owner c
  atMostTwo : (Finset.univ.filter fun c => pos'.owner c ≠ pos.owner c).card ≤ 2
  turn : pos'.turn.val =
    if ∃ c, pos'.owner c ≠ pos.owner c then pos.turn.val else (pos.turn.val + 1) % k
  ended : pos'.ended = true ↔ ∀ c, pos'.owner c ≠ none

theorem turn_play {k : ℕ} {pos : BoardPosition n k} (h : (rules n k).Sound pos) (s : Segment n) :
    Turn pos s ((rules n k).play pos s) := by
  have hmem (c : Cell n) : c ∈ (rules n k).captures pos s ↔
      (∀ t, Segment.of c t ∈ insert s pos.claimed) ∧ pos.owner c = none := by
    rw [Rules.mem_captures]
    exact and_congr_left fun _ => border_subset_iff
  have hchanged (c : Cell n) : ((rules n k).play pos s).owner c ≠ pos.owner c ↔
      c ∈ (rules n k).captures pos s := by
    by_cases hc : c ∈ (rules n k).captures pos s
    · simp [Rules.play, hc, (Rules.mem_captures.mp hc).2]
    · simp [Rules.play, hc]
  refine ⟨rfl, fun c => ?_, ?_, ?_, ?_⟩
  · simp only [Rules.play, hmem]
  · simp only [hchanged, Finset.filter_univ_mem]
    exact card_captures_le_two h s
  · have hsome : (∃ c, ((rules n k).play pos s).owner c ≠ pos.owner c) ↔
        (rules n k).captures pos s ≠ ∅ := by
      simp only [hchanged]
      exact Finset.nonempty_iff_ne_empty
    by_cases hnone : (rules n k).captures pos s = ∅
    · rw [if_neg (by simpa only [hsome, not_not] using hnone), Rules.play, if_pos hnone]
      rfl
    · rw [if_pos (hsome.mpr hnone), Rules.play, if_neg hnone]
  · simp [Rules.ended_play_iff, Option.isSome_iff_ne_none]

/-- The rule book accepts the move, which names the segment. -/
structure Accepts {k : ℕ} (pos : BoardPosition n k) (move : Move) (s : Segment n) : Prop where
  turn : move.turnOrder = pos.turn.val
  segment : move.segment n = some s
  free : s ∉ pos.claimed
  running : pos.ended = false

theorem exists_allowed_of_accepts {move : Move} {s : Segment n} (h : Accepts pos move s) :
    ∃ (c : Cell n) (t : Side), Allowed pos move c t ∧ Segment.of c t = s := by
  obtain ⟨c, t, hnames, rfl⟩ := Move.segment_eq_some_iff.mp h.segment
  exact ⟨c, t, ⟨hnames, h.turn, h.free, h.running⟩, rfl⟩

theorem Allowed.accepts {move : Move} {c : Cell n} {t : Side} (h : Allowed pos move c t) :
    Accepts pos move (Segment.of c t) :=
  ⟨h.turn, Move.segment_eq_some_iff.mpr ⟨c, t, h.toNames, rfl⟩, h.free, h.running⟩

/-- A move names a segment when its cell is on the board and its edge is one of the four. -/
theorem Move.exists_segment_iff {move : Move} : (∃ s, move.segment n = some s) ↔
    (0 ≤ move.row ∧ move.row < n) ∧ (0 ≤ move.col ∧ move.col < n) ∧
      move.edge ∈ [EdgeType.top, .right, .bottom, .left] := by
  have hside : (∃ s, move.edge.side? = some s) ↔
      move.edge ∈ [EdgeType.top, .right, .bottom, .left] := by
    cases move.edge <;> simp [EdgeType.side?]
  unfold Move.segment
  rw [← hside]
  split_ifs with h
  · simp [h]
  · simp only [exists_false, false_iff]
    rintro ⟨hr, hc, -⟩
    exact h ⟨hr, hc⟩

theorem applyMove_of_accepts (h : Tracks roster n g pos) {move : Move} {s : Segment n}
    (ha : Accepts pos move s) (now : Time) :
    ∃ g' result, g.applyMove now move = some (g', .ok result) ∧
      Represents roster n g' ((rules n roster.length).play pos s) := by
  obtain ⟨c, t, hallowed, rfl⟩ := exists_allowed_of_accepts ha
  obtain ⟨g', result, _, _, hmove, heffect, hperf⟩ := h.applyMove hallowed now
  exact ⟨g', result, hmove, heffect ▸ hperf.tracks.toRepresents⟩

theorem applyMove_of_not_accepts (h : Tracks roster n g pos) {move : Move}
    (ha : ∀ s, ¬ Accepts pos move s) (now : Time) :
    ∃ err, g.applyMove now move = some (g, .error err) :=
  applyMove_of_not_allowed h.toRepresents (fun _ _ hallowed => ha _ hallowed.accepts) now

/-- A game of a run shows a position of the physical board, and `applyMove` plays the rule
book on it: a move is accepted exactly when the rule book allows it, and then it plays one
turn, whichever of its two names the segment has; a rejected move changes nothing. -/
theorem applyMove_simulates_rule_book (hn : 0 < n) (hk : 0 < roster.length)
    (hg : Reachable roster n g) :
    Fintype.card (Segment n) = 2 * n * (n + 1) ∧
    ∃ pos : BoardPosition n roster.length, Represents roster n g pos ∧ ∀ now move,
      ((∃ g' result, g.applyMove now move = some (g', .ok result)) ↔
        move.turnOrder = g.currentTurn ∧
        (0 ≤ move.row ∧ move.row < n) ∧ (0 ≤ move.col ∧ move.col < n) ∧
        move.edge ∈ [EdgeType.top, .right, .bottom, .left] ∧
        (∀ s, move.segment n = some s → s ∉ pos.claimed) ∧ g.endedAt = none) ∧
      (∀ g' result, g.applyMove now move = some (g', .ok result) →
        ∃ s pos', move.segment n = some s ∧ Turn pos s pos' ∧ Represents roster n g' pos' ∧
          ∀ name : Move, name.turnOrder = move.turnOrder → name.segment n = some s →
            ∃ g'' result', g.applyMove now name = some (g'', .ok result') ∧
              Represents roster n g'' pos') ∧
      ((¬ ∃ g' result, g.applyMove now move = some (g', .ok result)) →
        ∃ err, g.applyMove now move = some (g, .error err)) := by
  obtain ⟨pos, hpos⟩ := hg.tracks hn hk
  refine ⟨card_segment n, pos, hpos.toRepresents, fun now move => ?_⟩
  have hiff : (∃ g' result, g.applyMove now move = some (g', .ok result)) ↔
      ∃ s, Accepts pos move s := by
    constructor
    · rintro ⟨g', result, hmove⟩
      by_contra hnone
      obtain ⟨err, herr⟩ := applyMove_of_not_accepts hpos (not_exists.mp hnone) now
      simp [herr] at hmove
    · rintro ⟨s, ha⟩
      obtain ⟨g', result, hmove, -⟩ := applyMove_of_accepts hpos ha now
      exact ⟨g', result, hmove⟩
  refine ⟨hiff.trans ?_, fun g' result hmove => ?_, fun hnone => ?_⟩
  · have hended : g.endedAt = none ↔ pos.ended = false := by
      rw [← hpos.ended, Option.isSome_eq_false_iff, Option.isNone_iff_eq_none]
    rw [hpos.turn, hended]
    constructor
    · rintro ⟨s, ha⟩
      obtain ⟨hrow, hcol, hedge⟩ := Move.exists_segment_iff.mp ⟨s, ha.segment⟩
      refine ⟨ha.turn, hrow, hcol, hedge, fun t ht => ?_, ha.running⟩
      obtain rfl := Option.some.inj (ha.segment.symm.trans ht)
      exact ha.free
    · rintro ⟨hturn, hrow, hcol, hedge, hfree, hrun⟩
      obtain ⟨s, hs⟩ := Move.exists_segment_iff.mpr ⟨hrow, hcol, hedge⟩
      exact ⟨s, hturn, hs, hfree s hs, hrun⟩
  · obtain ⟨s, ha⟩ := hiff.mp ⟨g', result, hmove⟩
    obtain ⟨g₁, r₁, hmove₁, h₁⟩ := applyMove_of_accepts hpos ha now
    obtain ⟨rfl, -⟩ := Prod.mk.inj (Option.some.inj (hmove₁.symm.trans hmove))
    exact ⟨s, _, ha.segment, turn_play hpos.sound s, h₁, fun name hturn hs =>
      applyMove_of_accepts hpos ⟨hturn.trans ha.turn, hs, ha.free, ha.running⟩ now⟩
  · exact applyMove_of_not_accepts hpos (fun s ha => hnone (hiff.mpr ⟨s, ha⟩)) now

def duel : List Player :=
  [⟨some 7, "ann", 0, false, 0⟩, ⟨some 8, "bob", 1, false, 0⟩]

def duelStart : Game := (Game.newGame 0 (some 1) 2 duel).getD {}

def duelOpening : Game := ((duelStart.applyMove 1 ⟨0, 0, 0, .bottom⟩).map Prod.fst).getD {}

theorem reachable_duelOpening : Reachable duel 2 duelOpening := by
  have hmove : duelStart.applyMove 1 ⟨0, 0, 0, .bottom⟩ =
      some (duelOpening, .ok ⟨[], 1, false, none⟩) := by decide
  exact ⟨0, some 1, duelStart, by decide, .single (.applyMove hmove)⟩

theorem applyMove_simulates_rule_book_duel :
    Fintype.card (Segment 2) = 12 ∧ ∃ pos, Represents duel 2 duelOpening pos := by
  obtain ⟨hcard, pos, hpos, -⟩ :=
    applyMove_simulates_rule_book (by decide) (by decide) reachable_duelOpening
  exact ⟨hcard, pos, hpos⟩

end DotsAndBoxes
