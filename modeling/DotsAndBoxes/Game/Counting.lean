import DotsAndBoxes.Game.Runs

/-! # Counting segments

Every accepted move claims one free segment, and nothing else claims any. Every segment
borders a box, so the boxes are all owned exactly when the segments are all claimed. A game
that nobody forfeits therefore ends with its last segment, and not before.
-/

namespace DotsAndBoxes

open Slices Enclosure

variable {n m : ℕ} {roster : List Player} {g g' : Game} {pos : BoardPosition n roster.length}

/-- The segments that are taken, seen from any box they border. -/
def Game.claimed (g : Game) (n : ℕ) : Finset (Segment n) :=
  Finset.univ.filter fun seg => ∃ (c : Cell n) (s : Side), Segment.of c s = seg ∧
    g.isEdgeAvailable c.1.val c.2.val s.edge = some false

/-- A run of moves and passes from a new game, with the number of accepted moves. -/
inductive Plays (roster : List Player) (n : ℕ) : ℕ → Game → Prop where
  | new {now : Time} {gameID : Option ℤ} {g : Game} :
      Game.newGame now gameID n roster = some g → Plays roster n 0 g
  | accepted {m : ℕ} {g g' : Game} {now : Time} {move : Move} {result : MoveResult} :
      Plays roster n m g → g.applyMove now move = some (g', .ok result) →
      Plays roster n (m + 1) g'
  | rejected {m : ℕ} {g g' : Game} {now : Time} {move : Move} {err : MoveError} :
      Plays roster n m g → g.applyMove now move = some (g', .error err) → Plays roster n m g'
  | pass {m : ℕ} {g g' : Game} {now : Time} {result : Except MoveError MoveResult} :
      Plays roster n m g → g.passTurnOnTimeout now = some (g', result) → Plays roster n m g'

theorem Represents.claimed_eq (h : Represents roster n g pos) : g.claimed n = pos.claimed := by
  ext seg
  simp only [Game.claimed, Finset.mem_filter, Finset.mem_univ, true_and, isEdgeAvailable_side h,
    Option.some.injEq, decide_eq_false_iff_not, not_not]
  constructor
  · rintro ⟨c, s, rfl, hclaimed⟩
    exact hclaimed
  · intro hclaimed
    obtain ⟨c, s, rfl⟩ := exists_side seg
    exact ⟨c, s, rfl, hclaimed⟩

theorem Tracks.allOwned_iff (h : Tracks roster n g pos) :
    allOwned pos = true ↔ pos.claimed = Finset.univ := by
  rw [allOwned, decide_eq_true_iff, Finset.eq_univ_iff_forall]
  constructor
  · intro howned seg
    obtain ⟨c, s, rfl⟩ := exists_side seg
    exact border_subset_iff.mp ((h.sound c).mp (howned c)) s
  · intro hall c
    exact (h.sound c).mpr fun seg _ => hall seg

theorem Tracks.exists_free (h : Tracks roster n g pos) (hrun : pos.ended = false) :
    ∃ seg, seg ∉ pos.claimed := by
  by_contra hall
  push Not at hall
  have howned : allOwned pos = true := h.allOwned_iff.mpr (Finset.eq_univ_of_forall hall)
  rw [h.playable hrun] at howned
  cases howned

theorem Tracks.accepted (h : Tracks roster n g pos) {now : Time} {move : Move}
    {result : MoveResult} (hmove : g.applyMove now move = some (g', .ok result)) :
    ∃ c s, Allowed pos move c s ∧
      Tracks roster n g' ((rules n roster.length).play pos (Segment.of c s)) := by
  rcases h.applyMove_cases hmove with ⟨c, s, _, _, ha, -, hperf⟩ | ⟨-, err, herr⟩
  · have hcap (d : Cell n) := mem_completedCells_iff h.sound (c := c) (d := d) (s := s)
    have htracks := hperf.tracks
    rw [Rules.applyAll_turnActs ha.running hcap] at htracks
    exact ⟨c, s, ha, htracks⟩
  · cases herr

theorem Tracks.last_of_ended (h : Tracks roster n g pos) {now : Time} {move : Move}
    {result : MoveResult} (hmove : g.applyMove now move = some (g', .ok result))
    (hended : g'.hasEnded = true) : (g.claimed n).card + 1 = 2 * n * (n + 1) := by
  obtain ⟨c, s, ha, htracks⟩ := h.accepted hmove
  have howned : allOwned ((rules n roster.length).play pos (Segment.of c s)) = true := by
    rw [allOwned, decide_eq_true_iff]
    exact Rules.ended_play_iff.mp (htracks.ended.symm.trans hended)
  have hall : insert (Segment.of c s) pos.claimed = Finset.univ := htracks.allOwned_iff.mp howned
  rw [h.claimed_eq, ← Finset.card_insert_of_notMem ha.free, hall, Finset.card_univ, card_segment]

/-- A game that nobody forfeits: it shows a position with a segment for each accepted move, and
has ended only when every box is owned. -/
structure Counts (roster : List Player) (n m : ℕ) (g : Game)
    (pos : BoardPosition n roster.length) : Prop extends Tracks roster n g pos where
  card : pos.claimed.card = m
  natural : pos.ended = true → allOwned pos = true

theorem counts_newGame (hn : 0 < n) (hk : 0 < roster.length) {now : Time} {gameID : Option ℤ}
    (h : Game.newGame now gameID n roster = some g) :
    Counts roster n 0 g (emptyBoard n hk) where
  toTracks := tracks_newGame hn hk h
  card := Finset.card_empty
  natural := by simp [emptyBoard]

theorem Counts.accepted (h : Counts roster n m g pos) {now : Time} {move : Move}
    {result : MoveResult} (hmove : g.applyMove now move = some (g', .ok result)) :
    ∃ pos', Counts roster n (m + 1) g' pos' := by
  obtain ⟨c, s, ha, htracks⟩ := h.toTracks.accepted hmove
  refine ⟨_, htracks, ?_, ?_⟩
  · rw [Rules.play, Finset.card_insert_of_notMem ha.free, h.card]
  · intro hended
    rw [allOwned, decide_eq_true_iff]
    exact Rules.ended_play_iff.mp hended

theorem Counts.pass (h : Counts roster n m g pos) {now : Time}
    {result : Except MoveError MoveResult}
    (hpass : g.passTurnOnTimeout now = some (g', result)) :
    ∃ pos', Counts roster n m g' pos' ∧ pos'.ended = pos.ended := by
  rcases h.passTurnOnTimeout_cases hpass with ⟨_, hrun, -, hperf⟩ | ⟨-, rfl, -⟩
  · refine ⟨_, ⟨hperf.tracks, h.card, ?_⟩, rfl⟩
    intro hfinished
    exact absurd (hrun.symm.trans hfinished) (by decide)
  · exact ⟨pos, h, rfl⟩

theorem Plays.counts (hn : 0 < n) (hk : 0 < roster.length) (h : Plays roster n m g) :
    ∃ pos, Counts roster n m g pos := by
  induction h with
  | new hnew => exact ⟨_, counts_newGame hn hk hnew⟩
  | accepted _ hmove ih =>
    obtain ⟨pos, hpos⟩ := ih
    exact hpos.accepted hmove
  | @rejected m g g' now move err _ hmove ih =>
    obtain ⟨pos, hpos⟩ := ih
    rcases hpos.applyMove_cases hmove with ⟨_, _, _, _, -, hok, -⟩ | ⟨rfl, -⟩
    · cases hok
    · exact ⟨pos, hpos⟩
  | pass _ hpass ih =>
    obtain ⟨pos, hpos⟩ := ih
    obtain ⟨pos', hpos', -⟩ := hpos.pass hpass
    exact ⟨pos', hpos'⟩

theorem Counts.ended_iff (h : Counts roster n m g pos) :
    pos.ended = true ↔ m = 2 * n * (n + 1) := by
  rw [← card_segment n, ← h.card, Finset.card_eq_iff_eq_univ, ← h.toTracks.allOwned_iff]
  constructor
  · exact h.natural
  · intro howned
    by_contra hrun
    rw [h.playable (Bool.eq_false_of_not_eq_true hrun)] at howned
    cases howned

theorem Counts.completes (h : Counts roster n m g pos) (hlast : m + 1 = 2 * n * (n + 1))
    {now : Time} {move : Move} {result : MoveResult}
    (hmove : g.applyMove now move = some (g', .ok result)) : result.completedBoxes ≠ [] := by
  obtain ⟨c, s, ha, -⟩ := h.toTracks.accepted hmove
  obtain ⟨g₁, r₁, _, heq, -, -, hboxes⟩ := applyMove_of_allowed h.toRepresents h.sound ha now
  obtain ⟨rfl, hr⟩ := Prod.mk.inj (Option.some.inj (heq.symm.trans hmove))
  obtain rfl := Except.ok.inj hr
  have hall : insert (Segment.of c s) pos.claimed = Finset.univ := by
    rw [← Finset.card_eq_iff_eq_univ, Finset.card_insert_of_notMem ha.free, h.card, hlast,
      card_segment]
  have hcaptured : c ∈ (rules n roster.length).captures pos (Segment.of c s) := by
    rw [Rules.mem_captures]
    constructor
    · rw [hall]
      exact Finset.subset_univ _
    · rw [← Option.not_isSome_iff_eq_none, h.sound c]
      exact fun hborder => ha.free (border_subset_iff.mp hborder s)
  rw [hboxes]
  exact List.ne_nil_of_mem (List.mem_map_of_mem ((mem_completedCells_iff h.sound).mpr hcaptured))

/-- In a game that nobody forfeits, the accepted moves are as many as the claimed segments, and
the game has ended when they are all segments of the board. Until then some move of the current
seat is accepted, the last one completes a box, and a timeout ends nothing. -/
theorem moves_count_segments (hn : 0 < n) (hk : 0 < roster.length) (h : Plays roster n m g) :
    m = (g.claimed n).card ∧ m ≤ 2 * n * (n + 1) ∧
    (g.hasEnded = true ↔ m = 2 * n * (n + 1)) ∧
    (g.hasEnded = false → ∀ now, ∃ move g' result, move.turnOrder = g.currentTurn ∧
      g.applyMove now move = some (g', .ok result)) ∧
    (m + 1 = 2 * n * (n + 1) → ∀ now move g' result,
      g.applyMove now move = some (g', .ok result) → result.completedBoxes ≠ []) ∧
    (∀ now g' result, g.passTurnOnTimeout now = some (g', result) →
      g'.hasEnded = g.hasEnded) := by
  obtain ⟨pos, hpos⟩ := h.counts hn hk
  have hended : g.hasEnded = pos.ended := hpos.ended
  refine ⟨?_, ?_, ?_, ?_, ?_, ?_⟩
  · rw [hpos.claimed_eq, hpos.card]
  · rw [← hpos.card, ← card_segment n]
    exact Finset.card_le_univ _
  · rw [hended]
    exact hpos.ended_iff
  · intro hrun now
    rw [hended] at hrun
    obtain ⟨seg, hfree⟩ := hpos.toTracks.exists_free hrun
    obtain ⟨c, s, rfl⟩ := exists_side seg
    have ha : Allowed pos ⟨pos.turn.val, c.1.val, c.2.val, s.edge⟩ c s :=
      ⟨⟨rfl, rfl, rfl⟩, rfl, hfree, hrun⟩
    obtain ⟨g', result, _, _, hmove, -⟩ := hpos.toTracks.applyMove ha now
    exact ⟨_, g', result, hpos.turn.symm, hmove⟩
  · intro hlast now move g' result hmove
    exact hpos.completes hlast hmove
  · intro now g' result hpass
    obtain ⟨pos', hpos', hsame⟩ := hpos.pass hpass
    have hended' : g'.hasEnded = pos'.ended := hpos'.ended
    rw [hended, hended', hsame]

theorem moves_count_segments_duel : (duelOpening.claimed 2).card = 1 ∧
    duelOpening.hasEnded = false := by
  have hmove : duelStart.applyMove 1 ⟨0, 0, 0, .bottom⟩ =
      some (duelOpening, .ok ⟨[], 1, false, none⟩) := by decide
  have hnew : Game.newGame 0 (some 1) (2 : ℕ) duel = some duelStart := by decide
  have hplays : Plays duel 2 1 duelOpening := .accepted (.new hnew) hmove
  obtain ⟨hcard, -, hended, -⟩ := moves_count_segments (by decide) (by decide) hplays
  exact ⟨hcard.symm, Bool.eq_false_of_not_eq_true fun h => absurd (hended.mp h) (by decide)⟩

end DotsAndBoxes
