import DotsAndBoxes.Bot.Choice
import DotsAndBoxes.Game.Counting
import DotsAndBoxes.Library.Chains

/-! # The look-ahead of a bot

A bot plays out captures on a copy of the grid. It looks for closed boxes all over the board,
where the game looks at the two boxes beside the segment; since no closed box is without an
owner before a move, both find the same boxes. So the copy follows the game through any
captures of the player to move.
-/

namespace DotsAndBoxes

open Slices Enclosure

def duplicateSimGrid (sim : List (List Box)) (n : ℤ) : Exec (List (List Box)) :=
  (List.range n.toNat).mapM fun (r : ℕ) => (at? sim r).map fun boxes =>
    boxes.take n.toNat ++ List.replicate (n.toNat - boxes.length) { row := 0, col := 0 }

def isEdgeAvailableSim (grid : List (List Box)) (boardSize row col : ℤ) (edge : EdgeType) :
    Exec Bool :=
  if row < 0 ∨ row ≥ boardSize ∨ col < 0 ∨ col ≥ boardSize then some false
  else do
    let box ← at2? grid row col
    match edge with
    | .top => return !box.topEdge
    | .right => return !box.rightEdge
    | .bottom => return !box.bottomEdge
    | .left => return !box.leftEdge
    | .other _ => return false

/-- The box has no owner in the simulation, and is closed in the grid. -/
def newlyCompletedSim (sim grid : List (List Box)) (row col : ℤ) : Exec Bool := do
  let box ← at2? sim row col
  if box.ownerTurn.isSome then return false
  else
    let b ← at2? grid row col
    return Game.isBoxComplete b

/-- How many boxes that have no owner in the simulation are closed once the edge is set. -/
def countNewCompletionsFromSim (g : Game) (sim : List (List Box)) (row col : ℤ)
    (edge : EdgeType) : Exec ℕ := do
  let grid ← duplicateSimGrid sim g.boardSize
  let grid ← applyEdgeToSimGrid grid g.boardSize row col edge
  let completed ← (positions g.boardSize).mapM fun p => newlyCompletedSim sim grid p.1 p.2
  return completed.count true

/-- Give a closed box that has no owner to a seat. -/
def assignOwner (ownerTurn : ℤ) (sim : List (List Box)) (p : ℤ × ℤ) : Exec (List (List Box)) := do
  let b ← at2? sim p.1 p.2
  if b.ownerTurn.isSome || !Game.isBoxComplete b then return sim
  else modify2? sim p.1 p.2 fun box => { box with ownerTurn := some ownerTurn }

def assignOwnersForCompletedBoxes (sim : List (List Box)) (n ownerTurn : ℤ) :
    Exec (List (List Box)) :=
  (positions n).foldlM (assignOwner ownerTurn) sim

/-- A grid shows the claimed segments and the owners of a position. -/
def Shows {n k : ℕ} (grid : List (List Box)) (pos : BoardPosition n k) : Prop :=
  ∀ c : Cell n, at2? grid c.1.val c.2.val = some (boxView pos c)

variable {n : ℕ} {roster : List Player} {g g' : Game} {sim : List (List Box)}
  {pos pos' : BoardPosition n roster.length}

theorem Shows.congr (h : Shows sim pos) (hclaimed : pos'.claimed = pos.claimed)
    (howner : pos'.owner = pos.owner) : Shows sim pos' := by
  intro c
  rw [h c]
  simp [boxView, hclaimed, howner]

theorem duplicateSimGrid_spec (h : Shows sim pos) :
    ∃ grid, duplicateSimGrid sim n = some grid ∧ Shows grid pos := by
  have hrow (r : ℕ) (hr : r < n) : ∃ boxes, at? sim r = some boxes ∧
      ∀ (q : ℕ) (hq : q < n), boxes[q]? = some (boxView pos (⟨r, hr⟩, ⟨q, hq⟩)) := by
    have hcell (q : ℕ) (hq : q < n) : at2? sim r q = some (boxView pos (⟨r, hr⟩, ⟨q, hq⟩)) :=
      h (⟨r, hr⟩, ⟨q, hq⟩)
    obtain ⟨boxes, hboxes, -⟩ := Option.bind_eq_some_iff.mp (hcell 0 (by omega))
    refine ⟨boxes, hboxes, fun q hq => ?_⟩
    rw [← hcell q hq, at2?, hboxes, Option.bind_some, at?_natCast]
  obtain ⟨grid, hgrid, -, hget⟩ := mapM_range_of_isSome (n := n) (f := fun (r : ℕ) =>
    (at? sim r).map fun boxes =>
      boxes.take n ++ List.replicate (n - boxes.length) ({ row := 0, col := 0 } : Box))
    fun r hr => by obtain ⟨boxes, hboxes, -⟩ := hrow r hr; rw [hboxes]; rfl
  refine ⟨grid, by rw [duplicateSimGrid, Int.toNat_natCast, hgrid], ?_⟩
  rintro ⟨⟨r, hr⟩, ⟨q, hq⟩⟩
  obtain ⟨boxes, hboxes, hbox⟩ := hrow r hr
  have hlt : q < boxes.length := (List.getElem?_eq_some_iff.mp (hbox q hq)).1
  have hgrid' := hget r hr
  rw [hboxes] at hgrid'
  simp only [at2?, at?_natCast, hgrid', Option.map_some, Option.bind_some]
  rw [List.getElem?_append_left (by simp; omega), List.getElem?_take, if_pos hq, hbox q hq]

theorem applyEdgeToSimGrid_spec (h : Shows sim pos) (c : Cell n) (s : Side) :
    ∃ grid, applyEdgeToSimGrid sim n c.1.val c.2.val s.edge = some grid ∧
      Shows grid (pos.apply (.mark (Segment.of c s))) := by
  obtain ⟨grid, hgrid, hview⟩ := markEdge_view h c s
  rw [setSideView_boxView] at hview
  exact ⟨grid, by rw [applyEdgeToSimGrid_eq, hgrid], hview⟩

theorem isEdgeAvailableSim_side (h : Shows sim pos) (c : Cell n) (s : Side) :
    isEdgeAvailableSim sim n c.1.val c.2.val s.edge =
      some (decide (Segment.of c s ∉ pos.claimed)) := by
  have hin : ¬ ((c.1.val : ℤ) < 0 ∨ (c.1.val : ℤ) ≥ n ∨ (c.2.val : ℤ) < 0 ∨ (c.2.val : ℤ) ≥ n) := by
    omega
  rw [isEdgeAvailableSim, if_neg hin, h c]
  cases s <;> simp [Side.edge, boxView]

theorem names_of_isEdgeAvailableSim (h : Shows sim pos) (turnOrder : ℤ) {row col : ℤ}
    {edge : EdgeType} (havailable : isEdgeAvailableSim sim n row col edge = some true) :
    ∃ (c : Cell n) (s : Side), Names ⟨turnOrder, row, col, edge⟩ c s ∧
      Segment.of c s ∉ pos.claimed := by
  by_cases hout : row < 0 ∨ row ≥ n ∨ col < 0 ∨ col ≥ n
  · rw [isEdgeAvailableSim, if_pos hout] at havailable
    cases havailable
  · rw [not_or, not_or, not_or, not_lt, not_le, not_lt, not_le] at hout
    obtain ⟨hr, hr', hc, hc'⟩ := hout
    lift row to ℕ using hr
    lift col to ℕ using hc
    have hcell := h (⟨row, by omega⟩, ⟨col, by omega⟩)
    rcases exists_side_or_other edge with ⟨s, rfl⟩ | ⟨name, rfl⟩
    · have hside := isEdgeAvailableSim_side h (⟨row, by omega⟩, ⟨col, by omega⟩) s
      dsimp only at hside
      rw [havailable, Option.some_inj] at hside
      exact ⟨_, s, ⟨rfl, rfl, rfl⟩, of_decide_eq_true hside.symm⟩
    · rw [isEdgeAvailableSim, if_neg (by omega)] at havailable
      dsimp only at hcell
      rw [hcell] at havailable
      cases havailable

/-- The count on a simulated grid is the number of boxes that the segment captures there. -/
theorem countNewCompletionsFromSim_spec (h : Shows sim pos) (hsize : g.boardSize = n) (c : Cell n)
    (s : Side) : countNewCompletionsFromSim g sim c.1.val c.2.val s.edge =
      some ((rules n roster.length).captures pos (Segment.of c s)).card := by
  obtain ⟨copied, hcopied, hshows⟩ := duplicateSimGrid_spec h
  obtain ⟨marked, hmarked, hshows'⟩ := applyEdgeToSimGrid_spec hshows c s
  have hcell (d : Cell n) : newlyCompletedSim sim marked d.1.val d.2.val =
      some (decide (d ∈ (rules n roster.length).captures pos (Segment.of c s))) := by
    rw [← isComplete_mark, newlyCompletedSim, h d, hshows' d]
    change (if (boxView pos d).ownerTurn.isSome then _ else _) = _
    cases (boxView pos d).ownerTurn <;> rfl
  obtain ⟨completed, hcompleted, hcount⟩ := mapM_positions hcell
  simp only [countNewCompletionsFromSim, hsize, hcopied, hmarked, hcompleted, Option.bind_eq_bind,
    Option.bind_some]
  change some (completed.count true) = _
  rw [hcount]
  simp only [decide_eq_true_eq, Finset.filter_univ_mem]

theorem completable_own {c d : Cell n} (hne : d ≠ c) (t : Fin roster.length) :
    Completable (pos.apply (.own c t)) d = Completable pos d := by
  have howner : (pos.apply (.own c t)).owner d = pos.owner d := Function.update_of_ne hne ..
  rw [Completable, howner]
  rfl

/-- A closed box that has no owner is given to the seat, and any other is left alone. -/
theorem assignOwner_spec (h : Shows sim pos) (c : Cell n) (t : Fin roster.length) :
    ∃ sim', assignOwner t.val sim (c.1.val, c.2.val) = some sim' ∧
      Shows sim' (if Completable pos c then pos.apply (.own c t) else pos) := by
  have hcompletable : (!((boxView pos c).ownerTurn.isSome || !Game.isBoxComplete (boxView pos c))) =
      Completable pos c := by
    rw [Bool.eq_iff_iff]
    simp [Completable, boxView, ← isBoxComplete_boxView, and_comm]
  simp only [assignOwner, h c, Option.bind_eq_bind, Option.bind_some, ← hcompletable]
  cases (boxView pos c).ownerTurn.isSome || !Game.isBoxComplete (boxView pos c) with
  | true => exact ⟨sim, rfl, h⟩
  | false =>
    obtain ⟨sim', hsim', hview⟩ := modify2?_view h c
      fun box => { box with ownerTurn := some (t.val : ℤ) }
    rw [boxView_own] at hview
    exact ⟨sim', hsim', hview⟩

/-- The scan of the board gives every closed box that has no owner to the seat. -/
theorem foldlM_assignOwner (t : Fin roster.length) {cells : List (Cell n)} (hnodup : cells.Nodup)
    (h : Shows sim pos) : ∃ sim',
      (cells.map fun c => ((c.1.val : ℤ), (c.2.val : ℤ))).foldlM (assignOwner t.val) sim =
        some sim' ∧
      Shows sim' (pos.applyAll ((cells.filter (Completable pos)).map (.own · t))) := by
  induction cells generalizing sim pos with
  | nil => exact ⟨sim, rfl, h⟩
  | cons c cells ih =>
    obtain ⟨hc, hnodup⟩ := List.nodup_cons.mp hnodup
    obtain ⟨sim₁, hsim₁, hshows⟩ := assignOwner_spec h c t
    rw [List.map_cons, List.foldlM_cons, hsim₁]
    cases hcompletable : Completable pos c with
    | false =>
      rw [hcompletable] at hshows
      obtain ⟨sim', hsim', hshows'⟩ := ih hnodup hshows
      exact ⟨sim', hsim', by simpa [hcompletable] using hshows'⟩
    | true =>
      rw [hcompletable, if_pos rfl] at hshows
      obtain ⟨sim', hsim', hshows'⟩ := ih hnodup hshows
      have hfilter : cells.filter (Completable (pos.apply (.own c t))) =
          cells.filter (Completable pos) :=
        List.filter_congr fun d hd => completable_own (by rintro rfl; exact hc hd) t
      rw [hfilter] at hshows'
      exact ⟨sim', hsim', by simpa [hcompletable] using hshows'⟩

theorem simulate_move (h : Shows sim pos) (c : Cell n) (s : Side) : ∃ marked sim',
    applyEdgeToSimGrid sim n c.1.val c.2.val s.edge = some marked ∧
    assignOwnersForCompletedBoxes marked n pos.turn.val = some sim' ∧
      Shows sim' ((rules n roster.length).play pos (Segment.of c s)) := by
  obtain ⟨marked, hmarked, hshows⟩ := applyEdgeToSimGrid_spec h c s
  have hnodup : (List.finRange n ×ˢ List.finRange n).Nodup :=
    (List.nodup_finRange n).product (List.nodup_finRange n)
  obtain ⟨sim', hsim', hshows'⟩ := foldlM_assignOwner pos.turn hnodup hshows
  have hassign : assignOwnersForCompletedBoxes marked n pos.turn.val = some sim' := by
    rw [assignOwnersForCompletedBoxes, positions_natCast, hsim']
  refine ⟨marked, sim', hmarked, hassign, ?_⟩
  rw [Rules.applyAll_own] at hshows'
  refine hshows'.congr rfl (funext fun d => ?_)
  have hmem : d ∈ (List.finRange n ×ˢ List.finRange n).filter
      (Completable (pos.apply (.mark (Segment.of c s)))) ↔
      d ∈ (rules n roster.length).captures pos (Segment.of c s) := by
    rw [List.mem_filter, completable_mark_iff, and_iff_right]
    exact List.mem_product.mpr ⟨List.mem_finRange d.1, List.mem_finRange d.2⟩
  simp only [Rules.play, hmem]
  rfl

/-- Captures that are simulated on a grid, and made on the game by the seat to move. -/
inductive Simulates (g₀ : Game) : List (List Box) → Game → Prop where
  | start {sim : List (List Box)} (hclone : cloneEdgeGrid g₀ = some sim) : Simulates g₀ sim g₀
  | capture {sim marked sim' : List (List Box)} {g g' : Game} {row col : ℤ} {edge : EdgeType}
      {count : ℕ} {now : Time} {result : Except MoveError MoveResult} (h : Simulates g₀ sim g)
      (havailable : isEdgeAvailableSim sim g₀.boardSize row col edge = some true)
      (hcount : countNewCompletionsFromSim g₀ sim row col edge = some count) (hpos : 0 < count)
      (hmark : applyEdgeToSimGrid sim g₀.boardSize row col edge = some marked)
      (hassign : assignOwnersForCompletedBoxes marked g₀.boardSize g₀.currentTurn = some sim')
      (hmove : g.applyMove now ⟨g₀.currentTurn, row, col, edge⟩ = some (g', result)) :
      Simulates g₀ sim' g'

/-- A game that tracks a position, and ends only when every box is owned. -/
structure Unforfeited (roster : List Player) (n : ℕ) (g : Game)
    (pos : BoardPosition n roster.length) : Prop extends Tracks roster n g pos where
  natural : pos.ended = true → allOwned pos = true

/-- A simulated grid and a game show one position, in which a seat is to move. -/
structure Mirrors (roster : List Player) (n : ℕ) (current : ℤ) (sim : List (List Box)) (g : Game)
    (pos : BoardPosition n roster.length) : Prop extends Unforfeited roster n g pos where
  shows : Shows sim pos
  seat : pos.turn.val = current

theorem Tracks.card_completed (h : Tracks roster n g pos) {now : Time} {move : Move}
    {result : MoveResult} (hmove : g.applyMove now move = some (g', .ok result)) :
    ∃ c s, Allowed pos move c s ∧
      Tracks roster n g' ((rules n roster.length).play pos (Segment.of c s)) ∧
      result.completedBoxes.length =
        ((rules n roster.length).captures pos (Segment.of c s)).card := by
  obtain ⟨c, s, ha, htracks⟩ := h.accepted hmove
  obtain ⟨g₁, r₁, _, hmove₁, -, -, hboxes⟩ := applyMove_of_allowed h.toRepresents h.sound ha now
  obtain ⟨-, hr⟩ := Prod.mk.inj (Option.some.inj (hmove₁.symm.trans hmove))
  obtain rfl := Except.ok.inj hr
  refine ⟨c, s, ha, htracks, ?_⟩
  rw [hboxes, List.length_map, ← List.toFinset_card_of_nodup (nodup_completedCells _ c s)]
  congr 1
  ext d
  rw [List.mem_toFinset, mem_completedCells_iff h.sound]

theorem Tracks.unforfeited (h : Tracks roster n g pos) (hrun : g.endedAt = none) :
    Unforfeited roster n g pos where
  toTracks := h
  natural hended := by
    rw [← h.ended, hrun] at hended
    cases hended

theorem Unforfeited.play (h : Unforfeited roster n g pos) {seg : Segment n}
    (hrep : Represents roster n g' ((rules n roster.length).play pos seg)) :
    Unforfeited roster n g' ((rules n roster.length).play pos seg) where
  toTracks := h.toTracks.play hrep
  natural hended := by
    rw [allOwned, decide_eq_true_iff]
    exact Rules.ended_play_iff.mp hended

theorem Unforfeited.running (h : Unforfeited roster n g pos) {seg : Segment n}
    (hcap : (rules n roster.length).captures pos seg ≠ ∅) : pos.ended = false := by
  obtain ⟨d, hnone⟩ := Rules.exists_unowned hcap
  rw [← Bool.not_eq_true]
  intro hended
  have hsome := of_decide_eq_true (h.natural hended) d
  rw [hnone] at hsome
  cases hsome

theorem mirrors_start (h : Tracks roster n g pos) (hrun : g.endedAt = none)
    (hclone : cloneEdgeGrid g = some sim) : Mirrors roster n g.currentTurn sim g pos where
  toUnforfeited := h.unforfeited hrun
  shows := by
    obtain ⟨grid, hgrid, hshows⟩ := cloneEdgeGrid_spec h.toRepresents
    obtain rfl := Option.some.inj (hclone.symm.trans hgrid)
    exact hshows
  seat := h.turn.symm

/-- A capture that is simulated is accepted by the game, completes as many boxes there, and the
seat keeps the turn. -/
theorem Mirrors.capture {g₀ : Game} (hsize : g₀.boardSize = n)
    (h : Mirrors roster n g₀.currentTurn sim g pos) {marked sim' : List (List Box)}
    {row col : ℤ} {edge : EdgeType} {count : ℕ} {now : Time}
    {result : Except MoveError MoveResult}
    (havailable : isEdgeAvailableSim sim g₀.boardSize row col edge = some true)
    (hcount : countNewCompletionsFromSim g₀ sim row col edge = some count) (hpos : 0 < count)
    (hmark : applyEdgeToSimGrid sim g₀.boardSize row col edge = some marked)
    (hassign : assignOwnersForCompletedBoxes marked g₀.boardSize g₀.currentTurn = some sim')
    (hmove : g.applyMove now ⟨g₀.currentTurn, row, col, edge⟩ = some (g', result)) :
    ∃ pos', Mirrors roster n g₀.currentTurn sim' g' pos' := by
  rw [hsize] at havailable hmark hassign
  obtain ⟨c, s, hnames, hfree⟩ :=
    names_of_isEdgeAvailableSim h.shows g₀.currentTurn havailable
  obtain ⟨rfl, rfl, rfl⟩ := hnames
  rw [countNewCompletionsFromSim_spec h.shows hsize, Option.some_inj] at hcount
  have hcap : (rules n roster.length).captures pos (Segment.of c s) ≠ ∅ := by
    rw [← Finset.nonempty_iff_ne_empty, ← Finset.card_pos]
    omega
  have hallowed : Allowed pos ⟨g₀.currentTurn, c.1.val, c.2.val, s.edge⟩ c s :=
    ⟨⟨rfl, rfl, rfl⟩, h.seat.symm, hfree, h.running hcap⟩
  obtain ⟨g₁, r, _, hmove₁, -, hrep, -⟩ := applyMove_of_allowed h.toRepresents h.sound hallowed now
  obtain ⟨rfl, -⟩ := Prod.mk.inj (Option.some.inj (hmove₁.symm.trans hmove))
  obtain ⟨marked₁, sim₁, hmarked₁, hsim₁, hshows⟩ := simulate_move h.shows c s
  obtain rfl := Option.some.inj (hmarked₁.symm.trans hmark)
  rw [h.seat] at hsim₁
  obtain rfl := Option.some.inj (hsim₁.symm.trans hassign)
  exact ⟨_, h.play hrep, hshows, by rw [← h.seat, Rules.play, if_neg hcap]⟩

/-- An edge is available in the simulated grid exactly when the game accepts it. -/
theorem Mirrors.available_iff {current : ℤ} (h : Mirrors roster n current sim g pos) (now : Time)
    (row col : ℤ) (edge : EdgeType) : isEdgeAvailableSim sim n row col edge = some true ↔
      ∃ g' result, g.applyMove now ⟨current, row, col, edge⟩ = some (g', .ok result) := by
  constructor
  · intro havailable
    obtain ⟨c, s, hnames, hfree⟩ := names_of_isEdgeAvailableSim h.shows current havailable
    have hrunning : pos.ended = false := by
      by_contra hended
      rw [Bool.not_eq_false] at hended
      have hall := h.allOwned_iff.mp (h.natural hended)
      exact hfree (hall ▸ Finset.mem_univ _)
    obtain ⟨g', result, _, hmove, -⟩ := applyMove_of_allowed h.toRepresents h.sound
      ⟨hnames, h.seat.symm, hfree, hrunning⟩ now
    exact ⟨g', result, hmove⟩
  · rintro ⟨g', result, hmove⟩
    obtain ⟨c, s, ha, -⟩ := h.accepted hmove
    have hside := isEdgeAvailableSim_side h.shows c s
    rw [← ha.row, ← ha.col, ← ha.edge, decide_eq_true ha.free] at hside
    exact hside

theorem Mirrors.exists_simulated {current : ℤ} (h : Mirrors roster n current sim g pos)
    {row col : ℤ} {edge : EdgeType}
    (havailable : isEdgeAvailableSim sim n row col edge = some true) :
    ∃ marked sim', applyEdgeToSimGrid sim n row col edge = some marked ∧
      assignOwnersForCompletedBoxes marked n current = some sim' := by
  obtain ⟨c, s, ⟨rfl, rfl, rfl⟩, -⟩ := names_of_isEdgeAvailableSim h.shows current havailable
  obtain ⟨marked, sim', hmark, hassign, -⟩ := simulate_move h.shows c s
  exact ⟨marked, sim', hmark, by rw [← h.seat, hassign]⟩

theorem Simulates.mirrors {g₀ : Game} (h : Simulates g₀ sim g) (h₀ : Tracks roster n g₀ pos)
    (hrun : g₀.endedAt = none) : ∃ pos', Mirrors roster n g₀.currentTurn sim g pos' := by
  induction h with
  | start hclone => exact ⟨pos, mirrors_start h₀ hrun hclone⟩
  | capture _ havailable hcount hpos hmark hassign hmove ih =>
    obtain ⟨pos', h'⟩ := ih
    exact h'.capture h₀.boardSize havailable hcount hpos hmark hassign hmove

/-- The scan of a simulated copy finds as many boxes as the local check of an accepted move, and
still does after captures that are simulated and made. -/
theorem lookahead_counts_completed {g₀ : Game} (hn : 0 < n) (hk : 0 < roster.length)
    (hg : Reachable roster n g₀) (hrun : g₀.endedAt = none) :
    (∀ now move g' result, g₀.applyMove now move = some (g', .ok result) →
      countNewCompletions g₀ move = some result.completedBoxes.length) ∧
    (∃ sim, cloneEdgeGrid g₀ = some sim) ∧
    ∀ sim g, Simulates g₀ sim g →
      g.currentTurn = g₀.currentTurn ∧
      (∀ c : Cell n, at2? sim c.1.val c.2.val = at2? g.grid c.1.val c.2.val) ∧
      (∀ now row col edge, isEdgeAvailableSim sim g₀.boardSize row col edge = some true ↔
        ∃ g' result, g.applyMove now ⟨g₀.currentTurn, row, col, edge⟩ = some (g', .ok result)) ∧
      (∀ row col edge, isEdgeAvailableSim sim g₀.boardSize row col edge = some true →
        ∃ marked sim', applyEdgeToSimGrid sim g₀.boardSize row col edge = some marked ∧
          assignOwnersForCompletedBoxes marked g₀.boardSize g₀.currentTurn = some sim') ∧
      ∀ now move g' result, g.applyMove now move = some (g', .ok result) →
        countNewCompletionsFromSim g₀ sim move.row move.col move.edge =
          some result.completedBoxes.length := by
  obtain ⟨pos₀, h₀⟩ := hg.tracks hn hk
  refine ⟨fun now move g' result hmove => ?_, ?_, fun sim g hsim => ?_⟩
  · obtain ⟨c, s, ha, -, hcard⟩ := h₀.card_completed hmove
    rw [hcard, countNewCompletions_spec h₀.toRepresents ha.toNames]
  · obtain ⟨sim, hsim, -⟩ := cloneEdgeGrid_spec h₀.toRepresents
    exact ⟨sim, hsim⟩
  · obtain ⟨pos, h⟩ := hsim.mirrors h₀ hrun
    refine ⟨h.turn.trans h.seat, fun c => (h.shows c).trans (h.box c).symm, ?_, ?_, ?_⟩
    · rw [h₀.boardSize]
      exact h.available_iff
    · rw [h₀.boardSize]
      exact fun _ _ _ => h.exists_simulated
    · intro now move g' result hmove
      obtain ⟨c, s, ha, -, hcard⟩ := h.card_completed hmove
      rw [hcard, ha.row, ha.col, ha.edge, countNewCompletionsFromSim_spec h.shows h₀.boardSize]

theorem lookahead_counts_completed_duel : ∃ sim, cloneEdgeGrid duelOpening = some sim ∧
    ∀ now row col edge, isEdgeAvailableSim sim 2 row col edge = some true ↔
      ∃ g' result, duelOpening.applyMove now ⟨1, row, col, edge⟩ = some (g', .ok result) := by
  obtain ⟨-, ⟨sim, hsim⟩, hcaptures⟩ := lookahead_counts_completed (by decide) (by decide)
    reachable_duelOpening (by decide)
  exact ⟨sim, hsim, (hcaptures sim duelOpening (.start hsim)).2.2.1⟩

end DotsAndBoxes
