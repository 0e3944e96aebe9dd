import DotsAndBoxes.Game.Refinement

/-! # Moves follow the rule book

An accepted move raises exactly the events of one turn of the rule book on the
physical board, and any other move is rejected with the game unchanged. The
local check of the moved cell and its neighbour finds every captured box, since
a captured box has the claimed segment on its border.
-/

namespace DotsAndBoxes

open Slices Enclosure

variable {n : ℕ} {roster : List Player} {g : Game} {pos : BoardPosition n roster.length}

theorem Represents.raise (h : Represents roster n g pos) {payload : Payload}
    {act : Act (Segment n) (Cell n) (Fin roster.length)}
    (hp : Denotes n roster.length payload act)
    (hfree : ∀ c t, act = .own c t → pos.owner c = none) (now : Time) :
    ∃ g', g.raise now payload.type payload = some g' ∧ Represents roster n g' (pos.apply act) := by
  have htype : (g.eventOf now payload).type = (g.eventOf now payload).payload.type := rfl
  obtain ⟨g', happly, h'⟩ := h.applyEvent htype hp hfree
  rw [Game.raise_eq, happly]
  exact ⟨_, rfl, h'.boardSize, h'.turn, h'.ended, h'.box, h'.length, h'.player⟩

theorem owner_eq_none_of_enabled {act : Act (Segment n) (Cell n) (Fin roster.length)}
    (h : pos.Enabled act) (c : Cell n) (t : Fin roster.length) (hact : act = .own c t) :
    pos.owner c = none := by
  subst hact; exact h.2

theorem Represents.raiseAll (h : Represents roster n g pos) {payloads : List Payload}
    {acts : List (Act (Segment n) (Cell n) (Fin roster.length))}
    (hp : List.Forall₂ (Denotes n roster.length) payloads acts) (hen : pos.EnabledAll acts)
    (now : Time) :
    ∃ g', g.raiseAll now payloads = some g' ∧ Represents roster n g' (pos.applyAll acts) := by
  induction hp generalizing g pos with
  | nil => exact ⟨g, rfl, h⟩
  | cons hd _ ih =>
    obtain ⟨g₁, h₁, hrep₁⟩ := h.raise hd (owner_eq_none_of_enabled hen.1) now
    obtain ⟨g₂, h₂, hrep₂⟩ := ih hrep₁ hen.2
    exact ⟨g₂, by rw [Game.raiseAll_cons, h₁]; exact h₂, hrep₂⟩

/-- A move names a segment by one of its cells and the side of the cell. -/
structure Names (move : Move) (c : Cell n) (s : Side) : Prop where
  row : move.row = c.1.val
  col : move.col = c.2.val
  edge : move.edge = s.edge

def EdgeType.side? : EdgeType → Option Side
  | .top => some .top
  | .right => some .right
  | .bottom => some .bottom
  | .left => some .left
  | .other _ => none

theorem EdgeType.side?_eq_some_iff {e : EdgeType} {s : Side} : e.side? = some s ↔ e = s.edge := by
  cases e <;> cases s <;> simp [EdgeType.side?, Side.edge]

/-- The physical segment that a move names, if its cell is on the board and its edge is an edge. -/
def Move.segment (n : ℕ) (move : Move) : Option (Segment n) :=
  if h : (0 ≤ move.row ∧ move.row < n) ∧ 0 ≤ move.col ∧ move.col < n then
    move.edge.side?.map
      (Segment.of (⟨move.row.toNat, by omega⟩, ⟨move.col.toNat, by omega⟩))
  else none

theorem Move.segment_eq_some_iff {move : Move} {seg : Segment n} :
    move.segment n = some seg ↔ ∃ (c : Cell n) (s : Side), Names move c s ∧ Segment.of c s = seg := by
  constructor
  · intro h
    unfold Move.segment at h
    split at h
    case isFalse => cases h
    case isTrue hin =>
      obtain ⟨s, hs, rfl⟩ := Option.map_eq_some_iff.mp h
      refine ⟨_, s, ⟨?_, ?_, EdgeType.side?_eq_some_iff.mp hs⟩, rfl⟩
      · exact (Int.toNat_of_nonneg hin.1.1).symm
      · exact (Int.toNat_of_nonneg hin.2.1).symm
  · rintro ⟨⟨⟨r, hr⟩, ⟨q, hq⟩⟩, s, hnames, rfl⟩
    have hrow : move.row = r := hnames.row
    have hcol : move.col = q := hnames.col
    unfold Move.segment
    rw [dif_pos (by omega), EdgeType.side?_eq_some_iff.mpr hnames.edge]
    simp [hrow, hcol]

theorem Names.segment_eq {move : Move} {c d : Cell n} {s t : Side} (h : Names move c s)
    (h' : Names move d t) : Segment.of c s = Segment.of d t := by
  have hseg := Move.segment_eq_some_iff.mpr ⟨c, s, h, rfl⟩
  rw [Move.segment_eq_some_iff.mpr ⟨d, t, h', rfl⟩] at hseg
  exact (Option.some.inj hseg).symm

/-- The rule book allows the move, which names the segment on a side of a cell. -/
structure Allowed (pos : BoardPosition n roster.length) (move : Move) (c : Cell n) (s : Side) :
    Prop extends Names move c s where
  turn : move.turnOrder = pos.turn.val
  free : Segment.of c s ∉ pos.claimed
  running : pos.ended = false

theorem outside_cell (h : Represents roster n g pos) (c : Cell n) :
    g.outside c.1.val c.2.val = false := by
  simp [Game.outside, h.boardSize]

theorem exists_cell_of_not_outside (hsize : g.boardSize = n) {row col : ℤ}
    (hin : g.outside row col = false) : ∃ c : Cell n, row = c.1.val ∧ col = c.2.val := by
  simp only [Game.outside, hsize, decide_eq_false_iff_not, not_or, not_lt, not_le] at hin
  obtain ⟨hr, hr', hc, hc'⟩ := hin
  lift row to ℕ using hr
  lift col to ℕ using hc
  exact ⟨(⟨row, by omega⟩, ⟨col, by omega⟩), rfl, rfl⟩

theorem exists_side_or_other (e : EdgeType) : (∃ s : Side, e = s.edge) ∨ ∃ name, e = .other name := by
  cases e with
  | top => exact .inl ⟨.top, rfl⟩
  | right => exact .inl ⟨.right, rfl⟩
  | bottom => exact .inl ⟨.bottom, rfl⟩
  | left => exact .inl ⟨.left, rfl⟩
  | other name => exact .inr ⟨name, rfl⟩

theorem isEdgeAvailable_side (h : Represents roster n g pos) (c : Cell n) (s : Side) :
    g.isEdgeAvailable c.1.val c.2.val s.edge = some (decide (Segment.of c s ∉ pos.claimed)) := by
  rw [Game.isEdgeAvailable, outside_cell h, h.box c]
  cases s <;> simp [Side.edge, boxView]

theorem validateMove_of_allowed (h : Represents roster n g pos) {move : Move} {c : Cell n} {s : Side}
    (ha : Allowed pos move c s) : g.validateMove move = some (.ok ()) := by
  have hended : g.endedAt.isSome = false := h.ended.trans ha.running
  rw [Game.validateMove, ha.row, ha.col, ha.edge, ha.turn, h.turn, outside_cell h,
    isEdgeAvailable_side h, hended]
  simp [ha.free]

theorem validateMove_of_not_allowed (h : Represents roster n g pos) {move : Move}
    (hn : ∀ (c : Cell n) (s : Side), ¬ Allowed pos move c s) :
    ∃ err, g.validateMove move = some (.error err) := by
  unfold Game.validateMove
  by_cases hturn : move.turnOrder = g.currentTurn
  case neg => exact ⟨_, if_pos hturn⟩
  rw [if_neg (not_not.mpr hturn)]
  cases hout : g.outside move.row move.col
  case true => exact ⟨_, rfl⟩
  obtain ⟨c, hr, hc⟩ := exists_cell_of_not_outside h.boardSize hout
  rw [hr, hc]
  rcases exists_side_or_other move.edge with ⟨s, hs⟩ | ⟨name, hname⟩
  · rw [hs, isEdgeAvailable_side h, h.ended]
    by_cases hfree : Segment.of c s ∈ pos.claimed
    · exact ⟨.edgeTaken s.edge c.1.val c.2.val, by simp [hfree]⟩
    · have hended : pos.ended = true := by
        by_contra hrun
        exact hn c s ⟨⟨hr, hc, hs⟩, hturn.trans h.turn, hfree, by simpa using hrun⟩
      exact ⟨.gameEnded, by simp [hfree, hended]⟩
  · exact ⟨.edgeTaken move.edge c.1.val c.2.val,
      by simp [hname, Game.isEdgeAvailable, outside_cell h, h.box c]⟩

/-- The cell is enclosed and has no owner. -/
def Completable (pos : BoardPosition n roster.length) (c : Cell n) : Bool :=
  decide (border c ⊆ pos.claimed) && (pos.owner c).isNone

theorem isBoxComplete_boxView {k : ℕ} {pos : BoardPosition n k} {c : Cell n} :
    Game.isBoxComplete (boxView pos c) = true ↔ border c ⊆ pos.claimed := by
  rw [border_subset_iff]
  constructor
  · intro hb s
    simp only [Game.isBoxComplete, boxView, Bool.and_eq_true, decide_eq_true_eq] at hb
    obtain ⟨⟨⟨htop, hright⟩, hbottom⟩, hleft⟩ := hb
    cases s <;> assumption
  · intro hall
    simp [Game.isBoxComplete, boxView, hall]

theorem findCompletableBox_cell (h : Represents roster n g pos) (c : Cell n) :
    g.findCompletableBox c.1.val c.2.val =
      some (if Completable pos c then some (boxView pos c) else none) := by
  have hcomplete : Game.isBoxComplete (boxView pos c) = decide (border c ⊆ pos.claimed) := by
    rw [Bool.eq_iff_iff, decide_eq_true_eq, isBoxComplete_boxView]
  have howner : (boxView pos c).ownerTurn.isSome = (pos.owner c).isSome := by simp [boxView]
  simp only [Game.findCompletableBox, outside_cell h, h.box c, Option.bind_eq_bind,
    Option.bind_some, howner, hcomplete]
  cases ho : pos.owner c <;> simp [Completable, ho]

/-- The cells the local completion check returns: the moved cell, then the cell across. -/
def completedCells (pos : BoardPosition n roster.length) (c : Cell n) (s : Side) : List (Cell n) :=
  (c :: (across c s).toList).filter (Completable pos)

theorem outside_of_across_eq_none (h : Represents roster n g pos) {c : Cell n} {s : Side}
    (ha : across c s = none) :
    g.outside (Game.getAdjacentBox c.1.val c.2.val s.edge).1
      (Game.getAdjacentBox c.1.val c.2.val s.edge).2 = true := by
  rw [Game.outside, h.boardSize, decide_eq_true_eq]
  cases s <;> simp only [across, dite_eq_right_iff, reduceCtorEq, imp_false] at ha <;>
    simp only [Game.getAdjacentBox, Side.edge] <;> omega

theorem findCompletableAdjacent_cell (h : Represents roster n g pos) {move : Move} {c : Cell n}
    {s : Side} (hm : Names move c s) :
    g.findCompletableAdjacent move = some ((across c s).bind fun d =>
      if Completable pos d then some (boxView pos d) else none) := by
  rw [Game.findCompletableAdjacent, hm.row, hm.col, hm.edge]
  cases ha : across c s with
  | some d =>
    rw [getAdjacentBox_of_across ha]
    exact (if_pos (Int.natCast_nonneg _)).trans (findCompletableBox_cell h d)
  | none =>
    have hout := outside_of_across_eq_none h ha
    simp [Game.findCompletableBox, hout]

theorem findNewlyCompletedBoxes_cell (h : Represents roster n g pos) {move : Move} {c : Cell n}
    {s : Side} (hm : Names move c s) :
    g.findNewlyCompletedBoxes move = some ((completedCells pos c s).map (boxView pos)) := by
  rw [Game.findNewlyCompletedBoxes, findCompletableAdjacent_cell h hm, hm.row, hm.col,
    findCompletableBox_cell h c]
  cases ha : across c s with
  | none => cases hc : Completable pos c <;> simp [completedCells, ha, hc]
  | some d =>
    cases hc : Completable pos c <;> cases hd : Completable pos d <;>
      simp [completedCells, ha, hc, hd]

theorem nodup_completedCells (pos : BoardPosition n roster.length) (c : Cell n) (s : Side) :
    (completedCells pos c s).Nodup := by
  apply List.Nodup.filter _
  cases ha : across c s with
  | none => simp
  | some d =>
    have hd : c ≠ d := by rintro rfl; exact across_ne_self _ _ ha
    simpa using hd

/-- Once the segment is claimed, the captured boxes are those that can be completed. -/
theorem completable_mark_iff {d : Cell n} {seg : Segment n} :
    Completable (pos.apply (.mark seg)) d = true ↔
      d ∈ (rules n roster.length).captures pos seg := by
  rw [Completable, Bool.and_eq_true, decide_eq_true_iff, Rules.mem_captures]
  simp [Position.apply, rules]

theorem mem_completedCells_iff (hsound : (rules n roster.length).Sound pos) {c d : Cell n}
    {s : Side} :
    d ∈ completedCells (pos.apply (.mark (Segment.of c s))) c s ↔
      d ∈ (rules n roster.length).captures pos (Segment.of c s) := by
  rw [completedCells, List.mem_filter, completable_mark_iff, and_iff_right_iff_imp]
  intro hd
  have hborder : Segment.of c s ∈ border d := hsound.mem_border_of_captures hd
  obtain ⟨t, -, ht⟩ := Finset.mem_image.mp hborder
  rcases segment_of_eq_iff.mp ht with ⟨rfl, -⟩ | ⟨ha, -⟩
  · exact List.mem_cons_self
  · exact List.mem_cons_of_mem _ (by simp [ha])

theorem isGameOver_eq (h : Represents roster n g pos) :
    g.isGameOver = some (decide (∀ c, (pos.owner c).isSome)) := by
  have hcell (row : ℕ) (hrow : row < n) (col : ℕ) (hcol : col < n) :
      (at2? g.grid row col).map (fun box => box.ownerTurn.isSome) =
        some (pos.owner (⟨row, hrow⟩, ⟨col, hcol⟩)).isSome := by
    rw [h.box (⟨row, hrow⟩, ⟨col, hcol⟩)]
    simp [boxView]
  have hrow (row : ℕ) (hrow : row < n) :
      ((List.range n).allM fun (col : ℕ) =>
        (at2? g.grid row col).map fun box => box.ownerTurn.isSome) =
        some ((List.range n).all fun col =>
          if hcol : col < n then (pos.owner (⟨row, hrow⟩, ⟨col, hcol⟩)).isSome else true) := by
    apply allM_of_eq_some
    intro col hcol
    have hlt := List.mem_range.mp hcol
    rw [hcell row hrow col hlt, dif_pos hlt]
  have hall : g.isGameOver = some ((List.range n).all fun row =>
      if hrow : row < n then (List.range n).all fun col =>
        if hcol : col < n then (pos.owner (⟨row, hrow⟩, ⟨col, hcol⟩)).isSome else true
      else true) := by
    rw [Game.isGameOver, h.boardSize, Int.toNat_natCast]
    apply allM_of_eq_some
    intro row hr
    have hlt := List.mem_range.mp hr
    rw [hrow row hlt, dif_pos hlt]
  rw [hall, Option.some_inj, Bool.eq_iff_iff, List.all_eq_true, decide_eq_true_eq]
  constructor
  · rintro hg ⟨⟨row, hr⟩, ⟨col, hc⟩⟩
    have hr' := hg row (List.mem_range.mpr hr)
    rw [dif_pos hr, List.all_eq_true] at hr'
    simpa [hc] using hr' col (List.mem_range.mpr hc)
  · intro hg row hr
    rw [dif_pos (List.mem_range.mp hr), List.all_eq_true]
    intro col hc
    rw [dif_pos (List.mem_range.mp hc)]
    exact hg _

theorem raiseCompleted_cells (now : Time) (g : Game) (t : Fin roster.length) (cells : List (Cell n))
    (q : BoardPosition n roster.length) :
    g.raiseCompleted now t.val (cells.map (boxView q)) =
      g.raiseAll now (cells.map fun d => .boxCompleted ⟨d.1.val, d.2.val, t.val⟩) := by
  rw [Game.raiseCompleted_eq, List.map_map]
  rfl

theorem nextTurn_eq (h : Represents roster n g pos) :
    g.nextTurn = some ((nextSeat pos.turn).val : ℤ) := by
  have hk : roster.length ≠ 0 := pos.turn.pos.ne'
  rw [Game.nextTurn, h.length, if_neg hk, h.turn, nextSeat]
  norm_cast

theorem passUnlessCompleted_eq (h : Represents roster n g pos) (now : Time) (boxes : List Box) :
    g.passUnlessCompleted now boxes =
      g.raiseAll now (if boxes = [] then [.turnPassed ⟨(nextSeat pos.turn).val⟩] else []) := by
  cases boxes with
  | cons box boxes => rfl
  | nil =>
    rw [Game.passUnlessCompleted, if_pos rfl, if_pos List.length_nil, Game.passTurn, nextTurn_eq h]
    cases hr : g.raise now .turnPassed (.turnPassed ⟨(nextSeat pos.turn).val⟩) <;>
      simp [Payload.type, hr]

def allOwned (pos : BoardPosition n roster.length) : Bool := decide (∀ c, (pos.owner c).isSome)

theorem endIfOver_eq (h : Represents roster n g pos) (now : Time) (boxes : List Box) :
    g.endIfOver now boxes =
      (g.raiseAll now (if allOwned pos then [.gameEnded ⟨g.determineWinner⟩] else [])).map
        fun g' => (g', {
          completedBoxes := boxes
          nextTurn := g.currentTurn
          gameOver := allOwned pos
          winnerID := if allOwned pos then g.determineWinner else none }) := by
  rw [Game.endIfOver, isGameOver_eq h]
  change (if allOwned pos then _ else _) = _
  cases allOwned pos with
  | false => rfl
  | true =>
    simp only [if_true, Game.raiseAll_cons, Payload.type, Game.raiseAll_nil]
    cases g.raise now .gameEnded (.gameEnded ⟨g.determineWinner⟩) <;> rfl

/-- The payloads that an accepted move raises, when its end of the game names a winner. -/
def movePayloads (pos : BoardPosition n roster.length) (c : Cell n) (s : Side)
    (winnerID : Option ℤ) : List Payload :=
  let cells := completedCells (pos.apply (.mark (Segment.of c s))) c s
  .moveApplied ⟨pos.turn.val, c.1.val, c.2.val, s.edge.toString⟩ ::
    (cells.map fun d => .boxCompleted ⟨d.1.val, d.2.val, pos.turn.val⟩) ++
    (if cells = [] then [.turnPassed ⟨(nextSeat pos.turn).val⟩] else []) ++
    (if ((rules n roster.length).play pos (Segment.of c s)).ended then [.gameEnded ⟨winnerID⟩]
      else [])

theorem denotes_boxCompleted (t : Fin roster.length) (cells : List (Cell n)) :
    List.Forall₂ (Denotes n roster.length)
      (cells.map fun d => .boxCompleted ⟨d.1.val, d.2.val, t.val⟩) (cells.map (.own · t)) := by
  simp [List.forall₂_map_left_iff, List.forall₂_map_right_iff, List.forall₂_same,
    Denotes.boxCompleted]

theorem denotes_turnPassed (p : Prop) [Decidable p] (t : Fin roster.length) :
    List.Forall₂ (Denotes n roster.length) (if p then [.turnPassed ⟨t.val⟩] else [])
      (if p then [.pass t] else []) := by
  split_ifs
  · exact .cons (.turnPassed _) .nil
  · exact .nil

theorem denotes_gameEnded (p : Prop) [Decidable p] (winnerID : Option ℤ) :
    List.Forall₂ (Denotes n roster.length) (if p then [.gameEnded ⟨winnerID⟩] else [])
      (if p then [.finish] else []) := by
  split_ifs
  · exact .cons (.gameEnded _) .nil
  · exact .nil

theorem denotes_movePayloads (pos : BoardPosition n roster.length) (c : Cell n) (s : Side)
    (winnerID : Option ℤ) : List.Forall₂ (Denotes n roster.length)
      (movePayloads pos c s winnerID) ((rules n roster.length).turnActs pos (Segment.of c s)
        (completedCells (pos.apply (.mark (Segment.of c s))) c s)) :=
  List.rel_append (List.rel_append
    (.cons (.moveApplied _ c s) (denotes_boxCompleted pos.turn _)) (denotes_turnPassed _ _))
      (denotes_gameEnded _ _)

theorem applyMove_of_allowed (h : Represents roster n g pos)
    (hsound : (rules n roster.length).Sound pos) {move : Move} {c : Cell n} {s : Side}
    (ha : Allowed pos move c s) (now : Time) :
    ∃ g' result winnerID, g.applyMove now move = some (g', .ok result) ∧
      g.raiseAll now (movePayloads pos c s winnerID) = some g' ∧
      Represents roster n g' ((rules n roster.length).play pos (Segment.of c s)) ∧
      result.completedBoxes = (completedCells (pos.apply (.mark (Segment.of c s))) c s).map
        (boxView (pos.apply (.mark (Segment.of c s)))) := by
  have hvalid := validateMove_of_allowed h ha
  obtain ⟨hnames, hturn, hfree, hrun⟩ := ha
  have hcap (d : Cell n) := mem_completedCells_iff hsound (c := c) (d := d) (s := s)
  set seg := Segment.of c s with hseg
  set marked := pos.apply (.mark seg) with hmarked
  set cells := completedCells marked c s with hcells
  set R := rules n roster.length with hR
  have hen : pos.EnabledAll (R.turnActs pos seg cells) :=
    Rules.enabledAll_turnActs (p := pos.turn) ⟨rfl, hfree, hrun⟩ (nodup_completedCells marked c s) hcap
  rw [Rules.turnActs, Position.enabledAll_append, Rules.applyAll_moveActs hcap, Rules.moveActs,
    Position.enabledAll_append, Position.enabledAll_cons, Position.applyAll_cons] at hen
  obtain ⟨⟨⟨hmark, howns⟩, hpass⟩, hfin⟩ := hen
  -- the segment is claimed, seen from both sides
  obtain ⟨g₁, hg₁, h₁⟩ := h.raise (.moveApplied pos.turn.val c s)
    (owner_eq_none_of_enabled hmark) now
  -- the captured boxes go to the player to move
  obtain ⟨g₂, hg₂, h₂⟩ := h₁.raiseAll (denotes_boxCompleted pos.turn cells) howns now
  -- the turn passes when there are none
  have hturn₂ : (marked.applyAll (cells.map (.own · pos.turn))).turn = pos.turn := by
    rw [Rules.applyAll_own]; rfl
  obtain ⟨g₃, hg₃, h₃⟩ := h₂.raiseAll (denotes_turnPassed (cells = []) (nextSeat pos.turn)) hpass now
  have h₃' : Represents roster n g₃ (pos.applyAll (R.moveActs pos seg cells)) := by
    rw [Rules.moveActs, Position.applyAll_append]; exact h₃
  rw [Rules.applyAll_moveActs hcap] at h₃'
  -- play ends when every box is owned
  have hover : @allOwned n roster ⟨(R.play pos seg).claimed, (R.play pos seg).owner,
      (R.play pos seg).turn, pos.ended⟩ = (R.play pos seg).ended := by
    rw [Bool.eq_iff_iff, Rules.ended_play_iff, allOwned, decide_eq_true_iff]
  obtain ⟨g₄, hg₄, h₄⟩ := h₃'.raiseAll
    (denotes_gameEnded ((R.play pos seg).ended = true) g₃.determineWinner) hfin now
  rw [← Rules.applyAll_moveActs hcap, ← Position.applyAll_append, ← Rules.turnActs,
    Rules.applyAll_turnActs hrun hcap] at h₄
  have hg₁' : g.raise now .moveApplied (.moveApplied
      ⟨move.turnOrder, move.row, move.col, move.edge.toString⟩) = some g₁ := by
    rw [hturn, hnames.row, hnames.col, hnames.edge]; exact hg₁
  have hcompleted : g₁.findNewlyCompletedBoxes move = some (cells.map (boxView marked)) :=
    findNewlyCompletedBoxes_cell h₁ hnames
  have hraised : g₁.raiseCompleted now move.turnOrder (cells.map (boxView marked)) = some g₂ := by
    rw [hturn, raiseCompleted_cells, hg₂]
  have hpassed : g₂.passUnlessCompleted now (cells.map (boxView marked)) = some g₃ := by
    rw [passUnlessCompleted_eq h₂, hturn₂]
    simpa only [List.map_eq_nil_iff] using hg₃
  have hended := endIfOver_eq h₃' now (cells.map (boxView marked))
  rw [hover, hg₄] at hended
  refine ⟨g₄, ⟨cells.map (boxView marked), g₃.currentTurn, (R.play pos seg).ended,
    if (R.play pos seg).ended then g₃.determineWinner else none⟩, g₃.determineWinner, ?_, ?_, h₄,
      rfl⟩
  · simp [Game.applyMove, hvalid, hg₁', hcompleted, hraised, hpassed, hended]
  · have hpayloads : movePayloads pos c s g₃.determineWinner =
        .moveApplied ⟨pos.turn.val, c.1.val, c.2.val, s.edge.toString⟩ ::
          (cells.map fun d => .boxCompleted ⟨d.1.val, d.2.val, pos.turn.val⟩) ++
          (if cells = [] then [.turnPassed ⟨(nextSeat pos.turn).val⟩] else []) ++
          (if (R.play pos seg).ended then [.gameEnded ⟨g₃.determineWinner⟩] else []) := rfl
    rw [hpayloads]
    simp [Game.raiseAll_append, hg₁, hg₂, hg₃, hg₄]

/-- A move that the rule book does not allow changes nothing and records nothing. -/
theorem applyMove_of_not_allowed (h : Represents roster n g pos) {move : Move}
    (hn : ∀ (c : Cell n) (s : Side), ¬ Allowed pos move c s) (now : Time) :
    ∃ err, g.applyMove now move = some (g, .error err) := by
  obtain ⟨err, herr⟩ := validateMove_of_not_allowed h hn
  exact ⟨err, by simp [Game.applyMove, herr]⟩

theorem passTurnOnTimeout_of_ended (h : Represents roster n g pos) (hended : pos.ended = true)
    (now : Time) : g.passTurnOnTimeout now = some (g, .error .gameEnded) := by
  rw [Game.passTurnOnTimeout, Game.hasEnded, h.ended, hended]
  rfl

theorem passTurnOnTimeout_of_running (h : Represents roster n g pos) (hrun : pos.ended = false)
    (hfree : allOwned pos = false) (now : Time) :
    ∃ g', g.passTurnOnTimeout now = some (g', .ok ⟨[], g'.currentTurn, false, none⟩) ∧
      g.raiseAll now [.turnPassed ⟨(nextSeat pos.turn).val⟩] = some g' ∧
      Represents roster n g' (pos.apply (.pass (nextSeat pos.turn))) := by
  obtain ⟨g', hg', h'⟩ := h.raise (.turnPassed (nextSeat pos.turn)) (by simp) now
  have hpass : g.passTurn now = some g' := by
    rw [Game.passTurn, nextTurn_eq h]; exact hg'
  have hnotended : g.hasEnded = false := h.ended.trans hrun
  have hfree' : allOwned (pos.apply (.pass (nextSeat pos.turn))) = false := hfree
  have hend := endIfOver_eq h' now []
  simp only [hfree', Bool.false_eq_true, if_false, Game.raiseAll_nil, Option.map_some] at hend
  refine ⟨g', ?_, ?_, h'⟩
  · simp [Game.passTurnOnTimeout, hnotended, hpass, hend]
  · simp [hg']

theorem forfeit_spec (h : Represents roster n g pos) (playerID : ℤ) (now : Time) :
    ∃ g' winnerID, g.forfeit now playerID = some g' ∧
      g.raiseAll now [.gameForfeited ⟨playerID, winnerID⟩] = some g' ∧
      Represents roster n g' (pos.apply .finish) := by
  let winnerID := (g.players.foldl (Game.forfeitLeader playerID) (-1, none)).2
  obtain ⟨g', hg', h'⟩ := h.raise (.gameForfeited playerID winnerID) (by simp) now
  exact ⟨g', winnerID, hg', by rw [Game.raiseAll_cons, hg']; rfl, h'⟩

end DotsAndBoxes
