import DotsAndBoxes.Game.Board
import DotsAndBoxes.Game.Events

/-! # The grid refines the physical board

The grid stores an interior segment twice, once in each adjacent box. A game
represents a position of the physical board when every box shows the claimed
segments around it and its owner, and the scores count the owned boxes. Each
event then performs one act on the position, and a command performs the acts of
the events it raises.
-/

namespace DotsAndBoxes

open Slices Enclosure

variable {n : ℕ} {roster : List Player}

def Side.edge : Side → EdgeType
  | .top => .top
  | .right => .right
  | .bottom => .bottom
  | .left => .left

@[simp] theorem Side.ofString_toString_edge (s : Side) : EdgeType.ofString s.edge.toString = s.edge := by
  cases s <;> rfl

def Box.edge (box : Box) : Side → Bool
  | .top => box.topEdge
  | .right => box.rightEdge
  | .bottom => box.bottomEdge
  | .left => box.leftEdge

def Box.setSide (box : Box) : Side → Box
  | .top => { box with topEdge := true }
  | .right => { box with rightEdge := true }
  | .bottom => { box with bottomEdge := true }
  | .left => { box with leftEdge := true }

theorem Box.ext_edge {a b : Box} (hrow : a.row = b.row) (hcol : a.col = b.col)
    (hedge : ∀ s, a.edge s = b.edge s) (howner : a.ownerTurn = b.ownerTurn) : a = b := by
  have htop := hedge .top
  have hright := hedge .right
  have hbottom := hedge .bottom
  have hleft := hedge .left
  cases a; cases b
  simp_all [Box.edge]

@[simp] theorem Box.edge_setSide (box : Box) (s t : Side) :
    (box.setSide s).edge t = (decide (t = s) || box.edge t) := by
  cases s <;> cases t <;> simp [Box.edge, Box.setSide]

@[simp] theorem Box.row_setSide (box : Box) (s : Side) : (box.setSide s).row = box.row := by
  cases s <;> rfl

@[simp] theorem Box.col_setSide (box : Box) (s : Side) : (box.setSide s).col = box.col := by
  cases s <;> rfl

@[simp] theorem Box.ownerTurn_setSide (box : Box) (s : Side) :
    (box.setSide s).ownerTurn = box.ownerTurn := by
  cases s <;> rfl

def boxView {k : ℕ} (pos : BoardPosition n k) (c : Cell n) : Box where
  row := c.1.val
  col := c.2.val
  topEdge := decide (Segment.of c .top ∈ pos.claimed)
  rightEdge := decide (Segment.of c .right ∈ pos.claimed)
  bottomEdge := decide (Segment.of c .bottom ∈ pos.claimed)
  leftEdge := decide (Segment.of c .left ∈ pos.claimed)
  ownerTurn := (pos.owner c).map fun t => (t.val : ℤ)

@[simp] theorem edge_boxView {k : ℕ} (pos : BoardPosition n k) (c : Cell n) (s : Side) :
    (boxView pos c).edge s = decide (Segment.of c s ∈ pos.claimed) := by
  cases s <;> rfl

def held {k : ℕ} (pos : BoardPosition n k) (t : Fin k) : ℕ :=
  (Finset.univ.filter fun c => pos.owner c = some t).card

/-- The seat of the roster with the boxes it owns added to its score. -/
def seatView (roster : List Player) (pos : BoardPosition n roster.length)
    (t : Fin roster.length) : Player :=
  { roster.get t with score := (roster.get t).score + held pos t }

/-- A game shows the boxes, the scores, the turn and the end of a position. -/
structure Represents (roster : List Player) (n : ℕ) (g : Game)
    (pos : BoardPosition n roster.length) : Prop where
  boardSize : g.boardSize = n
  turn : g.currentTurn = pos.turn.val
  ended : g.endedAt.isSome = pos.ended
  box : ∀ c : Cell n, at2? g.grid c.1 c.2 = some (boxView pos c)
  length : g.players.length = roster.length
  player : ∀ t : Fin roster.length, at? g.players t.val = some (seatView roster pos t)

variable {g : Game} {pos : BoardPosition n roster.length}

theorem modify2?_view {rows : List (List Box)} {view : Cell n → Box}
    (h : ∀ d : Cell n, at2? rows d.1 d.2 = some (view d)) (c : Cell n) (f : Box → Box) :
    ∃ rows', modify2? rows c.1 c.2 f = some rows' ∧
      ∀ d : Cell n, at2? rows' d.1 d.2 = some (Function.update view c (f (view c)) d) := by
  obtain ⟨rows', hrows', hc, hother⟩ := modify2?_of_at2? (h c) f
  refine ⟨rows', hrows', fun d => ?_⟩
  by_cases hd : d = c
  · subst hd; simpa using hc
  · rw [hother _ _ (by simpa [Prod.ext_iff, Fin.ext_iff] using hd), h d, Function.update_of_ne hd]

/-- The view of the grid after `setEdge`: the side is set in the box and in the box across. -/
def setSideView (view : Cell n → Box) (c : Cell n) (s : Side) (d : Cell n) : Box :=
  if d = c then (view d).setSide s
  else if across c s = some d then (view d).setSide s.opposite
  else view d

theorem setSideView_boxView (c : Cell n) (s : Side) :
    setSideView (boxView pos) c s = boxView (pos.apply (.mark (Segment.of c s))) := by
  funext d
  have hedge (t : Side) : (setSideView (boxView pos) c s d).edge t =
      (boxView (pos.apply (.mark (Segment.of c s))) d).edge t := by
    rw [edge_boxView, Bool.eq_iff_iff, decide_eq_true_eq]
    simp only [Position.apply, Finset.mem_insert, segment_of_eq_iff]
    unfold setSideView
    split_ifs with hd ha
    · subst hd; simp [across_ne_self]
    · simp [hd, ha]
    · simp [hd, ha]
  apply Box.ext_edge _ _ hedge
  all_goals unfold setSideView; split_ifs <;> simp [boxView, Position.apply]

def hasNeighbor (boardSize row col : ℤ) : Side → Bool
  | .top => row > 0
  | .right => col < boardSize - 1
  | .bottom => row < boardSize - 1
  | .left => col > 0

theorem markEdge_side (grid : List (List Box)) (boardSize row col : ℤ) (s : Side) :
    Game.markEdge grid boardSize row col s.edge = (at2? grid row col).bind fun _ =>
      (modify2? grid row col (·.setSide s)).bind fun grid =>
        let adjacent := Game.getAdjacentBox row col s.edge
        if hasNeighbor boardSize row col s then
          modify2? grid adjacent.1 adjacent.2 (·.setSide s.opposite)
        else some grid := by
  cases s <;>
    simp [Game.markEdge, Side.edge, Side.opposite, hasNeighbor, Game.getAdjacentBox, Box.setSide]

theorem getAdjacentBox_of_across {c d : Cell n} {s : Side} (h : across c s = some d) :
    Game.getAdjacentBox c.1.val c.2.val s.edge = (↑d.1.val, ↑d.2.val) := by
  cases s <;> simp only [across, Option.dite_none_right_eq_some, Option.some.injEq] at h <;>
    obtain ⟨hlt, rfl⟩ := h <;> simp [Side.edge, Game.getAdjacentBox] <;> omega

theorem hasNeighbor_iff {c : Cell n} {s : Side} :
    hasNeighbor n c.1.val c.2.val s = (across c s).isSome := by
  cases s <;> simp only [hasNeighbor, across] <;> split_ifs <;> simp <;> omega

theorem markEdge_view {rows : List (List Box)} {view : Cell n → Box}
    (h : ∀ d : Cell n, at2? rows d.1 d.2 = some (view d)) (c : Cell n) (s : Side) :
    ∃ grid, Game.markEdge rows n c.1.val c.2.val s.edge = some grid ∧
      ∀ d : Cell n, at2? grid d.1.val d.2.val = some (setSideView view c s d) := by
  obtain ⟨grid₁, h₁, hview₁⟩ := modify2?_view h c (·.setSide s)
  rw [markEdge_side, h c, h₁, hasNeighbor_iff]
  cases ha : across c s with
  | none =>
    refine ⟨grid₁, by simp, fun d => ?_⟩
    rw [hview₁ d]
    by_cases hd : d = c
    · subst hd; simp [setSideView]
    · simp [setSideView, hd, ha]
  | some e =>
    obtain ⟨grid₂, h₂, hview₂⟩ := modify2?_view hview₁ e (·.setSide s.opposite)
    refine ⟨grid₂, by simp [getAdjacentBox_of_across ha, h₂], fun d => ?_⟩
    have hec : e ≠ c := by rintro rfl; exact across_ne_self _ _ ha
    rw [hview₂ d]
    by_cases hd : d = c
    · subst hd; simp [setSideView, Function.update_of_ne hec.symm]
    · by_cases he : d = e
      · subst he; simp [setSideView, hd, ha]
      · simp [setSideView, hd, ha, Ne.symm he, Function.update_of_ne he]

/-- The act a payload performs. Every payload of a command performs one. -/
inductive Denotes (n k : ℕ) : Payload → Act (Segment n) (Cell n) (Fin k) → Prop where
  | moveApplied (turnOrder : ℤ) (c : Cell n) (s : Side) :
      Denotes n k (.moveApplied ⟨turnOrder, c.1.val, c.2.val, s.edge.toString⟩)
        (.mark (Segment.of c s))
  | boxCompleted (c : Cell n) (t : Fin k) :
      Denotes n k (.boxCompleted ⟨c.1.val, c.2.val, t.val⟩) (.own c t)
  | turnPassed (t : Fin k) : Denotes n k (.turnPassed ⟨t.val⟩) (.pass t)
  | gameEnded (winnerID : Option ℤ) : Denotes n k (.gameEnded ⟨winnerID⟩) .finish
  | gameForfeited (forfeitedBy : ℤ) (winnerID : Option ℤ) :
      Denotes n k (.gameForfeited ⟨forfeitedBy, winnerID⟩) .finish

theorem held_own {c : Cell n} (hfree : pos.owner c = none) (t u : Fin roster.length) :
    held (pos.apply (.own c t)) u = held pos u + if u = t then 1 else 0 := by
  have hmem (d : Cell n) : (pos.apply (.own c t)).owner d = some u ↔
      (d = c ∧ u = t) ∨ pos.owner d = some u := by
    by_cases hd : d = c
    · subst hd; simp [Position.apply, hfree, eq_comm]
    · simp [Position.apply, hd]
  unfold held
  by_cases hu : u = t
  · have hset : (Finset.univ.filter fun d => (pos.apply (.own c t)).owner d = some u) =
        insert c (Finset.univ.filter fun d => pos.owner d = some u) := by
      ext d
      simp only [Finset.mem_filter, Finset.mem_univ, true_and, hmem, Finset.mem_insert]
      simp only [hu, and_true]
    rw [hset, Finset.card_insert_of_notMem (by simp [hfree]), if_pos hu]
  · simp only [hmem, hu, and_false, false_or, if_false, add_zero]

theorem boxView_own (c : Cell n) (t : Fin roster.length) :
    Function.update (boxView pos) c { boxView pos c with ownerTurn := some (t.val : ℤ) } =
      boxView (pos.apply (.own c t)) := by
  funext d
  by_cases hd : d = c
  · subst hd
    rw [Function.update_self]
    exact Box.ext_edge rfl rfl (fun s => by cases s <;> rfl) (by simp [boxView, Position.apply])
  · rw [Function.update_of_ne hd]
    exact Box.ext_edge rfl rfl (fun s => by cases s <;> rfl)
      (by simp [boxView, Position.apply, hd])

theorem seatView_own {c : Cell n} (hfree : pos.owner c = none) (t u : Fin roster.length) :
    seatView roster (pos.apply (.own c t)) u =
      if u = t then { seatView roster pos u with score := (seatView roster pos u).score + 1 }
      else seatView roster pos u := by
  unfold seatView
  rw [held_own hfree]
  split_ifs <;> simp [add_assoc]

theorem Represents.applyEvent (h : Represents roster n g pos) {event : DomainEvent}
    {act : Act (Segment n) (Cell n) (Fin roster.length)} (htype : event.type = event.payload.type)
    (hp : Denotes n roster.length event.payload act)
    (hfree : ∀ c t, act = .own c t → pos.owner c = none) :
    ∃ g', g.applyEvent event = some g' ∧ Represents roster n g' (pos.apply act) := by
  obtain ⟨type, occurredAt, aggregateID, version, payload⟩ := event
  dsimp only at htype hp
  subst htype
  cases hp with
  | moveApplied turnOrder c s =>
    obtain ⟨grid, hmark, hview⟩ := markEdge_view h.box c s
    refine ⟨Game.incrementVersion { g with grid },
      by simp [Game.applyEvent, Payload.type, Game.setEdge, h.boardSize, hmark], ?_⟩
    rw [setSideView_boxView] at hview
    exact ⟨h.boardSize, h.turn, h.ended, hview, h.length, h.player⟩
  | boxCompleted c t =>
    obtain ⟨grid, hgrid, hview⟩ := modify2?_view h.box c
      fun box => { box with ownerTurn := some (t.val : ℤ) }
    obtain ⟨players, hplayers, hlength, hat, hother⟩ := modify?_of_at? (h.player t)
      fun player => { player with score := player.score + 1 }
    refine ⟨Game.incrementVersion { g with grid, players },
      by simp [Game.applyEvent, Payload.type, hgrid, hplayers], ?_⟩
    refine ⟨h.boardSize, h.turn, h.ended, fun d => ?_, hlength.trans h.length, fun u => ?_⟩
    · rw [← boxView_own]; exact hview d
    · rw [seatView_own (hfree c t rfl)]
      by_cases hu : u = t
      · subst hu; rw [if_pos rfl]; exact hat
      · rw [if_neg hu, ← h.player u]
        exact hother _ (by simpa [Fin.ext_iff] using hu)
  | turnPassed t =>
    exact ⟨_, rfl, h.boardSize, rfl, h.ended, h.box, h.length, h.player⟩
  | gameEnded winnerID =>
    exact ⟨_, rfl, h.boardSize, h.turn, rfl, h.box, h.length, h.player⟩
  | gameForfeited forfeitedBy winnerID =>
    exact ⟨_, rfl, h.boardSize, h.turn, rfl, h.box, h.length, h.player⟩

end DotsAndBoxes
