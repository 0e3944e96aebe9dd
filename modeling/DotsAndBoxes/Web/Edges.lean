import DotsAndBoxes.Bot.Lookahead
import DotsAndBoxes.Service.Requests
import DotsAndBoxes.Web.Cache
import DotsAndBoxes.Web.Replay

/-! # The copies of the board's edges

The server, the simulation of the bot, the page of a game and the replay viewer each set an edge
with code of their own, and the first three test whether it is free. The tests for the border
differ, and so do the names of the edges, but on every square board the boards come out the same.
So what the page shows before the answer to a move has the edges of the board of the server.
-/

namespace DotsAndBoxes.Web

open Slices Enclosure Game

variable {n : ℕ} {g g' : Game} {grid : List (List Box)} {boardSize row col : ℤ} {s : Side}
  {now : Time} {claim name : String}

/-- A grid with as many columns as rows. Its boxes may contradict each other. -/
def Square (n : ℕ) (grid : List (List Box)) : Prop :=
  grid.map List.length = List.replicate n n

/-- A board but for the owners of its boxes. -/
def drawn (grid : List (List Box)) : List (List Box) :=
  grid.map fun row => row.map fun box => { box with ownerTurn := none }

def claimEdgeNames : List String := ["top_edge", "left_edge", "right_edge", "bottom_edge"]

def edgeNames : List String := ["top", "right", "bottom", "left"]

structure OnBoard (boardSize row col : ℤ) : Prop where
  row_nonneg : 0 ≤ row
  row_lt : row < boardSize
  col_nonneg : 0 ≤ col
  col_lt : col < boardSize

def claimName : Side → String
  | .top => "top_edge"
  | .right => "right_edge"
  | .bottom => "bottom_edge"
  | .left => "left_edge"

theorem exists_side_of_claim {edge : EdgeType} (hclaim : claim ∈ claimEdgeNames)
    (hedge : parseEdge claim = .ok edge) : ∃ s : Side, edge = s.edge ∧ claim = claimName s := by
  simp only [claimEdgeNames, List.mem_cons, List.not_mem_nil, or_false] at hclaim
  rcases hclaim with rfl | rfl | rfl | rfl <;> obtain rfl := Except.ok.inj hedge
  · exact ⟨.top, rfl, rfl⟩
  · exact ⟨.left, rfl, rfl⟩
  · exact ⟨.right, rfl, rfl⟩
  · exact ⟨.bottom, rfl, rfl⟩

theorem name_of_side (hname : name ∈ edgeNames) (hedge : parseEdge name = .ok s.edge) :
    name = s.edge.toString := by
  simp only [edgeNames, List.mem_cons, List.not_mem_nil, or_false] at hname
  rcases hname with rfl | rfl | rfl | rfl <;> cases s <;> first | rfl | cases hedge

theorem bind_at2?_modify2? {α β : Type} (rows : List (List α)) (i j : ℤ) (f : α → α)
    (k : List (List α) → Option β) :
    ((at2? rows i j).bind fun _ => (modify2? rows i j f).bind k) =
      (modify2? rows i j f).bind k := by
  cases hmodify : modify2? rows i j f with
  | none => simp
  | some rows' =>
    obtain ⟨row, hrow, h⟩ := Option.bind_eq_some_iff.mp hmodify
    obtain ⟨row', hrow', -⟩ := Option.bind_eq_some_iff.mp h
    unfold modify? at hrow'
    split at hrow'
    case isFalse => cases hrow'
    case isTrue hj =>
      have hat : at2? rows i j = some row[j.toNat] := by
        rw [at2?, hrow]
        exact (if_pos hj.1).trans (List.getElem?_eq_getElem hj.2)
      rw [hat]
      rfl

theorem set_of_onBoard (h : OnBoard boardSize row col) (claim : Box → Box) :
    set boardSize row col claim grid = modify2? grid row col claim := by
  obtain ⟨hr, hr', hc, hc'⟩ := h
  exact if_neg (by omega)

theorem set_of_not_onBoard (h : ¬ OnBoard boardSize row col) (claim : Box → Box) :
    set boardSize row col claim grid = some grid := by
  refine if_pos ?_
  by_contra hin
  exact h ⟨by omega, by omega, by omega, by omega⟩

theorem hasNeighbor_iff_onBoard (h : OnBoard boardSize row col) (s : Side) :
    hasNeighbor boardSize row col s = true ↔
      OnBoard boardSize (getAdjacentBox row col s.edge).1 (getAdjacentBox row col s.edge).2 := by
  obtain ⟨hr, hr', hc, hc'⟩ := h
  constructor
  · intro hnext
    cases s <;> simp only [hasNeighbor, decide_eq_true_eq] at hnext <;>
      constructor <;> simp only [getAdjacentBox, Side.edge] <;> omega
  · rintro ⟨h₁, h₂, h₃, h₄⟩
    cases s <;> simp only [getAdjacentBox, Side.edge] at h₁ h₂ h₃ h₄ <;>
      simp only [hasNeighbor, decide_eq_true_eq] <;> omega

theorem applyClaimEdge_side (grid : List (List Box)) (boardSize row col : ℤ) (s : Side) :
    applyClaimEdge grid boardSize row col (claimName s) =
      (set boardSize row col (·.setSide s) grid).bind
        (set boardSize (getAdjacentBox row col s.edge).1 (getAdjacentBox row col s.edge).2
          (·.setSide s.opposite)) := by
  cases s <;> rfl

theorem applyClaimEdge_eq_markEdge (h : OnBoard boardSize row col) (s : Side) :
    applyClaimEdge grid boardSize row col (claimName s) =
      markEdge grid boardSize row col s.edge := by
  rw [applyClaimEdge_side, set_of_onBoard h, markEdge_side, bind_at2?_modify2?]
  congr 1
  funext marked
  have hiff := hasNeighbor_iff_onBoard h s
  by_cases hnext : hasNeighbor boardSize row col s = true
  · rw [set_of_onBoard (hiff.mp hnext), if_pos hnext]
  · rw [set_of_not_onBoard (mt hiff.mpr hnext), if_neg hnext]

theorem Square.exists_box (h : Square n grid) (c : Cell n) :
    ∃ box, at2? grid c.1.val c.2.val = some box := by
  have hlen : grid.length = n := by simpa [Square] using congrArg List.length h
  have hr : c.1.val < grid.length := hlen ▸ c.1.isLt
  have hrow : grid[c.1.val].length = n := by
    have hget := List.getElem_of_eq h (i := c.1.val) (by simpa using hr)
    simpa using hget
  have hc : c.2.val < grid[c.1.val].length := by
    rw [hrow]
    exact c.2.isLt
  refine ⟨grid[c.1.val][c.2.val], ?_⟩
  simp [at2?, List.getElem?_eq_getElem hr, List.getElem?_eq_getElem hc]

theorem OnBoard.exists_cell (h : OnBoard n row col) :
    ∃ c : Cell n, row = c.1.val ∧ col = c.2.val := by
  obtain ⟨hr, hr', hc, hc'⟩ := h
  lift row to ℕ using hr
  lift col to ℕ using hc
  exact ⟨(⟨row, by omega⟩, ⟨col, by omega⟩), rfl, rfl⟩

def owners (grid : List (List Box)) : List (List (Option ℤ)) := grid.map (List.map (·.ownerTurn))

theorem Square.markEdge (h : Square n grid) (hin : OnBoard n row col) (s : Side) :
    ∃ marked, markEdge grid n row col s.edge = some marked ∧ Square n marked ∧
      owners marked = owners grid := by
  obtain ⟨c, rfl, rfl⟩ := hin.exists_cell
  choose view hview using h.exists_box
  obtain ⟨marked, hmark, -⟩ := markEdge_view hview c s
  refine ⟨marked, hmark, (map_length_of_markEdge hmark).trans h, map_of_markEdge ?_ hmark⟩
  intro s j row row' hmodify
  exact map_modify? hmodify fun box _ => box.ownerTurn_setSide s

theorem isEdgeFree_side (hat : ∀ c : Cell n, ∃ box, at2? grid c.1.val c.2.val = some box)
    (row col : ℤ) (s : Side) : ∃ free, isEdgeFree grid n row col (claimName s) = some free ∧
      isEdgeAvailableSim grid n row col s.edge = some free := by
  by_cases hin : OnBoard n row col
  · obtain ⟨c, rfl, rfl⟩ := hin.exists_cell
    obtain ⟨box, hbox⟩ := hat c
    obtain ⟨boxes, hrow, hcol⟩ := Option.bind_eq_some_iff.mp hbox
    unfold isEdgeAvailableSim isEdgeFree
    have hborder : ¬ ((c.1.val : ℤ) < 0 ∨ (c.1.val : ℤ) ≥ n ∨ (c.2.val : ℤ) < 0 ∨
        (c.2.val : ℤ) ≥ n) := by omega
    rw [if_neg hborder, if_neg hborder, hbox, hrow, Option.map_some, hcol]
    cases s <;> exact ⟨_, rfl, rfl⟩
  · have hborder : row < 0 ∨ row ≥ n ∨ col < 0 ∨ col ≥ n := by
      by_contra hout
      exact hin ⟨by omega, by omega, by omega, by omega⟩
    unfold isEdgeAvailableSim isEdgeFree
    rw [if_pos hborder, if_pos hborder]
    exact ⟨false, rfl, rfl⟩

theorem isEdgeAvailable_eq (g : Game) (row col : ℤ) (edge : EdgeType) :
    g.isEdgeAvailable row col edge = isEdgeAvailableSim g.grid g.boardSize row col edge := by
  unfold Game.isEdgeAvailable isEdgeAvailableSim
  exact if_congr decide_eq_true_iff rfl rfl

/-- A payload that draws no board and no edge. -/
def Quiet (p : Payload) : Prop := (∀ c, p ≠ .gameCreated c) ∧ ∀ m, p ≠ .moveApplied m

/-- After the claim of its edge, an accepted move raises no payload that draws. -/
theorem records_of_applyMove {move : Move} {result : MoveResult}
    (h : g.applyMove now move = some (g', .ok result)) :
    ∃ g₁, g.validateMove move = some (.ok ()) ∧ g.raise now .moveApplied (.moveApplied
      ⟨move.turnOrder, move.row, move.col, move.edge.toString⟩) = some g₁ ∧
      Records Quiet now g₁ g' := by
  obtain ⟨g₁, boxes, g₂, g₃, hvalid, hmoved, -, hcompleted, hpassed, hended⟩ := applyMove_eq_ok h
  rw [raiseCompleted_eq] at hcompleted
  have h₂ : Records Quiet now g₁ g₂ := ⟨_, by simp [Quiet], hcompleted⟩
  have h₃ : Records Quiet now g₂ g₃ := by
    unfold Game.passUnlessCompleted at hpassed
    split at hpassed
    · obtain ⟨next, -, hraise⟩ := Option.bind_eq_some_iff.mp hpassed
      exact records_of_raise (p := .turnPassed ⟨next⟩) (by simp [Quiet]) hraise
    · obtain rfl := Option.some.inj hpassed
      exact .refl g₂
  have h₄ : Records Quiet now g₃ g' := by
    rcases (endIfOver_eq_some hended).2 with ⟨rfl, -⟩ | ⟨hraise, -⟩
    · exact .refl g'
    · exact records_of_raise (p := .gameEnded _) (by simp [Quiet]) hraise
  exact ⟨g₁, hvalid, hmoved, (h₂.trans h₃).trans h₄⟩

theorem drawn_of_records (h : Records Quiet now g g') : drawn g'.grid = drawn g.grid := by
  obtain ⟨payloads, hquiet, hraise⟩ := h
  refine raiseAll_frame (v := fun g => drawn g.grid) (fun _ _ => rfl) ?_ hraise
  intro p hp g₁ g₂ happlied
  cases happlied with
  | gameCreated => exact absurd rfl ((hquiet _ hp).1 _)
  | moveApplied => exact absurd rfl ((hquiet _ hp).2 _)
  | boxCompleted hgrid => exact map_modify2? hgrid fun _ _ hrow => map_modify? hrow fun _ _ => rfl
  | _ => rfl

theorem drawn_of_applyMove {move : Move} {result : MoveResult} (hedge : move.edge = s.edge)
    (h : g.applyMove now move = some (g', .ok result)) :
    OnBoard g.boardSize move.row move.col ∧ ∃ marked,
      markEdge g.grid g.boardSize move.row move.col s.edge = some marked ∧
      drawn g'.grid = drawn marked := by
  obtain ⟨g₁, hvalid, hmoved, hrest⟩ := records_of_applyMove h
  have hin := (validateMove_eq_ok hvalid).2.1
  simp only [Game.outside, decide_eq_false_iff_not] at hin
  refine ⟨⟨by omega, by omega, by omega, by omega⟩, ?_⟩
  obtain ⟨g₂, happlied, rfl⟩ := applied_of_raise (p := .moveApplied _) hmoved
  cases happlied with
  | moveApplied hmark =>
    rw [hedge, Side.ofString_toString_edge] at hmark
    exact ⟨_, hmark, drawn_of_records hrest⟩

theorem grid_handleClick {user : ℤ} {page : RouteComponent} {click : Click}
    (hgame : page.gameState.game = g)
    (hclaim : applyClaimEdge g.grid g.boardSize click.row click.col click.edge = some grid) :
    page.handleClick user click = page ∨
      (page.handleClick user click).gameState.game.grid = grid := by
  subst hgame
  unfold RouteComponent.handleClick
  simp only [hclaim]
  split_ifs
  · exact .inl rfl
  · exact .inl rfl
  · exact .inl rfl
  · exact .inl rfl
  · exact .inl rfl
  · exact .inr rfl

/-- On every square board, for each edge under its names, the four setters make the same board
and leave its owners, and the three tests agree everywhere. So the board that a page shows after
a click is the board of the server after the same move, but for the owners. -/
theorem edge_copies_agree (hsize : g.boardSize = n) (hsquare : Square n g.grid) {edge : EdgeType}
    (hclaim : claim ∈ claimEdgeNames) (hname : name ∈ edgeNames)
    (hparse : parseEdge claim = .ok edge) (hparse' : parseEdge name = .ok edge) :
    (∀ row col : ℤ, OnBoard n row col → ∃ marked,
      g.setEdge row col edge = some { g with grid := marked } ∧
      applyEdgeToSimGrid g.grid n row col edge = some marked ∧
      applyClaimEdge g.grid n row col claim = some marked ∧
      setEdge g.grid n row col (edgeNameToField name) = some marked ∧
      Square n marked ∧ owners marked = owners g.grid) ∧
    (∀ row col : ℤ, ∃ free, isEdgeFree g.grid n row col claim = some free ∧
      g.isEdgeAvailable row col edge = some free ∧
      isEdgeAvailableSim g.grid n row col edge = some free) ∧
    (∀ now move g' result, move.edge = edge → g.applyMove now move = some (g', .ok result) →
      ∃ shown, applyClaimEdge g.grid n move.row move.col claim = some shown ∧
        drawn shown = drawn g'.grid ∧
        ∀ user playerID (page : RouteComponent), page.gameState.game = g →
          page.handleClick user ⟨playerID, move.row, move.col, claim⟩ = page ∨
          (page.handleClick user ⟨playerID, move.row, move.col, claim⟩).gameState.game.grid =
            shown) := by
  obtain ⟨s, rfl, rfl⟩ := exists_side_of_claim hclaim hparse
  obtain rfl := name_of_side hname hparse'
  refine ⟨fun row col hin => ?_, fun row col => ?_, fun now move g' result hedge h => ?_⟩
  · obtain ⟨marked, hmark, hsquare', howners⟩ := hsquare.markEdge hin s
    refine ⟨marked, ?_, ?_, ?_, ?_, hsquare', howners⟩
    · rw [Game.setEdge, hsize, hmark]
      rfl
    · rw [applyEdgeToSimGrid_eq, hmark]
    · rw [applyClaimEdge_eq_markEdge hin, hmark]
    · rw [setEdge_eq_markEdge, hmark]
  · obtain ⟨free, hfree, hsim⟩ := isEdgeFree_side hsquare.exists_box row col s
    exact ⟨free, hfree, by rw [isEdgeAvailable_eq, hsize, hsim], hsim⟩
  · obtain ⟨hin, marked, hmark, hsame⟩ := drawn_of_applyMove hedge h
    have hshown : applyClaimEdge g.grid g.boardSize move.row move.col (claimName s) = some marked :=
      (applyClaimEdge_eq_markEdge hin s).trans hmark
    exact ⟨marked, hsize ▸ hshown, hsame.symm, fun _ _ _ hgame => grid_handleClick hgame hshown⟩

theorem edge_copies_agree_duel : ∃ shown,
    applyClaimEdge duelStart.grid 2 0 0 "bottom_edge" = some shown ∧
      drawn shown = drawn duelOpening.grid := by
  have hmove : duelStart.applyMove 1 ⟨0, 0, 0, .bottom⟩ =
      some (duelOpening, .ok ⟨[], 1, false, none⟩) := by decide
  have hsize : duelStart.boardSize = (2 : ℕ) := rfl
  have hclaim : "bottom_edge" ∈ claimEdgeNames := by decide
  have hname : "bottom" ∈ edgeNames := by decide
  obtain ⟨-, -, hboard⟩ := edge_copies_agree hsize rfl hclaim hname rfl rfl
  obtain ⟨shown, hshown, hsame, -⟩ := hboard 1 ⟨0, 0, 0, .bottom⟩ _ _ rfl hmove
  exact ⟨shown, hshown, hsame⟩

end DotsAndBoxes.Web
