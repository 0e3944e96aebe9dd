import DotsAndBoxes.Library.Runs
import DotsAndBoxes.Web.State

/-! # The cached game in the browser

The page of a game keeps one cached game, and three writers overwrite it: a click claims a
segment before the server has answered, the answer of the move replaces or rolls back what the
click has done, and the server pushes states of the game. None of them looks at which state is
newer, so the cache stays at the newest state exactly as long as the states come in order and
no move fails after a newer state has come.
-/

namespace DotsAndBoxes.Web

open Slices Runs

/-- A box that is missing in its row is not free. A row that is missing throws. -/
def isEdgeFree (grid : List (List Box)) (boardSize row col : ℤ) (edge : String) : Exec Bool :=
  if row < 0 ∨ row ≥ boardSize ∨ col < 0 ∨ col ≥ boardSize then some false
  else (at? grid row).map fun boxes =>
    match at? boxes col with
    | none => false
    | some box =>
      match edge with
      | "top_edge" => !box.topEdge
      | "bottom_edge" => !box.bottomEdge
      | "left_edge" => !box.leftEdge
      | "right_edge" => !box.rightEdge
      | _ => false

/-- Set an edge of a box on the board. A box that does not exist throws. -/
def set (boardSize r c : ℤ) (claim : Box → Box) (g : List (List Box)) : Exec (List (List Box)) :=
  if r < 0 ∨ r ≥ boardSize ∨ c < 0 ∨ c ≥ boardSize then some g else modify2? g r c claim

def applyClaimEdge (grid : List (List Box)) (boardSize row col : ℤ) (edge : String) :
    Exec (List (List Box)) :=
  let top (box : Box) : Box := { box with topEdge := true }
  let bottom (box : Box) : Box := { box with bottomEdge := true }
  let left (box : Box) : Box := { box with leftEdge := true }
  let right (box : Box) : Box := { box with rightEdge := true }
  match edge with
  | "top_edge" => (set boardSize row col top grid).bind (set boardSize (row - 1) col bottom)
  | "bottom_edge" => (set boardSize row col bottom grid).bind (set boardSize (row + 1) col top)
  | "left_edge" => (set boardSize row col left grid).bind (set boardSize row (col - 1) right)
  | "right_edge" => (set boardSize row col right grid).bind (set boardSize row (col + 1) left)
  | _ => some grid

/-- A state of the game that the server has sent, as the page keeps it. Nothing in the page
depends on the version, which is the number of the state among those of the game. -/
structure Cached where
  version : ℕ
  game : Game

structure Click where
  playerID : ℤ
  row : ℤ
  col : ℤ
  edge : String

structure RouteComponent where
  gameState : Cached
  isProcessingMove : Bool
  /-- What the cache held at the click whose move has no answer yet. -/
  before : Option Cached
  /-- The newest version that was received. Nothing in the page depends on it. -/
  newest : ℕ

namespace RouteComponent

/-- The page after a click of the user. The game is finished when the browser takes it so. -/
def handleClick (user : ℤ) (click : Click) (page : RouteComponent) : RouteComponent :=
  let before := page.gameState
  let turnPlayer := before.game.players.find? (·.turnOrder = before.game.currentTurn)
  if page.isProcessingMove then page
  else if before.game.winnerID.isSome || before.game.fullyOwned then page
  else if turnPlayer.bind (·.userID) ≠ some user then page
  else if click.playerID ≠ user then page
  -- also when the test throws, before anything is set
  else if isEdgeFree before.game.grid before.game.boardSize click.row click.col click.edge ≠
    some true then page
  else
    match applyClaimEdge before.game.grid before.game.boardSize click.row click.col click.edge with
    | none => { page with isProcessingMove := true }
    | some grid =>
      { page with
        gameState := { before with game := { before.game with grid } }
        isProcessingMove := true
        before := some before }

def setQueryData (state : Cached) (page : RouteComponent) : RouteComponent :=
  { page with gameState := state, newest := max page.newest state.version }

def load (state : Cached) : RouteComponent := ⟨state, false, none, state.version⟩

inductive Act where
  | click (click : Click)
  /-- A state that the server pushes comes in. -/
  | gameState (version : ℕ)
  /-- The answer of a move that succeeded comes in. -/
  | response (version : ℕ)
  /-- The move has failed. -/
  | error

/-- A step of the page, with the states of the game that the server goes through. -/
inductive Step (history : ℕ → Game) (user : ℤ) : RouteComponent → Act → RouteComponent → Prop where
  | click {page click} : Step history user page (.click click) (page.handleClick user click)
  | gameState {page version} : Step history user page (.gameState version)
      (page.setQueryData ⟨version, history version⟩)
  | response {page before version} (hbefore : page.before = some before) :
      Step history user page (.response version)
        { page.setQueryData ⟨version, history version⟩ with isProcessingMove := false, before := none }
  | error {page before} (hbefore : page.before = some before) :
      Step history user page .error
        { page with gameState := before, isProcessingMove := false, before := none }

/-- The cache is made from the newest state that was received, and is that state if no move is
without an answer. -/
structure Current (history : ℕ → Game) (page : RouteComponent) : Prop where
  version : page.gameState.version = page.newest
  game : page.before = none → page.gameState.game = history page.newest

/-- A state comes in after older ones only, and a move fails before a newer state has come in. -/
def InOrder (page : RouteComponent) : Act → Prop
  | .click _ => True
  | .gameState version | .response version => page.newest ≤ version
  | .error => ∀ before, page.before = some before → before.version = page.newest

structure Kept (history : ℕ → Game) (page : RouteComponent) : Prop where
  current : Current history page
  before : ∀ before, page.before = some before →
    page.isProcessingMove = true ∧ before.game = history before.version

variable {history : ℕ → Game} {user : ℤ} {page page' : RouteComponent} {a : Act}
  {run : List (Act × RouteComponent)}

theorem handleClick_cases (user : ℤ) (click : Click) (page : RouteComponent) :
    page.handleClick user click = page ∨
      page.handleClick user click = { page with isProcessingMove := true } ∨
      page.isProcessingMove = false ∧ ∃ grid, page.handleClick user click =
        { page with
          gameState := { page.gameState with game := { page.gameState.game with grid } }
          isProcessingMove := true
          before := some page.gameState } := by
  unfold handleClick
  cases hprocessing : page.isProcessingMove with
  | true => exact .inl rfl
  | false =>
    simp only [Bool.false_eq_true, if_false]
    split_ifs
    · exact .inl rfl
    · exact .inl rfl
    · exact .inl rfl
    · exact .inl rfl
    · split
      · exact .inr (.inl rfl)
      · exact .inr (.inr ⟨trivial, _, rfl⟩)

theorem Kept.handleClick (h : Kept history page) (user : ℤ) (click : Click) :
    Kept history (page.handleClick user click) := by
  rcases handleClick_cases user click page with heq | heq | ⟨hidle, grid, heq⟩ <;> rw [heq]
  · exact h
  · exact ⟨⟨h.current.version, h.current.game⟩, fun before hbefore =>
      ⟨rfl, (h.before before hbefore).2⟩⟩
  · have hnone : page.before = none := by
      rw [Option.eq_none_iff_forall_ne_some]
      rintro before hbefore
      rw [(h.before before hbefore).1] at hidle
      cases hidle
    constructor
    · exact ⟨h.current.version, nofun⟩
    · rintro before hbefore
      obtain rfl := Option.some.inj hbefore
      exact ⟨rfl, (h.current.game hnone).trans (h.current.version ▸ rfl)⟩

/-- A page that has received a state is at the newest state if it has received no newer one. -/
theorem current_of_received {version : ℕ}
    (hstate : page'.gameState = ⟨version, history version⟩)
    (hnewest : page'.newest = max page.newest version) :
    Current history page' ↔ page.newest ≤ version := by
  have hmax : version = max page.newest version ↔ page.newest ≤ version := by omega
  rw [← hmax]
  constructor
  · intro h
    have hversion := h.version
    rwa [hstate, hnewest] at hversion
  · intro heq
    constructor
    · rwa [hstate, hnewest]
    · intro _
      rw [hstate, hnewest, ← heq]

theorem Kept.step (h : Kept history page) (hstep : Step history user page a page') :
    (Current history page' ↔ InOrder page a) ∧ (InOrder page a → Kept history page') := by
  cases hstep with
  | @click click =>
    have hclick := h.handleClick user click
    exact ⟨iff_of_true hclick.current trivial, fun _ => hclick⟩
  | @gameState version =>
    have hreceived : Current history (page.setQueryData ⟨version, history version⟩) ↔
        page.newest ≤ version := current_of_received rfl rfl
    exact ⟨hreceived, fun hle => ⟨hreceived.mpr hle, h.before⟩⟩
  | @response before version hbefore =>
    have hreceived : Current history
        { page.setQueryData ⟨version, history version⟩ with
          isProcessingMove := false, before := none } ↔ page.newest ≤ version :=
      current_of_received rfl rfl
    exact ⟨hreceived, fun hle => ⟨hreceived.mpr hle, nofun⟩⟩
  | @error before hbefore =>
    have hgame := (h.before before hbefore).2
    have hsame : InOrder page .error ↔ before.version = page.newest := by
      simp [InOrder, hbefore]
    rw [hsame]
    constructor
    · constructor
      · exact fun hcurrent => hcurrent.version
      · rintro heq
        exact ⟨heq, fun _ => heq ▸ hgame⟩
    · rintro heq
      exact ⟨⟨heq, fun _ => heq ▸ hgame⟩, nofun⟩

/-- The cache is at the newest state throughout exactly when states come in order and no move
fails after a newer state has come. -/
theorem cache_is_newest_iff (version : ℕ)
    (hrun : Along (Step history user) (load ⟨version, history version⟩) run) :
    (∀ page ∈ visited (load ⟨version, history version⟩) run, Current history page) ↔
      Along (fun page a _ => InOrder page a) (load ⟨version, history version⟩) run := by
  have hload : Current history (load ⟨version, history version⟩) := ⟨rfl, fun _ => rfl⟩
  apply visited_good_iff (Kept history) hrun hload ⟨hload, nofun⟩
  · rintro page a page' h hstep
    exact (h.step hstep).1
  · rintro page a page' h hstep hin
    exact (h.step hstep).2 hin

def firstClick : Click := ⟨7, 0, 0, "bottom_edge"⟩

def opening (v : ℕ) : Game := if v = 0 then duelStart else duelOpening

theorem cache_is_newest_iff_opening : ∃ page : RouteComponent,
    page.gameState = ⟨1, duelOpening⟩ ∧ Current opening page := by
  set clicked := (load ⟨0, opening 0⟩).handleClick 7 firstClick with hclicked
  have hbefore : clicked.before = some ⟨0, opening 0⟩ := rfl
  have hclick : Step opening 7 (load ⟨0, opening 0⟩) (.click firstClick) clicked := .click
  have hanswer : Step opening 7 clicked (.response 1) _ := .response hbefore
  have hrun : Along (Step opening 7) (load ⟨0, opening 0⟩) [(_, clicked), (_, _)] :=
    ⟨hclick, hanswer, trivial⟩
  have hnewest : clicked.newest ≤ 1 := by decide
  exact ⟨_, rfl, (cache_is_newest_iff 0 hrun).mpr ⟨trivial, hnewest, trivial⟩ _
    (last_mem_visited _ _)⟩

/-- The server passes the turn as the clock runs out, and refuses the move that was under way. -/
def clockRunsOut (v : ℕ) : Game :=
  if v = 0 then duelStart else ((duelStart.passTurnOnTimeout 1).map Prod.fst).getD {}

theorem rollback_shows_old_turn : ∃ run, Along (Step clockRunsOut 7) (load ⟨0, clockRunsOut 0⟩) run ∧
    run.map Prod.fst = [.click firstClick, .gameState 1, .error] ∧
    (last (load ⟨0, clockRunsOut 0⟩) run).gameState = ⟨0, clockRunsOut 0⟩ ∧
    (clockRunsOut 0).currentTurn = 0 ∧ (clockRunsOut 1).currentTurn = 1 ∧
    ¬ ∀ page ∈ visited (load ⟨0, clockRunsOut 0⟩) run, Current clockRunsOut page := by
  set clicked := (load ⟨0, clockRunsOut 0⟩).handleClick 7 firstClick
  set passed := clicked.setQueryData ⟨1, clockRunsOut 1⟩
  have hbefore : passed.before = some ⟨0, clockRunsOut 0⟩ := rfl
  have hclick : Step clockRunsOut 7 (load ⟨0, clockRunsOut 0⟩) (.click firstClick) clicked := .click
  have hpassed : Step clockRunsOut 7 clicked (.gameState 1) passed := .gameState
  have hrefused : Step clockRunsOut 7 passed .error _ := .error hbefore
  refine ⟨[(_, clicked), (_, passed), (_, _)], ⟨hclick, hpassed, hrefused, trivial⟩, rfl, rfl, by decide,
    by decide, fun h => ?_⟩
  have hversion := (h _ (last_mem_visited _ _)).version
  exact absurd hversion (by decide)

end RouteComponent

end DotsAndBoxes.Web
