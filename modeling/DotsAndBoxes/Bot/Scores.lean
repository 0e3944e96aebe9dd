import DotsAndBoxes.Bot.Chain
import DotsAndBoxes.Library.Sampling

/-! # The scores of a bot

A bot shuffles its candidates, keeps those that complete the most boxes, scores them and draws one
by its score. The scores are floating-point numbers and the draws come from a random generator, of
which nothing is assumed: whatever they are, the move is legal and completes as many boxes as any
legal move.
-/

namespace DotsAndBoxes

open Slices Enclosure Sampling

class Floating (F : Type) extends Add F, Sub F, Mul F, Div F where
  /-- The number nearest to a constant or to a converted integer. -/
  const : ℚ → F
  sqrt : F → F
  exp : F → F
  less : F → F → Bool
  lessEq : F → F → Bool
  isNaN : F → Bool
  isInf : F → Bool

structure BotProfile (F : Type) where
  captureWeight : F
  riskWeight : F
  chainWeight : F
  temperature : F
  noise : F

namespace BotAI

open Floating

variable {G F : Type} [Floating F]

def botSeatProfiles : ℤ → Option (BotProfile F)
  | -1 => some ⟨const 3.0, const 1.2, const 2.0, const 0.08, const 0.03⟩
  | -2 => some ⟨const 2.2, const 2.5, const 1.5, const 0.05, const 0.02⟩
  | -3 => some ⟨const 2.5, const 1.8, const 1.8, const 0.10, const 0.04⟩
  | _ => none

def defaultBotProfile : BotProfile F :=
  ⟨const 2.5, const 1.8, const 1.8, const 0.10, const 0.04⟩

def botProfileForTurn (g : Game) (turnOrder : ℤ) : BotProfile F :=
  match (at? g.players turnOrder).bind (·.userID) with
  | none => defaultBotProfile
  | some uid => if uid ≥ 0 then defaultBotProfile else (botSeatProfiles uid).getD defaultBotProfile

/-- The seed of the generator, from the game, the seat and the version. -/
def botSeed (g : Game) (turnOrder : ℤ) : BitVec 64 :=
  let ofGame : BitVec 64 := match g.gameID with
    | some id => .ofInt 64 id * 1000003#64
    | none => 0#64
  let ofSeat : BitVec 64 := match (at? g.players turnOrder).bind (·.userID) with
    | some uid => .ofInt 64 uid * 40013#64
    | none => 0#64
  ofGame ^^^ .ofInt 64 g.createdAt ^^^ ofSeat ^^^ .ofInt 64 g.version * 7919#64

def newBotRNG (rand : Generator G F) (g : Game) (turnOrder : ℤ) : G :=
  rand.new (botSeed g turnOrder)

def gridScale (g : Game) : F :=
  let total : F := const (g.boardSize * g.boardSize)
  if lessEq total (const 0) then const 1
  else
    let s := sqrt total
    if less s (const 1) then const 1 else s

def completedBoxCount (g : Game) : Exec ℕ := do
  let owned ← (positions g.boardSize).mapM fun p =>
    (at2? g.grid p.1 p.2).map fun box => box.ownerTurn.isSome
  return owned.count true

/-- The box has no owner, and three edges in the simulated grid. -/
def threeEdged (g : Game) (grid : List (List Box)) (row col : ℤ) : Exec Bool := do
  let box ← at2? g.grid row col
  if box.ownerTurn.isSome then return false
  else
    let b ← at2? grid row col
    return countEdgesSim b = 3

/-- How many boxes without an owner have three edges after the move. -/
def countUnclaimedBoxesWithThreeEdges (g : Game) (move : Move) : Exec ℕ := do
  let grid ← cloneEdgeGrid g
  let grid ← applyEdgeToSimGrid grid g.boardSize move.row move.col move.edge
  let open3 ← (positions g.boardSize).mapM fun p => threeEdged g grid p.1 p.2
  return open3.count true

def evaluateMoveScore (rand : Generator G F) (g : Game) (m : Move) (prof : BotProfile F) (rng : G)
    (noiseAmp : F) (turnOrder : ℤ) : Exec (F × G) := do
  let totalBoxes := if g.boardSize * g.boardSize = 0 then 1 else g.boardSize * g.boardSize
  let completed ← completedBoxCount g
  let progress : F := const completed / const totalBoxes
  let captureW := prof.captureWeight * (const 1.0 + const 0.5 * progress)
  let riskW := prof.riskWeight * (const 1.0 + const 1.5 * progress)
  let chainW := prof.chainWeight * (const 1.0 + const 2.0 * progress)
  let captures ← countNewCompletions g m
  let createsThirdSide ← countUnclaimedBoxesWithThreeEdges g m
  let chainLen ← estimateOpponentChain g m turnOrder
  let (noise, rng) := rand.float64 rng
  let score := const captures * captureW - const createsThirdSide * riskW -
    const chainLen * chainW + noise * noiseAmp
  return (if captures > 0 then score + const 100 else score, rng)

def scoreAll (rand : Generator G F) (g : Game) (prof : BotProfile F) (noiseAmp : F)
    (turnOrder : ℤ) : List Move → G → Exec (List F × G)
  | [], rng => some ([], rng)
  | m :: moves, rng => do
    let (score, rng) ← evaluateMoveScore rand g m prof rng noiseAmp turnOrder
    let (scores, rng) ← scoreAll rand g prof noiseAmp turnOrder moves rng
    return (score :: scores, rng)

/-- The move at which the weights have used up what is left, and the last one if they never do. -/
def pickWeighted (moves : List Move) : List F → ℕ → F → Exec Move
  | [], _, _ => at? moves (moves.length - 1)
  | w :: weights, i, r =>
    let r := r - w
    if lessEq r (const 0) then moves[i]? else pickWeighted moves weights (i + 1) r

/-- The greatest of the scores; a score that compares with none is passed over. -/
def maxScore (score : F) (scores : List F) : F :=
  scores.foldl (fun maxS s => if less maxS s then s else maxS) score

def softmaxWeights (scores : List F) (maxS temperature : F) : List F :=
  scores.map fun s =>
    let ex := (s - maxS) / temperature
    exp (if less (const 700) ex then const 700 else ex)

/-- Draw a move by its weight, or take the first one if the sum of the weights is of no use. -/
def drawWeighted (rand : Generator G F) (rng : G) (moves : List Move) (weights : List F) :
    Exec (Move × G) :=
  let sum := weights.foldl (· + ·) (const 0)
  if lessEq sum (const 0) || isNaN sum || isInf sum then moves[0]?.map (·, rng)
  else
    let (u, rng) := rand.float64 rng
    (pickWeighted moves weights 0 (u * sum)).map (·, rng)

def softmaxPick (rand : Generator G F) (rng : G) (moves : List Move) (scores : List F)
    (temperature : F) : Exec (Move × G) :=
  if moves.length = 0 then some (⟨0, 0, 0, .other ""⟩, rng)
  else if moves.length = 1 then moves[0]?.map (·, rng)
  else scores[0]?.bind fun score =>
    drawWeighted rand rng moves (softmaxWeights scores (maxScore score scores.tail) temperature)

def chooseWithProfile (rand : Generator G F) (prof : BotProfile F) (g : Game) (turnOrder : ℤ) :
    Exec (Option Move) := do
  let moves ← collectAllLegalMoves g turnOrder
  let candidates := dedupeMovesByPhysicalEdge g.boardSize moves
  if candidates.length = 0 then return none
  else
    let scale : F := gridScale g
    let temp := prof.temperature / scale
    let noiseAmp := prof.noise / scale
    let temp := if less temp (const 1e-6) then const 1e-6 else temp
    let rng := newBotRNG rand g turnOrder
    let (candidates, rng) ← shuffle rand candidates rng
    let pool ← movePool g candidates
    if pool.length = 0 then return none
    else
      let (scores, rng) ← scoreAll rand g prof noiseAmp turnOrder pool rng
      let (chosen, _) ← softmaxPick rand rng pool scores temp
      return some chosen

def chooseBotMove (rand : Generator G F) (g : Game) (turnOrder : ℤ) : Exec (Option Move) :=
  chooseWithProfile rand (botProfileForTurn g turnOrder) g turnOrder

theorem pickWeighted_mem {moves : List Move} (hne : moves ≠ []) {weights : List F} {i : ℕ}
    (hi : i + weights.length ≤ moves.length) (r : F) :
    ∃ m ∈ moves, pickWeighted moves weights i r = some m := by
  induction weights generalizing i r with
  | nil =>
    have hpos := List.length_pos_iff.mpr hne
    obtain ⟨m, hm⟩ : ∃ m, moves[moves.length - 1]? = some m :=
      ⟨_, List.getElem?_eq_getElem (by omega)⟩
    have hlast : ((moves.length : ℤ) - 1) = ((moves.length - 1 : ℕ) : ℤ) := by omega
    exact ⟨m, List.mem_of_getElem? hm, by rw [pickWeighted, hlast, at?_natCast, hm]⟩
  | cons w weights ih =>
    rw [List.length_cons] at hi
    unfold pickWeighted
    dsimp only
    split_ifs
    · exact ⟨moves[i], List.getElem_mem (by omega), List.getElem?_eq_getElem (by omega)⟩
    · exact ih (by omega) (r - w)

theorem drawWeighted_mem (rand : Generator G F) (rng : G) {moves : List Move} (hne : moves ≠ [])
    {weights : List F} (hlen : weights.length = moves.length) :
    ∃ m ∈ moves, ∃ rng', drawWeighted rand rng moves weights = some (m, rng') := by
  obtain ⟨first, rest, rfl⟩ := List.exists_cons_of_ne_nil hne
  unfold drawWeighted
  dsimp only
  split_ifs
  · exact ⟨first, List.mem_cons_self, rng, rfl⟩
  · obtain ⟨m, hm, hpick⟩ := pickWeighted_mem hne (by rw [Nat.zero_add, hlen])
      ((rand.float64 rng).1 * weights.foldl (· + ·) (const 0))
    exact ⟨m, hm, (rand.float64 rng).2, by rw [hpick]; rfl⟩

theorem softmaxPick_mem (rand : Generator G F) (rng : G) {moves : List Move} (hne : moves ≠ [])
    {scores : List F} (hscores : scores.length = moves.length) (temperature : F) :
    ∃ m ∈ moves, ∃ rng', softmaxPick rand rng moves scores temperature = some (m, rng') := by
  obtain ⟨first, rest, rfl⟩ := List.exists_cons_of_ne_nil hne
  obtain ⟨score, others, rfl⟩ := List.exists_cons_of_length_eq_add_one hscores
  rw [softmaxPick, if_neg (by simp)]
  split_ifs
  · exact ⟨first, List.mem_cons_self, rng, rfl⟩
  · exact drawWeighted_mem rand rng hne ((List.length_map ..).trans hscores)

variable {n : ℕ} {roster : List Player} {g : Game} {pos : BoardPosition n roster.length}

theorem completedBoxCount_isSome (h : Represents roster n g pos) :
    ∃ count, completedBoxCount g = some count := by
  have hcell (d : Cell n) : (at2? g.grid d.1.val d.2.val).map (fun box => box.ownerTurn.isSome) =
      some (boxView pos d).ownerTurn.isSome := by
    rw [h.box d]
    rfl
  obtain ⟨owned, howned, -⟩ := mapM_positions
    (f := fun row col => (at2? g.grid row col).map (·.ownerTurn.isSome)) hcell
  exact ⟨_, by rw [completedBoxCount, h.boardSize, howned]; rfl⟩

theorem countUnclaimedBoxesWithThreeEdges_isSome (h : Represents roster n g pos) {m : Move}
    {c : Cell n} {s : Side} (hm : Names m c s) :
    ∃ count, countUnclaimedBoxesWithThreeEdges g m = some count := by
  obtain ⟨grid, hgrid, hshows⟩ := cloneEdgeGrid_spec h
  obtain ⟨marked, hmarked, hshows'⟩ := applyEdgeToSimGrid_spec hshows c s
  have hcell (d : Cell n) : threeEdged g marked d.1.val d.2.val = some
      (if (boxView pos d).ownerTurn.isSome then false
        else decide (countEdgesSim (boxView (pos.apply (.mark (Segment.of c s))) d) = 3)) := by
    rw [threeEdged, h.box d, hshows' d]
    change (if (boxView pos d).ownerTurn.isSome then _ else _) = _
    split_ifs <;> rfl
  obtain ⟨found, hfound, -⟩ := mapM_positions hcell
  refine ⟨found.count true, ?_⟩
  rw [countUnclaimedBoxesWithThreeEdges, hgrid, h.boardSize, hm.row, hm.col, hm.edge]
  change (applyEdgeToSimGrid grid n _ _ _).bind _ = _
  rw [hmarked, Option.bind_some, hfound]
  rfl

theorem evaluateMoveScore_isSome (rand : Generator G F) (h : Tracks roster n g pos) {m : Move}
    {c : Cell n} {s : Side} (ha : Allowed pos m c s) (prof : BotProfile F) (rng : G)
    (noiseAmp : F) :
    ∃ result, evaluateMoveScore rand g m prof rng noiseAmp pos.turn.val = some result := by
  obtain ⟨completed, hcompleted⟩ := completedBoxCount_isSome h.toRepresents
  obtain ⟨three, hthree⟩ := countUnclaimedBoxesWithThreeEdges_isSome h.toRepresents ha.toNames
  obtain ⟨total, -, -, -, hchain⟩ := opponentChain_spec h ha
  have hestimate : ∃ chainLen, estimateOpponentChain g m pos.turn.val = some chainLen :=
    ⟨_, by rw [estimateOpponentChain, hchain]; rfl⟩
  obtain ⟨chainLen, hestimate⟩ := hestimate
  unfold evaluateMoveScore
  rw [hcompleted, countNewCompletions_spec h.toRepresents ha.toNames, hthree, hestimate]
  exact ⟨_, rfl⟩

theorem scoreAll_spec (rand : Generator G F) (h : Tracks roster n g pos) {moves : List Move}
    (hmoves : ∀ m ∈ moves, ∃ (c : Cell n) (s : Side), Allowed pos m c s) (prof : BotProfile F)
    (noiseAmp : F) (rng : G) :
    ∃ scores rng', scoreAll rand g prof noiseAmp pos.turn.val moves rng = some (scores, rng') ∧
      scores.length = moves.length := by
  induction moves generalizing rng with
  | nil => exact ⟨[], rng, rfl, rfl⟩
  | cons m moves ih =>
    obtain ⟨c, s, ha⟩ := hmoves m List.mem_cons_self
    obtain ⟨⟨score, rng₁⟩, hscore⟩ := evaluateMoveScore_isSome rand h ha prof rng noiseAmp
    obtain ⟨scores, rng', hscores, hlen⟩ :=
      ih (fun m' hm' => hmoves m' (List.mem_cons_of_mem m hm')) rng₁
    refine ⟨score :: scores, rng', ?_, congrArg Nat.succ hlen⟩
    rw [scoreAll, hscore]
    change (scoreAll rand g prof noiseAmp pos.turn.val moves rng₁).bind _ = _
    rw [hscores]
    rfl

theorem exists_chance {candidates shuffled pool : List Move} {chosen : Move}
    (hperm : shuffled.Perm candidates) (hchosen : chosen ∈ pool) :
    ∃ chance : Chance, chance.shuffle candidates = shuffled ∧ chance.softmaxPick pool = chosen := by
  refine ⟨{
    shuffle := fun moves => if moves = candidates then shuffled else moves
    softmaxPick := fun moves => if moves = pool then chosen else moves.headD chosen
    perm := fun moves => ?_
    mem := fun moves hne => ?_ }, if_pos rfl, if_pos rfl⟩
  · split_ifs with hmoves
    · rwa [hmoves]
    · exact .refl moves
  · split_ifs with hmoves
    · rwa [hmoves]
    · obtain ⟨first, rest, rfl⟩ := List.exists_cons_of_ne_nil hne
      exact List.mem_cons_self

theorem chooseWithProfile_eq (rand : Generator G F) (prof : BotProfile F)
    (h : Tracks roster n g pos) (hrun : pos.ended = false) : ∃ chance : Chance,
      chooseWithProfile rand prof g pos.turn.val =
        DotsAndBoxes.chooseBotMove chance g pos.turn.val := by
  obtain ⟨moves, hmoves, hmem⟩ := collectAllLegalMoves_spec h.toRepresents pos.turn.val
  set candidates := dedupeMovesByPhysicalEdge g.boardSize moves with hcandidates
  have hallowed (m : Move) (hm : m ∈ candidates) :
      ∃ (c : Cell n) (s : Side), Allowed pos m c s := by
    obtain ⟨hturn, c, s, hnames, hfree⟩ := (hmem m).mp (mem_of_mem_dedupe hm)
    exact ⟨c, s, hnames, hturn, hfree, hrun⟩
  obtain ⟨shuffled, rng, hshuffled, hperm⟩ := shuffle_spec rand candidates
    (newBotRNG rand g pos.turn.val)
  have hcount (m : Move) (hm : m ∈ shuffled) :
      countNewCompletions g m = some ((countNewCompletions g m).getD 0) := by
    obtain ⟨c, s, ha⟩ := hallowed m (hperm.mem_iff.mp hm)
    rw [countNewCompletions_spec h.toRepresents ha.toNames]
    rfl
  obtain ⟨pool, hpool, hne, hbest⟩ := movePool_spec hcount
  by_cases hnil : candidates = []
  · obtain ⟨chance, -⟩ := exists_chance (.refl candidates)
      (List.mem_singleton_self (⟨0, 0, 0, .top⟩ : Move))
    refine ⟨chance, ?_⟩
    simp only [chooseWithProfile, DotsAndBoxes.chooseBotMove, hmoves, Option.bind_eq_bind,
      Option.bind_some, ← hcandidates, hnil, List.length_nil, if_true]
  · have hpool' : pool ≠ [] := hne fun hshuffled' => hnil (hshuffled' ▸ hperm).symm.eq_nil
    have hlegal (m : Move) (hm : m ∈ pool) : ∃ (c : Cell n) (s : Side), Allowed pos m c s :=
      hallowed m (hperm.mem_iff.mp (hbest m hm).1)
    obtain ⟨scores, rng', hscores, hlen⟩ := scoreAll_spec rand h hlegal prof
      (prof.noise / gridScale g) rng
    obtain ⟨chosen, hchosen, rng'', hpick⟩ := softmaxPick_mem rand rng' hpool' hlen
      (if less (prof.temperature / gridScale g) (const 1e-6) then const 1e-6
        else prof.temperature / gridScale g)
    obtain ⟨chance, hshuffle, hsoftmax⟩ := exists_chance hperm hchosen
    refine ⟨chance, ?_⟩
    have hsome : ¬ candidates.length = 0 := by simpa using hnil
    have hsome' : ¬ pool.length = 0 := by simpa using hpool'
    simp only [chooseWithProfile, DotsAndBoxes.chooseBotMove, hmoves, Option.bind_eq_bind,
      Option.bind_some, ← hcandidates, if_neg hsome, hshuffled, hshuffle, hpool, if_neg hsome',
      hscores, hpick, hsoftmax]

/-- A choice on a game: there is none only if no segment is free, and else it is accepted and
completes as many boxes as any move that is accepted. -/
def TakesMost (n : ℕ) (g : Game) (choice : Option Move) : Prop :=
  (choice = none → ∀ seg, seg ∈ g.claimed n) ∧
  ∀ m, choice = some m → ∀ now, ∃ g' result, g.applyMove now m = some (g', .ok result) ∧
    ∀ now' m' g'' result', g.applyMove now' m' = some (g'', .ok result') →
      result'.completedBoxes.length ≤ result.completedBoxes.length

theorem takesMost_chooseBotMove (h : Tracks roster n g pos) (hrun : pos.ended = false)
    (chance : Chance) : ∃ choice, DotsAndBoxes.chooseBotMove chance g pos.turn.val = some choice ∧
      TakesMost n g choice := by
  obtain ⟨choice, hchoice, hnone, hsome⟩ :=
    chooseBotMove_spec h.toRepresents chance pos.turn.val
  refine ⟨choice, hchoice, fun hnil => by rw [h.claimed_eq]; exact hnone hnil, fun m hm now => ?_⟩
  obtain ⟨hturn, c, s, hnames, hfree, hmost⟩ := hsome m hm
  obtain ⟨g', result, _, hmove, -⟩ := applyMove_of_allowed h.toRepresents h.sound
    ⟨hnames, hturn, hfree, hrun⟩ now
  refine ⟨g', result, hmove, fun now' m' g'' result' hmove' => ?_⟩
  obtain ⟨d, t, ha, -, hcard⟩ := h.card_completed hmove
  obtain ⟨d', t', ha', -, hcard'⟩ := h.card_completed hmove'
  have hsame : Segment.of d t = Segment.of c s := ha.toNames.segment_eq hnames
  rw [hcard, hcard', hsame]
  exact hmost _ ha'.free

/-- Whatever the profile, the generator and the floating-point operations are, the bot to move makes
a legal move that completes as many boxes as any legal move. -/
theorem bot_takes_most (rand : Generator G F) (hn : 0 < n) (hk : 0 < roster.length)
    (hg : Reachable roster n g) (hrun : g.endedAt = none) :
    (∃ choice, BotAI.chooseBotMove rand g g.currentTurn = some choice ∧ TakesMost n g choice) ∧
      ∀ prof : BotProfile F, ∃ choice,
        chooseWithProfile rand prof g g.currentTurn = some choice ∧ TakesMost n g choice := by
  obtain ⟨pos, h⟩ := hg.tracks hn hk
  have hrunning : pos.ended = false := by
    rw [← h.ended, hrun]
    rfl
  have hprofile (prof : BotProfile F) : ∃ choice,
      chooseWithProfile rand prof g g.currentTurn = some choice ∧ TakesMost n g choice := by
    obtain ⟨chance, hchance⟩ := chooseWithProfile_eq rand prof h hrunning
    rw [h.turn, hchance]
    exact takesMost_chooseBotMove h hrunning chance
  exact ⟨hprofile _, hprofile⟩

instance : Floating Float where
  const q := .ofInt q.num / .ofNat q.den
  sqrt := .sqrt
  exp := .exp
  less a b := a < b
  lessEq a b := a ≤ b
  isNaN := Float.isNaN
  isInf := Float.isInf

/-- A generator that draws the first index and the middle of the unit interval. -/
def steady : Generator Unit Float where
  new _ := ()
  intn _ _ := (0, ())
  float64 _ := (0.5, ())
  intn_lt _ _ h := h

theorem bot_takes_most_duel : ∃ choice,
    BotAI.chooseBotMove steady duelOpening 1 = some choice ∧ TakesMost 2 duelOpening choice :=
  (bot_takes_most steady (by decide) (by decide) reachable_duelOpening (by decide)).1

end BotAI

end DotsAndBoxes
