import DotsAndBoxes.Bot.Lookahead

/-! # The chain that a move opens

Before it makes a move, a bot plays out the captures that the next player could then make, each
time the first one that completes the most boxes. All chains of captures that can go on no
further capture as many boxes, so the estimate is the loss that the move risks, and the loop
always ends before its bound.
-/

namespace DotsAndBoxes

open Slices Enclosure

/-- The better of the best capture so far and an edge, if the edge is available. -/
def betterCapture (g : Game) (sim : List (List Box)) (best : ℕ × Move) (m : Move) :
    Exec (ℕ × Move) := do
  let available ← isEdgeAvailableSim sim g.boardSize m.row m.col m.edge
  if !available then return best
  else
    let nc ← countNewCompletionsFromSim g sim m.row m.col m.edge
    return if nc > best.1 then (nc, m) else best

/-- The first edge that completes the most boxes, and how many. -/
def bestCapture (g : Game) (botTurn : ℤ) (sim : List (List Box)) : Exec (ℕ × Move) :=
  (encodings g.boardSize botTurn).foldlM (betterCapture g sim) (0, ⟨0, 0, 0, .other ""⟩)

/-- Capture with the best edge until no edge captures. The flag says that the loop was left for
this reason, and not because its iterations were used up. -/
def captureLoop (g : Game) (botTurn current : ℤ) : ℕ → List (List Box) → ℕ → Exec (ℕ × Bool)
  | 0, _, oppBoxes => some (oppBoxes, false)
  | iter + 1, sim, oppBoxes => do
    let (bestN, bestM) ← bestCapture g botTurn sim
    if bestN = 0 then return (oppBoxes, true)
    else
      let oppBoxes := if current ≠ botTurn then oppBoxes + bestN else oppBoxes
      let sim ← applyEdgeToSimGrid sim g.boardSize bestM.row bestM.col bestM.edge
      let sim ← assignOwnersForCompletedBoxes sim g.boardSize current
      captureLoop g botTurn current iter sim oppBoxes

def maxIter (n : ℤ) : ℤ := n * n * 8 + 64

/-- The boxes that the opponents capture after the move, with the flag of the loop. -/
def opponentChain (g : Game) (move : Move) (botTurn : ℤ) : Exec (ℕ × Bool) := do
  let n := g.boardSize
  let sim ← cloneEdgeGrid g
  let sim ← applyEdgeToSimGrid sim n move.row move.col move.edge
  let caps ← countNewCompletions g move
  let sim ← assignOwnersForCompletedBoxes sim n botTurn
  let np := g.players.length
  if np = 0 then return (0, true)
  else
    let current := if caps = 0 then (botTurn + 1).tmod np else botTurn
    captureLoop g botTurn current (maxIter n).toNat sim 0

def estimateOpponentChain (g : Game) (move : Move) (botTurn : ℤ) : Exec ℕ :=
  (opponentChain g move botTurn).map Prod.fst

variable {n : ℕ} {roster : List Player} {g g' g'' : Game} {sim : List (List Box)}
  {pos pos' : BoardPosition n roster.length} {m : ℕ}

/-- A best capture so far: if it completes a box, it claims a free segment that captures as many
boxes. -/
def IsCapture (pos : BoardPosition n roster.length) (best : ℕ × Move) : Prop :=
  best.1 ≠ 0 → ∃ (c : Cell n) (s : Side), Names best.2 c s ∧ Segment.of c s ∉ pos.claimed ∧
    best.1 = ((rules n roster.length).captures pos (Segment.of c s)).card

theorem betterCapture_spec (h : Shows sim pos) (hsize : g.boardSize = n) {best : ℕ × Move}
    (hbest : IsCapture pos best) {m : Move} {c : Cell n} {s : Side} (hm : Names m c s) :
    ∃ best', betterCapture g sim best m = some best' ∧ IsCapture pos best' ∧ best.1 ≤ best'.1 ∧
      (Segment.of c s ∉ pos.claimed →
        ((rules n roster.length).captures pos (Segment.of c s)).card ≤ best'.1) := by
  have havailable := isEdgeAvailableSim_side h c s
  rw [betterCapture, hsize, hm.row, hm.col, hm.edge, havailable,
    countNewCompletionsFromSim_spec h hsize]
  by_cases hfree : Segment.of c s ∈ pos.claimed
  · exact ⟨best, by simp [hfree], hbest, le_rfl, fun hout => absurd hfree hout⟩
  · set count := ((rules n roster.length).captures pos (Segment.of c s)).card with hcount
    refine ⟨if count > best.1 then (count, m) else best, by simp [hfree], ?_⟩
    split_ifs with hmore
    · exact ⟨fun _ => ⟨c, s, hm, hfree, hcount⟩, hmore.le, fun _ => le_rfl⟩
    · exact ⟨hbest, le_rfl, fun _ => not_lt.mp hmore⟩

theorem foldlM_betterCapture (h : Shows sim pos) (hsize : g.boardSize = n) {moves : List Move}
    (hmoves : ∀ m ∈ moves, ∃ (c : Cell n) (s : Side), Names m c s) {best : ℕ × Move}
    (hbest : IsCapture pos best) :
    ∃ best', moves.foldlM (betterCapture g sim) best = some best' ∧ IsCapture pos best' ∧
      best.1 ≤ best'.1 ∧ ∀ m ∈ moves, ∀ (c : Cell n) (s : Side), Names m c s →
        Segment.of c s ∉ pos.claimed →
          ((rules n roster.length).captures pos (Segment.of c s)).card ≤ best'.1 := by
  induction moves generalizing best with
  | nil => exact ⟨best, rfl, hbest, le_rfl, nofun⟩
  | cons m moves ih =>
    obtain ⟨c, s, hm⟩ := hmoves m List.mem_cons_self
    obtain ⟨best₁, hbest₁, hcapture₁, hle₁, hmost₁⟩ := betterCapture_spec h hsize hbest hm
    obtain ⟨best', hbest', hcapture', hle', hmost'⟩ :=
      ih (fun m' hm' => hmoves m' (List.mem_cons_of_mem m hm')) hcapture₁
    refine ⟨best', by rw [List.foldlM_cons, hbest₁]; exact hbest', hcapture', hle₁.trans hle', ?_⟩
    intro m' hm' d t hnames hfree
    rcases List.mem_cons.mp hm' with rfl | hm'
    · rw [hnames.segment_eq hm] at hfree ⊢
      exact (hmost₁ hfree).trans hle'
    · exact hmost' m' hm' d t hnames hfree

theorem bestCapture_spec (h : Shows sim pos) (hsize : g.boardSize = n) (botTurn : ℤ) :
    ∃ best, bestCapture g botTurn sim = some best ∧ IsCapture pos best ∧
      (best.1 = 0 → (rules n roster.length).Exhausted pos) := by
  have hnames (m : Move) (hm : m ∈ encodings n botTurn) : ∃ (c : Cell n) (s : Side), Names m c s :=
    (mem_encodings.mp hm).2
  have hnone : IsCapture pos (0, ⟨0, 0, 0, .other ""⟩) := fun hzero => absurd rfl hzero
  obtain ⟨best, hbest, hcapture, -, hmost⟩ := foldlM_betterCapture h hsize hnames hnone
  refine ⟨best, by rw [bestCapture, hsize, hbest], hcapture, fun hzero seg hfree => ?_⟩
  obtain ⟨c, s, rfl⟩ := exists_side seg
  have hmem : (⟨botTurn, c.1.val, c.2.val, s.edge⟩ : Move) ∈ encodings n botTurn :=
    mem_encodings.mpr ⟨rfl, c, s, ⟨rfl, rfl, rfl⟩⟩
  have hle := hmost _ hmem c s ⟨rfl, rfl, rfl⟩ hfree
  rw [hzero] at hle
  exact Finset.card_eq_zero.mp (Nat.le_zero.mp hle)

/-- With more iterations than boxes that are not owned, the loop plays a chain of captures until
no segment captures a box. -/
theorem captureLoop_spec (hsize : g.boardSize = n) (botTurn : ℤ) {iter : ℕ} (h : Shows sim pos)
    (hiter : (Rules.unowned pos).card < iter) (oppBoxes : ℕ) :
    ∃ m pos', (rules n roster.length).Chain pos m pos' ∧ (rules n roster.length).Exhausted pos' ∧
      captureLoop g botTurn pos.turn.val iter sim oppBoxes =
        some (if (pos.turn.val : ℤ) ≠ botTurn then oppBoxes + m else oppBoxes, true) := by
  induction iter generalizing sim pos oppBoxes with
  | zero => cases hiter
  | succ iter ih =>
    obtain ⟨⟨bestN, bestM⟩, hbest, hcapture, hend⟩ := bestCapture_spec h hsize botTurn
    rw [captureLoop, hbest]
    by_cases hzero : bestN = 0
    · exact ⟨0, pos, .stop pos, hend hzero, by simp [hzero]⟩
    · obtain ⟨c, s, hnames, hfree, hcard⟩ := hcapture hzero
      dsimp only at hnames hcard
      obtain ⟨marked, sim', hmarked, hsim', hshows⟩ := simulate_move h c s
      have hcap : (rules n roster.length).captures pos (Segment.of c s) ≠ ∅ := by
        rw [← Finset.nonempty_iff_ne_empty, ← Finset.card_pos]
        omega
      have hless := Rules.card_unowned_play (rules n roster.length) pos (Segment.of c s)
      have hturn : ((rules n roster.length).play pos (Segment.of c s)).turn = pos.turn := by
        rw [Rules.play, if_neg hcap]
      obtain ⟨m, pos', hchain, hend', hloop⟩ := ih hshows (by omega)
        (if (pos.turn.val : ℤ) ≠ botTurn then oppBoxes + bestN else oppBoxes)
      rw [hturn] at hloop
      refine ⟨_, pos', .capture hfree hcap hchain, hend', ?_⟩
      change (if bestN = 0 then _ else _) = _
      rw [if_neg hzero, hsize, hnames.row, hnames.col, hnames.edge, hmarked]
      change (assignOwnersForCompletedBoxes marked n _).bind _ = _
      rw [hsim', Option.bind_some, hloop, hcard]
      split_ifs <;> simp [Nat.add_assoc]

theorem card_unowned_lt_maxIter (pos : BoardPosition n roster.length) :
    (Rules.unowned pos).card < (maxIter n).toNat := by
  have hcells : (Rules.unowned pos).card ≤ n * n := by
    have hle := Finset.card_le_univ (Rules.unowned pos)
    rwa [Fintype.card_prod, Fintype.card_fin] at hle
  have hmax : (maxIter n).toNat = n * n * 8 + 64 := by
    rw [maxIter]
    norm_cast
  omega

theorem turn_play_eq (pos : BoardPosition n roster.length) (seg : Segment n) :
    (((rules n roster.length).play pos seg).turn.val : ℤ) =
      if ((rules n roster.length).captures pos seg).card = 0 then
        ((pos.turn.val : ℤ) + 1).tmod roster.length
      else pos.turn.val := by
  simp only [Rules.play, Finset.card_eq_zero]
  split_ifs
  · change ((nextSeat pos.turn).val : ℤ) = _
    rw [nextSeat]
    norm_cast
  · rfl

/-- The estimate plays a chain of captures from the position after the move until no segment
captures a box, and counts it if another seat is to move. -/
theorem opponentChain_spec (h : Tracks roster n g pos) {move : Move} {c : Cell n} {s : Side}
    (ha : Allowed pos move c s) :
    ∃ m pos', (rules n roster.length).Chain ((rules n roster.length).play pos (Segment.of c s)) m
        pos' ∧ (rules n roster.length).Exhausted pos' ∧
      opponentChain g move pos.turn.val =
        some (if ((rules n roster.length).play pos (Segment.of c s)).turn ≠ pos.turn then m else 0,
          true) := by
  obtain ⟨sim, hsim, hshows⟩ := cloneEdgeGrid_spec h.toRepresents
  obtain ⟨marked, sim', hmarked, hsim', hshows'⟩ := simulate_move hshows c s
  obtain ⟨m, pos', hchain, hend, hloop⟩ := captureLoop_spec h.boardSize pos.turn.val hshows'
    (card_unowned_lt_maxIter _) 0
  refine ⟨m, pos', hchain, hend, ?_⟩
  have hk : roster.length ≠ 0 := pos.turn.pos.ne'
  rw [opponentChain, h.boardSize, ha.row, ha.col, ha.edge, hsim]
  change (applyEdgeToSimGrid sim n _ _ _).bind _ = _
  rw [hmarked, Option.bind_some, countNewCompletions_spec h.toRepresents ha.toNames]
  change (assignOwnersForCompletedBoxes marked n _).bind _ = _
  rw [hsim', Option.bind_some, h.length, if_neg hk, ← turn_play_eq, hloop, Nat.zero_add]
  simp only [ne_eq, Nat.cast_inj, Fin.val_inj]

/-- Moves that each complete a box, with the number of boxes that they complete. -/
inductive CaptureMoves : Game → ℕ → Game → Prop where
  | stop (g : Game) : CaptureMoves g 0 g
  | move {g g' g'' : Game} {now : Time} {move : Move} {result : MoveResult} {m : ℕ}
      (hmove : g.applyMove now move = some (g', .ok result)) (hcap : result.completedBoxes ≠ [])
      (h : CaptureMoves g' m g'') : CaptureMoves g (result.completedBoxes.length + m) g''

def Game.NoCapture (g : Game) : Prop :=
  ∀ now move g' result, g.applyMove now move = some (g', .ok result) → result.completedBoxes = []

theorem completed_eq_nil_iff {seg : Segment n} {boxes : List Box}
    (h : boxes.length = ((rules n roster.length).captures pos seg).card) :
    boxes = [] ↔ (rules n roster.length).captures pos seg = ∅ := by
  rw [← List.length_eq_zero_iff, h, Finset.card_eq_zero]

/-- A free segment that captures a box is claimed by an accepted move of the seat to move. -/
theorem Unforfeited.exists_capture (h : Unforfeited roster n g pos) {seg : Segment n}
    (hfree : seg ∉ pos.claimed) (hcap : (rules n roster.length).captures pos seg ≠ ∅) :
    ∃ move g' result, g.applyMove 0 move = some (g', .ok result) ∧
      Unforfeited roster n g' ((rules n roster.length).play pos seg) ∧
      result.completedBoxes.length = ((rules n roster.length).captures pos seg).card := by
  obtain ⟨c, s, rfl⟩ := exists_side seg
  have ha : Allowed pos ⟨pos.turn.val, c.1.val, c.2.val, s.edge⟩ c s :=
    ⟨⟨rfl, rfl, rfl⟩, rfl, hfree, h.running hcap⟩
  obtain ⟨g', result, _, hmove, -, hrep, -⟩ := applyMove_of_allowed h.toRepresents h.sound ha 0
  obtain ⟨d, t, hd, -, hcard⟩ := h.card_completed hmove
  have hsame : Segment.of d t = Segment.of c s := hd.toNames.segment_eq ha.toNames
  exact ⟨_, g', result, hmove, h.play hrep, by rw [hcard, hsame]⟩

theorem CaptureMoves.chain (h : CaptureMoves g m g'') (hpos : Unforfeited roster n g pos) :
    ∃ pos', (rules n roster.length).Chain pos m pos' ∧ Unforfeited roster n g'' pos' := by
  induction h generalizing pos with
  | stop g => exact ⟨pos, .stop pos, hpos⟩
  | move hmove hcap _ ih =>
    obtain ⟨c, s, ha, htracks, hcard⟩ := hpos.card_completed hmove
    obtain ⟨pos', hchain, hpos'⟩ := ih (hpos.play htracks.toRepresents)
    rw [Ne, completed_eq_nil_iff hcard] at hcap
    exact ⟨pos', hcard ▸ .capture ha.free hcap hchain, hpos'⟩

theorem exists_captureMoves (h : (rules n roster.length).Chain pos m pos')
    (hpos : Unforfeited roster n g pos) :
    ∃ g'', CaptureMoves g m g'' ∧ Unforfeited roster n g'' pos' := by
  induction h generalizing g with
  | stop pos => exact ⟨g, .stop g, hpos⟩
  | capture hfree hcap _ ih =>
    obtain ⟨move, g', result, hmove, hpos', hcard⟩ := hpos.exists_capture hfree hcap
    obtain ⟨g'', hmoves, hpos''⟩ := ih hpos'
    rw [Ne, ← completed_eq_nil_iff hcard] at hcap
    exact ⟨g'', hcard ▸ .move hmove hcap hmoves, hpos''⟩

theorem Unforfeited.noCapture_iff (h : Unforfeited roster n g pos) :
    g.NoCapture ↔ (rules n roster.length).Exhausted pos := by
  constructor
  · intro hnone seg hfree
    by_contra hcap
    obtain ⟨move, g', result, hmove, -, hcard⟩ := h.exists_capture hfree hcap
    exact hcap ((completed_eq_nil_iff hcard).mp (hnone 0 move g' result hmove))
  · intro hend now move g' result hmove
    obtain ⟨c, s, ha, -, hcard⟩ := h.card_completed hmove
    exact (completed_eq_nil_iff hcard).mpr (hend _ ha.free)

/-- The estimate is zero for a move that completes a box and when there is one seat, and else what
any captures complete that go on until no move completes a box. The loop that computes it ends
because no segment captures a box. -/
theorem estimate_is_every_chain (hn : 0 < n) (hk : 0 < roster.length) (hg : Reachable roster n g)
    (hrun : g.endedAt = none) {now : Time} {move : Move} {result : MoveResult}
    (hmove : g.applyMove now move = some (g', .ok result)) :
    ∃ total, estimateOpponentChain g move move.turnOrder = some total ∧
      opponentChain g move move.turnOrder = some (total, true) ∧
      (result.completedBoxes ≠ [] ∨ roster.length = 1 → total = 0) ∧
      (result.completedBoxes = [] ∧ roster.length ≠ 1 →
        (∃ m g'', CaptureMoves g' m g'' ∧ g''.NoCapture) ∧
        ∀ m g'', CaptureMoves g' m g'' → g''.NoCapture → m = total) := by
  obtain ⟨pos, hpos⟩ := hg.tracks hn hk
  have h := hpos.unforfeited hrun
  obtain ⟨c, s, ha, htracks, hcard⟩ := h.card_completed hmove
  obtain ⟨total, pos', hchain, hend, htotal⟩ := opponentChain_spec hpos ha
  rw [← ha.turn] at htotal
  have h' := h.play htracks.toRepresents
  refine ⟨_, by rw [estimateOpponentChain, htotal]; rfl, htotal, ?_, ?_⟩
  · intro hkeeps
    rw [if_neg]
    rw [not_not, Rules.play]
    rcases hkeeps with hcap | hone
    · rw [Ne, completed_eq_nil_iff hcard] at hcap
      exact if_neg hcap
    · have hall (t : Fin roster.length) : t = pos.turn := Fin.ext (by omega)
      exact hall _
  · rintro ⟨hnil, hmore⟩
    have hpassed : ((rules n roster.length).play pos (Segment.of c s)).turn ≠ pos.turn := by
      rw [Rules.play, if_pos ((completed_eq_nil_iff hcard).mp hnil)]
      exact nextSeat_ne (by omega) pos.turn
    rw [if_pos hpassed]
    constructor
    · obtain ⟨g'', hmoves, h''⟩ := exists_captureMoves hchain h'
      exact ⟨total, g'', hmoves, h''.noCapture_iff.mpr hend⟩
    · intro m g'' hmoves hnone
      obtain ⟨pos'', hchain', h''⟩ := hmoves.chain h'
      exact (Rules.Chain.unique htracks.sound hchain' (h''.noCapture_iff.mp hnone) hchain hend).2

def duelReply : Game := ((duelOpening.applyMove 2 ⟨1, 1, 1, .bottom⟩).map Prod.fst).getD {}

theorem estimate_is_every_chain_duel :
    ∃ total, estimateOpponentChain duelOpening ⟨1, 1, 1, .bottom⟩ 1 = some total ∧
      ∀ m g'', CaptureMoves duelReply m g'' → g''.NoCapture → m = total := by
  have hmove : duelOpening.applyMove 2 ⟨1, 1, 1, .bottom⟩ =
      some (duelReply, .ok ⟨[], 0, false, none⟩) := by decide
  obtain ⟨total, htotal, -, -, hchains⟩ := estimate_is_every_chain (by decide) (by decide)
    reachable_duelOpening (by decide) hmove
  exact ⟨total, htotal, (hchains (by decide)).2⟩

end DotsAndBoxes
