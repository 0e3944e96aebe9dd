import DotsAndBoxes.Bot.Moves
import DotsAndBoxes.Game.RuleBook
import Mathlib.Data.List.FinRange
import Mathlib.Data.List.ProdSigma

/-! # The choice of a bot

Whatever is left to chance, a bot to move on a game that shows a sound position
chooses a legal move that captures as many boxes as any legal move captures, and has
no move only when every segment is claimed. So it captures a box exactly when some
box has three of its edges.
-/

namespace DotsAndBoxes

open Slices Enclosure

variable {n : ℕ} {roster : List Player} {g : Game} {pos : BoardPosition n roster.length}

theorem positions_natCast (n : ℕ) : positions n =
    (List.finRange n ×ˢ List.finRange n).map fun c : Cell n => ((c.1.val : ℤ), (c.2.val : ℤ)) := by
  have hrange : List.range n = (List.finRange n).map Fin.val := List.map_coe_finRange_eq_range.symm
  simp only [positions, Int.toNat_natCast, hrange, List.flatMap_map, List.map_map, SProd.sprod,
    List.product, List.map_flatMap, Function.comp_def]

theorem mem_positions {p : ℤ × ℤ} :
    p ∈ positions n ↔ ∃ c : Cell n, p = ((c.1.val : ℤ), (c.2.val : ℤ)) := by
  rw [positions_natCast, List.mem_map]
  constructor
  · rintro ⟨c, -, rfl⟩
    exact ⟨c, rfl⟩
  · rintro ⟨c, rfl⟩
    exact ⟨c, List.mem_product.mpr ⟨List.mem_finRange c.1, List.mem_finRange c.2⟩, rfl⟩

theorem countP_cells (p : Cell n → Bool) :
    (List.finRange n ×ˢ List.finRange n).countP p = (Finset.univ.filter fun c => p c = true).card := by
  have hnodup : (List.finRange n ×ˢ List.finRange n).Nodup :=
    (List.nodup_finRange n).product (List.nodup_finRange n)
  rw [List.countP_eq_length_filter, ← List.toFinset_card_of_nodup (hnodup.filter _)]
  congr 1
  ext ⟨row, col⟩
  simp [List.mem_product]

theorem mem_edgeTypes {e : EdgeType} : e ∈ edgeTypes ↔ ∃ s : Side, e = s.edge := by
  constructor
  · intro h
    rcases exists_side_or_other e with hs | ⟨name, rfl⟩
    · exact hs
    · simp [edgeTypes] at h
  · rintro ⟨s, rfl⟩
    cases s <;> simp [edgeTypes, Side.edge]

theorem mem_sortMoves {moves : List Move} {m : Move} : m ∈ sortMoves moves ↔ m ∈ moves :=
  (List.perm_insertionSort _ moves).mem_iff

theorem mem_encodings {m : Move} {turnOrder : ℤ} : m ∈ encodings n turnOrder ↔
    m.turnOrder = turnOrder ∧ ∃ (c : Cell n) (s : Side), Names m c s := by
  simp only [encodings, List.mem_flatMap, List.mem_map, mem_positions, mem_edgeTypes]
  constructor
  · rintro ⟨_, ⟨c, rfl⟩, _, ⟨s, rfl⟩, rfl⟩
    exact ⟨rfl, c, s, rfl, rfl, rfl⟩
  · rintro ⟨rfl, c, s, hrow, hcol, hedge⟩
    exact ⟨_, ⟨c, rfl⟩, _, ⟨s, rfl⟩, by rw [← hrow, ← hcol, ← hedge]⟩

theorem collectAllLegalMoves_spec (h : Represents roster n g pos) (turnOrder : ℤ) :
    ∃ moves, collectAllLegalMoves g turnOrder = some moves ∧ ∀ m, m ∈ moves ↔
      m.turnOrder = turnOrder ∧ ∃ (c : Cell n) (s : Side), Names m c s ∧
        Segment.of c s ∉ pos.claimed := by
  have hmem (m : Move) : m ∈ encodings g.boardSize turnOrder ↔
      m.turnOrder = turnOrder ∧ ∃ (c : Cell n) (s : Side), Names m c s := by
    rw [h.boardSize, mem_encodings]
  have havailable (m : Move) (c : Cell n) (s : Side) (hm : Names m c s) :
      g.isEdgeAvailable m.row m.col m.edge = some (decide (Segment.of c s ∉ pos.claimed)) := by
    rw [hm.row, hm.col, hm.edge]
    exact isEdgeAvailable_side h c s
  refine ⟨_, by
    rw [collectAllLegalMoves, select_of_eq_some
      (p := fun m => (g.isEdgeAvailable m.row m.col m.edge).getD false)]
    · rfl
    · intro m hm
      obtain ⟨-, c, s, hnames⟩ := (hmem m).mp hm
      rw [havailable m c s hnames]
      rfl, fun m => ?_⟩
  rw [mem_sortMoves, List.mem_filter, hmem]
  constructor
  · rintro ⟨⟨hturn, c, s, hnames⟩, hfree⟩
    rw [havailable m c s hnames] at hfree
    exact ⟨hturn, c, s, hnames, by simpa using hfree⟩
  · rintro ⟨hturn, c, s, hnames, hfree⟩
    rw [havailable m c s hnames]
    exact ⟨⟨hturn, c, s, hnames⟩, by simpa using hfree⟩

theorem cloneEdgeGrid_spec (h : Represents roster n g pos) : ∃ grid, cloneEdgeGrid g = some grid ∧
    ∀ c : Cell n, at2? grid c.1 c.2 = some (boxView pos c) := by
  have hbox (row : ℕ) (hrow : row < n) (col : ℕ) (hcol : col < n) :
      (at2? g.grid row col).map (fun src => { src with row := (row : ℤ), col := (col : ℤ) }) =
        some (boxView pos (⟨row, hrow⟩, ⟨col, hcol⟩)) := by
    rw [h.box (⟨row, hrow⟩, ⟨col, hcol⟩)]
    rfl
  have hrow (row : ℕ) (hrow : row < n) : ∃ boxes, (List.range n).mapM (fun (col : ℕ) =>
      (at2? g.grid row col).map fun src => { src with row := (row : ℤ), col := (col : ℤ) }) =
        some boxes ∧ ∀ (col : ℕ) (hcol : col < n),
          boxes[col]? = some (boxView pos (⟨row, hrow⟩, ⟨col, hcol⟩)) := by
    obtain ⟨boxes, hboxes, -, hget⟩ := mapM_range_of_isSome (n := n) (f := fun (col : ℕ) =>
      (at2? g.grid row col).map fun src => { src with row := (row : ℤ), col := (col : ℤ) })
      fun col hcol => by rw [hbox row hrow col hcol]; rfl
    exact ⟨boxes, hboxes, fun col hcol => (hget col hcol).trans (hbox row hrow col hcol)⟩
  obtain ⟨grid, hgrid, -, hget⟩ := mapM_range_of_isSome (n := n) (f := fun (row : ℕ) =>
    (List.range n).mapM fun (col : ℕ) =>
      (at2? g.grid row col).map fun src => { src with row := (row : ℤ), col := (col : ℤ) })
    fun row hlt => by obtain ⟨boxes, hboxes, -⟩ := hrow row hlt; rw [hboxes]; rfl
  refine ⟨grid, by rw [cloneEdgeGrid, h.boardSize, Int.toNat_natCast, hgrid], ?_⟩
  rintro ⟨⟨row, hr⟩, ⟨col, hc⟩⟩
  obtain ⟨boxes, hboxes, hcol⟩ := hrow row hr
  have hboxes' := (hget row hr).trans hboxes
  simp only [at2?, at?_natCast, hboxes', Option.bind_some, hcol col hc]

theorem applyEdgeToSimGrid_eq (grid : List (List Box)) (boardSize row col : ℤ) (edge : EdgeType) :
    applyEdgeToSimGrid grid boardSize row col edge = Game.markEdge grid boardSize row col edge := by
  cases edge <;> rfl

/-- A box that has no owner and is closed once the segment is claimed is captured. -/
theorem isComplete_mark {k : ℕ} {pos : BoardPosition n k} (seg : Segment n) (d : Cell n) :
    ((boxView pos d).ownerTurn.isNone && Game.isBoxComplete (boxView (pos.apply (.mark seg)) d)) =
      decide (d ∈ (rules n k).captures pos seg) := by
  rw [Bool.eq_iff_iff, Bool.and_eq_true, isBoxComplete_boxView, decide_eq_true_iff,
    Rules.mem_captures, and_comm]
  simp [boxView, Position.apply, rules]

theorem mapM_positions {f : ℤ → ℤ → Exec Bool} {p : Cell n → Bool}
    (h : ∀ d : Cell n, f d.1.val d.2.val = some (p d)) :
    ∃ found, ((positions n).mapM fun q => f q.1 q.2) = some found ∧
      found.count true = (Finset.univ.filter fun d => p d = true).card := by
  refine ⟨(List.finRange n ×ˢ List.finRange n).map p, ?_, ?_⟩
  · rw [positions_natCast, List.mapM_map]
    exact mapM_of_eq_some fun d _ => h d
  · rw [List.count, List.countP_map, Function.comp_def]
    simp only [beq_true, countP_cells]

theorem countNewCompletions_spec (h : Represents roster n g pos) {m : Move} {c : Cell n} {s : Side}
    (hm : Names m c s) : countNewCompletions g m =
      some ((rules n roster.length).captures pos (Segment.of c s)).card := by
  obtain ⟨grid, hgrid, hview⟩ := cloneEdgeGrid_spec h
  obtain ⟨marked, hmarked, hview'⟩ := markEdge_view hview c s
  rw [setSideView_boxView] at hview'
  have hcell (d : Cell n) : newlyCompleted g marked d.1.val d.2.val =
      some (decide (d ∈ (rules n roster.length).captures pos (Segment.of c s))) := by
    rw [newlyCompleted, h.box d, hview' d]
    change some ((boxView pos d).ownerTurn.isNone && Game.isBoxComplete (boxView _ d)) = _
    rw [Option.some_inj, isComplete_mark]
  obtain ⟨completed, hcompleted, hcount⟩ := mapM_positions hcell
  simp only [countNewCompletions, hgrid, applyEdgeToSimGrid_eq, h.boardSize, hm.row, hm.col, hm.edge,
    hmarked, hcompleted, Option.bind_eq_bind, Option.bind_some]
  change some (completed.count true) = _
  rw [hcount]
  simp only [decide_eq_true_eq, Finset.filter_univ_mem]

theorem segment_eq_of_physicalEdgeKey {c d : Cell n} {s t : Side}
    (h : physicalEdgeKey n c.1.val c.2.val s.edge = physicalEdgeKey n d.1.val d.2.val t.edge) :
    Segment.of c s = Segment.of d t := by
  obtain ⟨⟨r, hr⟩, ⟨q, hq⟩⟩ := c
  obtain ⟨⟨r', hr'⟩, ⟨q', hq'⟩⟩ := d
  cases s <;> cases t <;> simp only [physicalEdgeKey, Side.edge] at h <;> split_ifs at h <;>
    simp only [EdgeKey.t.injEq, EdgeKey.v.injEq, EdgeKey.b.injEq, EdgeKey.l.injEq,
      EdgeKey.h.injEq, EdgeKey.r.injEq] at h <;>
    simp only [Segment.of, Segment.horizontal.injEq, Segment.vertical.injEq, Fin.castSucc_mk,
      Fin.succ_mk, Fin.mk.injEq] <;>
    omega

def Keyed (boardSize : ℤ) (best : List (EdgeKey × Move)) : Prop :=
  ∀ e ∈ best, e.1 = physicalEdgeKey boardSize e.2.row e.2.col e.2.edge

theorem mem_keepBest {boardSize : ℤ} {best : List (EdgeKey × Move)} {m : Move} {e : EdgeKey × Move}
    (he : e ∈ keepBest boardSize best m) :
    e ∈ best ∨ e = (physicalEdgeKey boardSize m.row m.col m.edge, m) := by
  induction best with
  | nil => exact .inr (List.mem_singleton.mp he)
  | cons first best ih =>
    obtain ⟨key, existing⟩ := first
    unfold keepBest at he
    split at he
    case isTrue hkey =>
      rcases List.mem_cons.mp he with rfl | he
      · split_ifs
        · exact .inr (by rw [hkey])
        · exact .inl List.mem_cons_self
      · exact .inl (List.mem_cons_of_mem _ he)
    case isFalse hkey =>
      rcases List.mem_cons.mp he with rfl | he
      · exact .inl List.mem_cons_self
      · exact (ih he).imp_left (List.mem_cons_of_mem _)

theorem key_mem_keepBest {boardSize : ℤ} {best : List (EdgeKey × Move)} {m : Move} {key : EdgeKey}
    (hkey : key ∈ best.map Prod.fst ∨ key = physicalEdgeKey boardSize m.row m.col m.edge) :
    key ∈ (keepBest boardSize best m).map Prod.fst := by
  induction best with
  | nil => simpa [keepBest] using hkey
  | cons first best ih =>
    obtain ⟨key', existing⟩ := first
    unfold keepBest
    split
    case isTrue heq =>
      rcases hkey with hkey | rfl
      · simpa using hkey
      · simp [heq]
    case isFalse hne =>
      rcases hkey with hkey | hkey
      · rcases List.mem_cons.mp hkey with rfl | hkey
        · simp
        · exact List.mem_cons_of_mem _ (ih (.inl hkey))
      · exact List.mem_cons_of_mem _ (ih (.inr hkey))

theorem foldl_keepBest {boardSize : ℤ} (moves : List Move) {best : List (EdgeKey × Move)}
    (hbest : Keyed boardSize best) :
    Keyed boardSize (moves.foldl (keepBest boardSize) best) ∧
    (∀ e ∈ moves.foldl (keepBest boardSize) best, e ∈ best ∨ e.2 ∈ moves) ∧
    ∀ key, (key ∈ best.map Prod.fst ∨
        ∃ m ∈ moves, key = physicalEdgeKey boardSize m.row m.col m.edge) →
      key ∈ (moves.foldl (keepBest boardSize) best).map Prod.fst := by
  induction moves generalizing best with
  | nil => exact ⟨hbest, fun e he => .inl he, by simp⟩
  | cons m moves ih =>
    have hkeep : Keyed boardSize (keepBest boardSize best m) := by
      intro e he
      rcases mem_keepBest he with he | rfl
      · exact hbest e he
      · rfl
    obtain ⟨hkeyed, hmem, hkeys⟩ := ih hkeep
    refine ⟨hkeyed, fun e he => ?_, fun key hkey => hkeys key ?_⟩
    · rcases hmem e he with he | he
      · rcases mem_keepBest he with he | rfl
        · exact .inl he
        · exact .inr List.mem_cons_self
      · exact .inr (List.mem_cons_of_mem m he)
    · rcases hkey with hkey | ⟨m', hm', rfl⟩
      · exact .inl (key_mem_keepBest (.inl hkey))
      · rcases List.mem_cons.mp hm' with rfl | hm'
        · exact .inl (key_mem_keepBest (.inr rfl))
        · exact .inr ⟨m', hm', rfl⟩

theorem mem_of_mem_dedupe {boardSize : ℤ} {moves : List Move} {m : Move}
    (h : m ∈ dedupeMovesByPhysicalEdge boardSize moves) : m ∈ moves := by
  obtain ⟨e, he, rfl⟩ := List.mem_map.mp (mem_sortMoves.mp h)
  have hbest : Keyed boardSize [] := by simp [Keyed]
  exact ((foldl_keepBest moves hbest).2.1 e he).resolve_left (by simp)

theorem exists_mem_dedupe (boardSize : ℤ) {moves : List Move} {m : Move} (hm : m ∈ moves) :
    ∃ m' ∈ dedupeMovesByPhysicalEdge boardSize moves,
      physicalEdgeKey boardSize m'.row m'.col m'.edge =
        physicalEdgeKey boardSize m.row m.col m.edge := by
  have hbest : Keyed boardSize [] := by simp [Keyed]
  obtain ⟨hkeyed, -, hkeys⟩ := foldl_keepBest moves hbest
  obtain ⟨e, he, heq⟩ := List.mem_map.mp (hkeys _ (.inr ⟨m, hm, rfl⟩))
  exact ⟨e.2, mem_sortMoves.mpr (List.mem_map_of_mem he), (hkeyed e he).symm.trans heq⟩

theorem movePool_spec {candidates : List Move} {f : Move → ℕ}
    (h : ∀ m ∈ candidates, countNewCompletions g m = some (f m)) :
    ∃ pool, movePool g candidates = some pool ∧ (candidates ≠ [] → pool ≠ []) ∧
      ∀ m ∈ pool, m ∈ candidates ∧ ∀ m' ∈ candidates, f m' ≤ f m := by
  have hmax : candidates.foldlM (fun maxCap m => do
      let c ← countNewCompletions g m
      return if c > maxCap then c else maxCap) 0 =
      some (candidates.foldl (fun b m => max b (f m)) 0) := by
    refine foldlM_of_eq_some (fun b m hm => ?_) 0
    rw [h m hm]
    change some _ = some _
    rw [Option.some_inj, max_def]
    split_ifs <;> omega
  obtain ⟨-, hle⟩ := le_foldl_max f candidates 0
  have hattained := foldl_max_eq f candidates 0
  rw [movePool, hmax]
  change ∃ pool, (if candidates.foldl (fun b m => max b (f m)) 0 > 0 then _ else _) = some pool ∧ _
  set maxCap := candidates.foldl (fun b m => max b (f m)) 0
  split_ifs with hpos
  · have hselect : select (fun m => (countNewCompletions g m).map fun c => decide (c = maxCap))
        candidates = some (candidates.filter fun m => f m = maxCap) :=
      select_of_eq_some fun m hm => by rw [h m hm]; rfl
    refine ⟨_, hselect, fun _ hnil => ?_, fun m hm => ?_⟩
    · obtain ⟨m, hm, heq⟩ := hattained.resolve_left (by omega)
      have hmem : m ∈ candidates.filter fun m => f m = maxCap :=
        List.mem_filter.mpr ⟨hm, by simpa using heq⟩
      rw [hnil] at hmem
      cases hmem
    · obtain ⟨hm, heq⟩ := List.mem_filter.mp hm
      refine ⟨hm, fun m' hm' => ?_⟩
      rw [of_decide_eq_true heq]
      exact hle m' hm'
  · refine ⟨candidates, rfl, id, fun m hm => ⟨hm, fun m' hm' => ?_⟩⟩
    have hzero := hle m' hm'
    omega

/-- The bot chooses a legal move that captures as many boxes as any, if a segment is free. -/
theorem chooseBotMove_spec (h : Represents roster n g pos) (chance : Chance) (turnOrder : ℤ) :
    ∃ choice, chooseBotMove chance g turnOrder = some choice ∧
      (choice = none → ∀ seg, seg ∈ pos.claimed) ∧
      ∀ m, choice = some m → m.turnOrder = turnOrder ∧ ∃ (c : Cell n) (s : Side), Names m c s ∧
        Segment.of c s ∉ pos.claimed ∧ ∀ seg ∉ pos.claimed,
          ((rules n roster.length).captures pos seg).card ≤
            ((rules n roster.length).captures pos (Segment.of c s)).card := by
  obtain ⟨moves, hmoves, hmem⟩ := collectAllLegalMoves_spec h turnOrder
  set candidates := dedupeMovesByPhysicalEdge g.boardSize moves with hcandidates
  have hlegal (m : Move) (hm : m ∈ candidates) : m.turnOrder = turnOrder ∧
      ∃ (c : Cell n) (s : Side), Names m c s ∧ Segment.of c s ∉ pos.claimed :=
    (hmem m).mp (mem_of_mem_dedupe hm)
  -- each free segment has a candidate that names it
  have hcandidate (seg : Segment n) (hfree : seg ∉ pos.claimed) :
      ∃ m ∈ candidates, ∃ (c : Cell n) (s : Side), Names m c s ∧ Segment.of c s = seg := by
    obtain ⟨c, s, rfl⟩ := exists_side seg
    have hmove : ⟨turnOrder, c.1.val, c.2.val, s.edge⟩ ∈ moves :=
      (hmem _).mpr ⟨rfl, c, s, ⟨rfl, rfl, rfl⟩, hfree⟩
    obtain ⟨m, hm, hkey⟩ := exists_mem_dedupe g.boardSize hmove
    obtain ⟨-, d, t, hnames, -⟩ := hlegal m hm
    rw [h.boardSize, hnames.row, hnames.col, hnames.edge] at hkey
    exact ⟨m, hm, d, t, hnames, segment_eq_of_physicalEdgeKey hkey⟩
  have hshuffle (m : Move) : m ∈ chance.shuffle candidates ↔ m ∈ candidates :=
    (chance.perm candidates).mem_iff
  have hcount (m : Move) (hm : m ∈ chance.shuffle candidates) :
      countNewCompletions g m = some ((countNewCompletions g m).getD 0) := by
    obtain ⟨-, c, s, hnames, -⟩ := hlegal m ((hshuffle m).mp hm)
    rw [countNewCompletions_spec h hnames]
    rfl
  obtain ⟨pool, hpool, hne, hbest⟩ := movePool_spec hcount
  have hchoose : chooseBotMove chance g turnOrder =
      some (if candidates.length = 0 then none
        else if pool.length = 0 then none else some (chance.softmaxPick pool)) := by
    simp only [chooseBotMove, hmoves, Option.bind_eq_bind, Option.bind_some, ← hcandidates, hpool]
    split_ifs <;> rfl
  refine ⟨_, hchoose, fun hnone seg => ?_, fun m hm => ?_⟩
  · by_contra hfree
    obtain ⟨m, hm, -⟩ := hcandidate seg hfree
    have hcand : candidates ≠ [] := List.ne_nil_of_mem hm
    have hpool' : pool ≠ [] := hne (List.ne_nil_of_mem ((hshuffle m).mpr hm))
    rw [if_neg (by simpa using hcand), if_neg (by simpa using hpool')] at hnone
    cases hnone
  · split_ifs at hm with hcand hnil
    obtain rfl := Option.some.inj hm
    obtain ⟨hpicked, hmost⟩ := hbest _ (chance.mem pool (by simpa using hnil))
    obtain ⟨hturn, c, s, hnames, hfree⟩ := hlegal _ ((hshuffle _).mp hpicked)
    refine ⟨hturn, c, s, hnames, hfree, fun seg hseg => ?_⟩
    obtain ⟨m', hm', d, t, hnames', rfl⟩ := hcandidate seg hseg
    have hle := hmost m' ((hshuffle m').mpr hm')
    rw [countNewCompletions_spec h hnames, countNewCompletions_spec h hnames'] at hle
    exact hle

def Game.hasThreeEdgeBox (g : Game) : Bool :=
  (positions g.boardSize).any fun p => (at2? g.grid p.1 p.2).any fun box => countEdgesSim box = 3

theorem segment_of_injective (c : Cell n) : Function.Injective (Segment.of c) := by
  intro s t h
  rcases segment_of_eq_iff.mp h with ⟨-, hst⟩ | ⟨hacross, -⟩
  · exact hst
  · exact absurd hacross (across_ne_self c t)

theorem countEdgesSim_eq_three {k : ℕ} {pos : BoardPosition n k} {c : Cell n} :
    countEdgesSim (boxView pos c) = 3 ↔
      ∃ s, Segment.of c s ∉ pos.claimed ∧ ∀ t, t ≠ s → Segment.of c t ∈ pos.claimed := by
  have hside (P : Side → Prop) : (∃ s, P s) ↔ P .top ∨ P .right ∨ P .bottom ∨ P .left :=
    ⟨fun ⟨s, hs⟩ => by cases s <;> simp [hs], by rintro (h | h | h | h) <;> exact ⟨_, h⟩⟩
  have hall (P : Side → Prop) : (∀ s, P s) ↔ P .top ∧ P .right ∧ P .bottom ∧ P .left :=
    ⟨fun h => ⟨h _, h _, h _, h _⟩, fun ⟨ht, hr, hb, hl⟩ s => by cases s <;> assumption⟩
  simp only [hside, hall, countEdgesSim, boxView]
  by_cases ht : Segment.of c .top ∈ pos.claimed <;>
    by_cases hr : Segment.of c .right ∈ pos.claimed <;>
    by_cases hb : Segment.of c .bottom ∈ pos.claimed <;>
    by_cases hl : Segment.of c .left ∈ pos.claimed <;> simp [ht, hr, hb, hl]

/-- A segment that captures a box is free exactly when some box has three edges. -/
theorem hasThreeEdgeBox_iff (h : Represents roster n g pos)
    (hsound : (rules n roster.length).Sound pos) : g.hasThreeEdgeBox = true ↔
      ∃ seg ∉ pos.claimed, (rules n roster.length).captures pos seg ≠ ∅ := by
  have hbox : g.hasThreeEdgeBox = true ↔ ∃ c : Cell n, countEdgesSim (boxView pos c) = 3 := by
    simp only [Game.hasThreeEdgeBox, h.boardSize, List.any_eq_true, mem_positions]
    constructor
    · rintro ⟨_, ⟨c, rfl⟩, hthree⟩
      exact ⟨c, by simpa [h.box c] using hthree⟩
    · rintro ⟨c, hthree⟩
      exact ⟨_, ⟨c, rfl⟩, by simpa [h.box c] using hthree⟩
  rw [hbox]
  constructor
  · rintro ⟨c, hthree⟩
    obtain ⟨s, hfree, hrest⟩ := countEdgesSim_eq_three.mp hthree
    refine ⟨Segment.of c s, hfree, Finset.nonempty_iff_ne_empty.mp ⟨c, ?_⟩⟩
    rw [Rules.mem_captures]
    constructor
    · exact border_subset_iff.mpr fun t => by
        by_cases hts : t = s
        · exact hts ▸ Finset.mem_insert_self _ _
        · exact Finset.mem_insert_of_mem (hrest t hts)
    · rw [← Option.not_isSome_iff_eq_none, hsound c]
      exact fun hall => hfree (border_subset_iff.mp hall s)
  · rintro ⟨seg, hfree, hcap⟩
    obtain ⟨c, hc⟩ := Finset.nonempty_iff_ne_empty.mpr hcap
    have hborder : seg ∈ border c := hsound.mem_border_of_captures hc
    obtain ⟨s, -, rfl⟩ := Finset.mem_image.mp hborder
    refine ⟨c, countEdgesSim_eq_three.mpr ⟨s, hfree, fun t hts => ?_⟩⟩
    have hall := border_subset_iff.mp (Rules.mem_captures.mp hc).1 t
    apply (Finset.mem_insert.mp hall).resolve_left
    intro heq
    exact hts (segment_of_injective c heq)

end DotsAndBoxes
