import DotsAndBoxes.Bot.Choice
import DotsAndBoxes.Game.Counting
import DotsAndBoxes.Library.Decimals

/-! # The candidates of a bot

The two names of an interior segment print one key, and no other name prints it. A map from keys
to moves keeps the least name of each free segment, in whatever order the moves come and the map
is walked, and the sorted result is the list of the free segments under their least names.
-/

namespace DotsAndBoxes

open Slices Enclosure

def EdgeKey.format : EdgeKey → String
  | .t col => "t" ++ col.repr
  | .v row col => "v" ++ (row.repr ++ "," ++ col.repr)
  | .b col => "b" ++ col.repr
  | .l row => "l" ++ row.repr
  | .h row col => "h" ++ (row.repr ++ "," ++ col.repr)
  | .r row => "r" ++ row.repr
  | .unknown row col name => "?" ++ (row.repr ++ "," ++ (col.repr ++ "," ++ name))

def Move.key (boardSize : ℤ) (m : Move) : String :=
  (physicalEdgeKey boardSize m.row m.col m.edge).format

/-- Keep a move in the map from keys to moves, if it is the first with its key or the least. -/
def keepInMap (boardSize : ℤ) (best : String → Option Move) (m : Move) : String → Option Move :=
  match best (m.key boardSize) with
  | none => Function.update best (m.key boardSize) (some m)
  | some existing =>
    if moveLess m existing then Function.update best (m.key boardSize) (some m) else best

def bestByKey (boardSize : ℤ) (moves : List Move) : String → Option Move :=
  moves.foldl (keepInMap boardSize) fun _ => none

/-- A list that the deduplication may return: the moves of the map, walked in some order and then
sorted in some way. -/
def Dedupes (boardSize : ℤ) (moves out : List Move) : Prop :=
  ∃ entries : List (String × Move), entries.Nodup ∧
    (∀ key m, (key, m) ∈ entries ↔ bestByKey boardSize moves key = some m) ∧
    out.Perm (entries.map Prod.snd) ∧ out.Pairwise fun a b => moveLess b a = false

theorem eq_of_prefix {s t u : String} (h : s ++ t = s ++ u) : t = u := by
  have hlist := congrArg String.toList h
  simp only [String.toList_append, List.append_cancel_left_eq] at hlist
  exact String.ext hlist

def EdgeKey.tag : EdgeKey → Char
  | .t _ => 't'
  | .v _ _ => 'v'
  | .b _ => 'b'
  | .l _ => 'l'
  | .h _ _ => 'h'
  | .r _ => 'r'
  | .unknown _ _ _ => '?'

theorem EdgeKey.head?_format (key : EdgeKey) : key.format.toList.head? = some key.tag := by
  cases key <;> simp [EdgeKey.format, EdgeKey.tag]

theorem EdgeKey.format_injective : Function.Injective EdgeKey.format := by
  intro k k' h
  have htag : k.tag = k'.tag := by
    rw [← Option.some_inj, ← k.head?_format, ← k'.head?_format, h]
  cases k <;> cases k' <;> simp only [EdgeKey.tag, Char.reduceEq] at htag <;>
    have hrest := eq_of_prefix h
  case t.t => rw [Int.repr_inj.mp hrest]
  case b.b => rw [Int.repr_inj.mp hrest]
  case l.l => rw [Int.repr_inj.mp hrest]
  case r.r => rw [Int.repr_inj.mp hrest]
  case v.v =>
    obtain ⟨rfl, hcol⟩ := Decimals.repr_comma_inj hrest
    rw [Int.repr_inj.mp hcol]
  case h.h =>
    obtain ⟨rfl, hcol⟩ := Decimals.repr_comma_inj hrest
    rw [Int.repr_inj.mp hcol]
  case unknown.unknown =>
    obtain ⟨rfl, hcol⟩ := Decimals.repr_comma_inj hrest
    obtain ⟨rfl, rfl⟩ := Decimals.repr_comma_inj hcol
    rfl

variable {n : ℕ} {roster : List Player} {g : Game} {pos : BoardPosition n roster.length}
  {boardSize : ℤ} {m m' : Move} {moves out out' : List Move} {key : String}

theorem physicalEdgeKey_of_segment_eq {c d : Cell n} {s t : Side}
    (h : Segment.of c s = Segment.of d t) :
    physicalEdgeKey n c.1.val c.2.val s.edge = physicalEdgeKey n d.1.val d.2.val t.edge := by
  rcases segment_of_eq_iff.mp h with ⟨rfl, rfl⟩ | ⟨hacross, rfl⟩
  · rfl
  · cases t <;> simp only [across, Option.dite_none_right_eq_some, Option.some.injEq] at hacross <;>
      obtain ⟨hlt, rfl⟩ := hacross <;> simp only [physicalEdgeKey, Side.edge, Side.opposite] <;>
      rw [if_neg (by omega), if_neg (by omega)] <;> congr 1 <;> omega

theorem key_eq_iff (hm : (m.segment n).isSome) (hm' : (m'.segment n).isSome) :
    m.key n = m'.key n ↔ m.segment n = m'.segment n := by
  obtain ⟨seg, hseg⟩ := Option.isSome_iff_exists.mp hm
  obtain ⟨seg', hseg'⟩ := Option.isSome_iff_exists.mp hm'
  obtain ⟨c, s, hnames, rfl⟩ := Move.segment_eq_some_iff.mp hseg
  obtain ⟨d, t, hnames', rfl⟩ := Move.segment_eq_some_iff.mp hseg'
  rw [Move.key, Move.key, EdgeKey.format_injective.eq_iff, hseg, hseg', Option.some_inj,
    hnames.row, hnames.col, hnames.edge, hnames'.row, hnames'.col, hnames'.edge]
  exact ⟨segment_eq_of_physicalEdgeKey, physicalEdgeKey_of_segment_eq⟩

def Move.rank (m : Move) : ℤ ×ₗ ℤ ×ₗ ℤ := toLex (m.row, toLex (m.col, edgeTypeRank m.edge))

theorem moveLess_iff {a b : Move} : moveLess a b = true ↔ a.rank < b.rank := by
  simp only [Move.rank, Prod.Lex.toLex_lt_toLex, moveLess]
  split_ifs with hrow hcol
  · simp [hrow]
  · simp [not_not.mp hrow, hcol]
  · simp [not_not.mp hrow, not_not.mp hcol]

theorem moveLess_eq_false_iff {a b : Move} : moveLess b a = false ↔ a.rank ≤ b.rank := by
  rw [← Bool.not_eq_true, moveLess_iff, not_lt]

def OfSeat (n : ℕ) (turnOrder : ℤ) (moves : List Move) : Prop :=
  ∀ m ∈ moves, m.turnOrder = turnOrder ∧ (m.segment n).isSome

theorem Side.rank_injective {s t : Side} (h : edgeTypeRank s.edge = edgeTypeRank t.edge) :
    s = t := by
  cases s <;> cases t <;> first | rfl | cases h

theorem OfSeat.eq_of_rank_eq {turnOrder : ℤ} (h : OfSeat n turnOrder moves) (hm : m ∈ moves)
    (hm' : m' ∈ moves) (hrank : m.rank = m'.rank) : m = m' := by
  obtain ⟨hturn, hseg⟩ := h m hm
  obtain ⟨hturn', hseg'⟩ := h m' hm'
  obtain ⟨seg, hseg⟩ := Option.isSome_iff_exists.mp hseg
  obtain ⟨seg', hseg'⟩ := Option.isSome_iff_exists.mp hseg'
  obtain ⟨c, s, hnames, -⟩ := Move.segment_eq_some_iff.mp hseg
  obtain ⟨d, t, hnames', -⟩ := Move.segment_eq_some_iff.mp hseg'
  obtain ⟨turnOrder₁, row, col, edge⟩ := m
  obtain ⟨turnOrder₂, row', col', edge'⟩ := m'
  obtain ⟨rfl, hrest⟩ := Prod.mk.inj (toLex.injective hrank)
  obtain ⟨rfl, hedge⟩ := Prod.mk.inj (toLex.injective hrest)
  obtain ⟨-, -, rfl⟩ := hnames
  obtain ⟨-, -, rfl⟩ := hnames'
  obtain rfl := Side.rank_injective hedge
  obtain rfl := hturn.trans hturn'.symm
  rfl

theorem keepInMap_of_ne {best : String → Option Move} (hne : key ≠ m.key boardSize) :
    keepInMap boardSize best m key = best key := by
  unfold keepInMap
  cases best (m.key boardSize) with
  | none => exact Function.update_of_ne hne ..
  | some existing =>
    dsimp only
    split_ifs
    · exact Function.update_of_ne hne ..
    · rfl

theorem keepInMap_self (best : String → Option Move) (m : Move) :
    keepInMap boardSize best m (m.key boardSize) = some (match best (m.key boardSize) with
      | none => m
      | some existing => if moveLess m existing then m else existing) := by
  unfold keepInMap
  cases hbest : best (m.key boardSize) with
  | none => simp
  | some existing =>
    dsimp only
    split_ifs
    · simp
    · exact hbest

theorem bestByKey_append (moves : List Move) (m : Move) :
    bestByKey boardSize (moves ++ [m]) = keepInMap boardSize (bestByKey boardSize moves) m := by
  simp [bestByKey]

theorem isSome_bestByKey (boardSize : ℤ) (hm : m ∈ moves) :
    (bestByKey boardSize moves (m.key boardSize)).isSome := by
  induction moves using List.reverseRecOn with
  | nil => cases hm
  | append_singleton moves last ih =>
    rw [bestByKey_append]
    by_cases hkey : m.key boardSize = last.key boardSize
    · rw [hkey, keepInMap_self]
      rfl
    · rw [keepInMap_of_ne hkey]
      refine ih ((List.mem_append.mp hm).resolve_right fun hlast => hkey ?_)
      rw [List.mem_singleton.mp hlast]

theorem least_of_bestByKey (h : bestByKey boardSize moves key = some m) :
    m ∈ moves ∧ m.key boardSize = key ∧
      ∀ m' ∈ moves, m'.key boardSize = key → m.rank ≤ m'.rank := by
  induction moves using List.reverseRecOn generalizing m with
  | nil => cases h
  | append_singleton moves last ih =>
    rw [bestByKey_append] at h
    by_cases hkey : key = last.key boardSize
    case neg =>
      rw [keepInMap_of_ne hkey] at h
      obtain ⟨hm, hprints, hleast⟩ := ih h
      refine ⟨List.mem_append_left _ hm, hprints, List.forall_mem_append.mpr ⟨hleast, ?_⟩⟩
      exact List.forall_mem_singleton.mpr fun hlast => absurd hlast.symm hkey
    case pos =>
      rw [hkey, keepInMap_self, Option.some_inj] at h
      cases hbest : bestByKey boardSize moves (last.key boardSize) with
      | none =>
        rw [hbest] at h
        subst h
        refine ⟨by simp, hkey.symm, List.forall_mem_append.mpr ⟨fun m' hm' hkey' => ?_, ?_⟩⟩
        · have hkept := isSome_bestByKey boardSize hm'
          rw [hkey', hkey, hbest] at hkept
          cases hkept
        · exact List.forall_mem_singleton.mpr fun _ => le_rfl
      | some existing =>
        obtain ⟨hin, hprints, hleast⟩ := ih (hkey ▸ hbest)
        rw [hbest] at h
        dsimp only at h
        split_ifs at h with hless
        · rw [moveLess_iff] at hless
          subst h
          refine ⟨by simp, hkey.symm, List.forall_mem_append.mpr ⟨fun m' hm' hkey' => ?_, ?_⟩⟩
          · exact hless.le.trans (hleast m' hm' hkey')
          · exact List.forall_mem_singleton.mpr fun _ => le_rfl
        · rw [moveLess_iff, not_lt] at hless
          subst h
          refine ⟨List.mem_append_left _ hin, hprints, List.forall_mem_append.mpr ⟨hleast, ?_⟩⟩
          exact List.forall_mem_singleton.mpr fun _ => hless

theorem Dedupes.mem_iff {turnOrder : ℤ} (h : Dedupes boardSize moves out)
    (hseat : OfSeat n turnOrder moves) : m ∈ out ↔
      m ∈ moves ∧ ∀ m' ∈ moves, m'.key boardSize = m.key boardSize → m.rank ≤ m'.rank := by
  obtain ⟨entries, -, hentries, hperm, -⟩ := h
  rw [hperm.mem_iff, List.mem_map]
  constructor
  · rintro ⟨⟨key, _⟩, hmem, rfl⟩
    obtain ⟨hm, rfl, hleast⟩ := least_of_bestByKey ((hentries _ _).mp hmem)
    exact ⟨hm, hleast⟩
  · rintro ⟨hm, hleast⟩
    obtain ⟨kept, hkept⟩ := Option.isSome_iff_exists.mp (isSome_bestByKey boardSize hm)
    obtain ⟨hin, hprints, hleast'⟩ := least_of_bestByKey hkept
    have hsame : kept = m := hseat.eq_of_rank_eq hin hm
      ((hleast' m hm rfl).antisymm (hleast kept hin hprints))
    exact ⟨_, (hentries _ _).mpr hkept, hsame⟩

theorem Dedupes.nodup (h : Dedupes boardSize moves out) : out.Nodup := by
  obtain ⟨entries, hnodup, hentries, hperm, -⟩ := h
  rw [hperm.nodup_iff]
  refine hnodup.map_on ?_
  rintro ⟨key, m⟩ hm ⟨key', _⟩ hm' rfl
  obtain ⟨-, rfl, -⟩ := least_of_bestByKey ((hentries _ _).mp hm)
  obtain ⟨-, rfl, -⟩ := least_of_bestByKey ((hentries _ _).mp hm')
  rfl

theorem Dedupes.sorted {turnOrder : ℤ} (h : Dedupes boardSize moves out)
    (hseat : OfSeat n turnOrder moves) : out.Pairwise fun a b => a.rank < b.rank := by
  have hmem {m : Move} (hm : m ∈ out) : m ∈ moves := ((h.mem_iff hseat).mp hm).1
  have hnodup := h.nodup
  obtain ⟨-, -, -, -, hsorted⟩ := h
  refine (hsorted.and hnodup).imp_of_mem fun ha hb hab => ?_
  obtain ⟨hle, hne⟩ := hab
  rw [moveLess_eq_false_iff] at hle
  exact hle.lt_of_ne fun hrank => hne (hseat.eq_of_rank_eq (hmem ha) (hmem hb) hrank)

/-- The order of the moves, of the walk and of the sort does not show in the result. -/
theorem Dedupes.unique {turnOrder : ℤ} {moves' : List Move} (h : Dedupes boardSize moves out)
    (h' : Dedupes boardSize moves' out') (hperm : moves'.Perm moves)
    (hseat : OfSeat n turnOrder moves) : out' = out := by
  have hseat' : OfSeat n turnOrder moves' := fun m hm => hseat m (hperm.mem_iff.mp hm)
  have : Std.Irrefl fun a b : Move => a.rank < b.rank := ⟨fun a => lt_irrefl a.rank⟩
  have : Std.Antisymm fun a b : Move => a.rank < b.rank :=
    ⟨fun a b hab hba => absurd hba hab.asymm⟩
  refine (h'.sorted hseat').eq_of_mem_iff (h.sorted hseat) fun m => ?_
  rw [h.mem_iff hseat, h'.mem_iff hseat']
  simp only [hperm.mem_iff]

def lookup (best : List (EdgeKey × Move)) (key : String) : Option Move :=
  (best.find? fun e => e.1.format = key).map Prod.snd

variable {best : List (EdgeKey × Move)}

theorem lookup_cons (k : EdgeKey) (m : Move) (best : List (EdgeKey × Move)) (key : String) :
    lookup ((k, m) :: best) key = if k.format = key then some m else lookup best key := by
  unfold lookup
  rw [List.find?_cons]
  by_cases hk : k.format = key <;> simp [hk]

theorem lookup_keepBest (best : List (EdgeKey × Move)) (m : Move) (key : String) :
    lookup (keepBest boardSize best m) key = keepInMap boardSize (lookup best) m key := by
  have hself (best : List (EdgeKey × Move)) : keepInMap boardSize (lookup best) m
      (m.key boardSize) = _ := keepInMap_self (lookup best) m
  induction best with
  | nil =>
    rw [keepBest, lookup_cons]
    change (if m.key boardSize = key then _ else _) = _
    split_ifs with hkey
    · rw [← hkey, hself]
      rfl
    · exact (keepInMap_of_ne (Ne.symm hkey)).symm
  | cons first best ih =>
    obtain ⟨k, existing⟩ := first
    by_cases hk : k = physicalEdgeKey boardSize m.row m.col m.edge
    · have hprints : k.format = m.key boardSize := congrArg EdgeKey.format hk
      rw [keepBest, if_pos hk, lookup_cons, hprints]
      by_cases hkey : m.key boardSize = key
      · rw [if_pos hkey, ← hkey, hself, lookup_cons, if_pos hprints]
      · rw [if_neg hkey, keepInMap_of_ne (Ne.symm hkey), lookup_cons, hprints, if_neg hkey]
    · have hother : ¬ k.format = m.key boardSize := fun heq => hk (EdgeKey.format_injective heq)
      rw [keepBest, if_neg hk, lookup_cons, ih]
      by_cases hkey : m.key boardSize = key
      · rw [← hkey, hself, hself, lookup_cons, if_neg hother, if_neg hother]
      · rw [keepInMap_of_ne (Ne.symm hkey), keepInMap_of_ne (Ne.symm hkey), lookup_cons]

theorem lookup_foldl (moves : List Move) :
    lookup (moves.foldl (keepBest boardSize) []) = bestByKey boardSize moves := by
  induction moves using List.reverseRecOn with
  | nil => rfl
  | append_singleton moves last ih =>
    rw [bestByKey_append, List.foldl_append, ← ih]
    funext key
    exact lookup_keepBest _ last key

theorem nodup_keepBest (h : (best.map Prod.fst).Nodup) (m : Move) :
    ((keepBest boardSize best m).map Prod.fst).Nodup := by
  induction best with
  | nil => exact List.nodup_singleton _
  | cons first best ih =>
    obtain ⟨k, existing⟩ := first
    obtain ⟨hout, hnodup⟩ := List.nodup_cons.mp h
    by_cases hk : k = physicalEdgeKey boardSize m.row m.col m.edge
    · rw [keepBest, if_pos hk]
      exact List.nodup_cons.mpr ⟨hout, hnodup⟩
    · rw [keepBest, if_neg hk]
      refine List.nodup_cons.mpr ⟨fun hin => ?_, ih hnodup⟩
      obtain ⟨e, he, heq⟩ := List.mem_map.mp hin
      rcases mem_keepBest he with he | rfl
      · exact hout (List.mem_map.mpr ⟨e, he, heq⟩)
      · exact hk heq.symm

theorem nodup_foldl_keepBest (boardSize : ℤ) (moves : List Move) :
    ((moves.foldl (keepBest boardSize) []).map Prod.fst).Nodup := by
  induction moves using List.reverseRecOn with
  | nil => exact List.nodup_nil
  | append_singleton moves last ih =>
    rw [List.foldl_append]
    exact nodup_keepBest ih last

theorem lookup_eq_some_iff (hnodup : (best.map Prod.fst).Nodup) :
    lookup best key = some m ↔ (key, m) ∈ best.map fun e => (e.1.format, e.2) := by
  induction best with
  | nil => simp [lookup]
  | cons first best ih =>
    obtain ⟨k, existing⟩ := first
    obtain ⟨hout, hnodup⟩ := List.nodup_cons.mp hnodup
    rw [lookup_cons, List.map_cons, List.mem_cons, Prod.mk.injEq, ← ih hnodup]
    split_ifs with hk
    · subst hk
      have hnone : lookup best k.format ≠ some m := fun hsome => by
        obtain ⟨e, he, heq⟩ := List.mem_map.mp ((ih hnodup).mp hsome)
        exact hout (List.mem_map.mpr ⟨e, he, EdgeKey.format_injective (Prod.mk.inj heq).1⟩)
      simp [hnone, eq_comm]
    · simp [Ne.symm hk]

instance : Std.Total fun a b : Move => moveLess b a = false where
  total a b := by
    rw [moveLess_eq_false_iff, moveLess_eq_false_iff]
    exact le_total a.rank b.rank

instance : IsTrans Move fun a b => moveLess b a = false where
  trans a b c hab hbc := by
    rw [moveLess_eq_false_iff] at hab hbc ⊢
    exact hab.trans hbc

theorem dedupes_dedupe (boardSize : ℤ) (moves : List Move) :
    Dedupes boardSize moves (dedupeMovesByPhysicalEdge boardSize moves) := by
  have hnodup := nodup_foldl_keepBest boardSize moves
  refine ⟨(moves.foldl (keepBest boardSize) []).map fun e => (e.1.format, e.2), ?_, ?_, ?_, ?_⟩
  · refine (List.Nodup.of_map _ hnodup).map fun e e' heq => ?_
    obtain ⟨hkey, hmove⟩ := Prod.mk.inj heq
    exact Prod.ext (EdgeKey.format_injective hkey) hmove
  · intro key m
    rw [← lookup_foldl, lookup_eq_some_iff hnodup]
  · rw [List.map_map]
    exact List.perm_insertionSort _ _
  · exact List.pairwise_insertionSort _ _

def NamesFree (pos : BoardPosition n roster.length) (turnOrder : ℤ) (moves : List Move) : Prop :=
  ∀ m, m ∈ moves ↔ m.turnOrder = turnOrder ∧ ∃ seg ∉ pos.claimed, m.segment n = some seg

theorem exists_namesFree (h : Represents roster n g pos) (turnOrder : ℤ) :
    ∃ moves, collectAllLegalMoves g turnOrder = some moves ∧ NamesFree pos turnOrder moves := by
  obtain ⟨moves, hmoves, hmem⟩ := collectAllLegalMoves_spec h turnOrder
  refine ⟨moves, hmoves, fun m => (hmem m).trans (and_congr_right fun _ => ?_)⟩
  constructor
  · rintro ⟨c, s, hnames, hfree⟩
    exact ⟨_, hfree, Move.segment_eq_some_iff.mpr ⟨c, s, hnames, rfl⟩⟩
  · rintro ⟨seg, hfree, hseg⟩
    obtain ⟨c, s, hnames, rfl⟩ := Move.segment_eq_some_iff.mp hseg
    exact ⟨c, s, hnames, hfree⟩

namespace NamesFree

variable {turnOrder : ℤ} {seg : Segment n}

theorem ofSeat (h : NamesFree pos turnOrder moves) : OfSeat n turnOrder moves := by
  intro m hm
  obtain ⟨hturn, seg, -, hseg⟩ := (h m).mp hm
  exact ⟨hturn, by simp [hseg]⟩

theorem mem_iff (h : NamesFree pos turnOrder moves) (hout : Dedupes n moves out) :
    m ∈ out ↔ m.turnOrder = turnOrder ∧ ∃ seg ∉ pos.claimed, m.segment n = some seg ∧
      ∀ m' : Move, m'.segment n = some seg → m.rank ≤ m'.rank := by
  rw [hout.mem_iff h.ofSeat, h m]
  constructor
  · rintro ⟨⟨hturn, seg, hfree, hseg⟩, hleast⟩
    refine ⟨hturn, seg, hfree, hseg, fun m' hseg' => ?_⟩
    have hsame : ({ m' with turnOrder } : Move).segment n = some seg := hseg'
    refine hleast { m' with turnOrder } ((h _).mpr ⟨rfl, seg, hfree, hsame⟩) ?_
    exact (key_eq_iff (by simp [hsame]) (by simp [hseg])).mpr (hsame.trans hseg.symm)
  · rintro ⟨hturn, seg, hfree, hseg, hleast⟩
    refine ⟨⟨hturn, seg, hfree, hseg⟩, fun m' hm' hkey => hleast m' ?_⟩
    rw [← hseg]
    exact (key_eq_iff (h.ofSeat m' hm').2 (by simp [hseg])).mp hkey

theorem unique (h : NamesFree pos turnOrder moves) (hout : Dedupes n moves out) (hm : m ∈ out)
    (hm' : m' ∈ out) (hseg : m.segment n = m'.segment n) : m = m' := by
  have hin {m : Move} (hm : m ∈ out) : m ∈ moves := ((hout.mem_iff h.ofSeat).mp hm).1
  obtain ⟨-, seg, -, hnames, hleast⟩ := (h.mem_iff hout).mp hm
  obtain ⟨-, seg', -, hnames', hleast'⟩ := (h.mem_iff hout).mp hm'
  rw [hnames, hnames', Option.some_inj] at hseg
  subst hseg
  exact h.ofSeat.eq_of_rank_eq (hin hm) (hin hm')
    ((hleast m' hnames').antisymm (hleast' m hnames))

theorem exists_mem (h : NamesFree pos turnOrder moves) (hout : Dedupes n moves out)
    (hfree : seg ∉ pos.claimed) : ∃ m ∈ out, m.segment n = some seg := by
  obtain ⟨c, s, rfl⟩ := exists_side seg
  have hseg : (⟨turnOrder, c.1.val, c.2.val, s.edge⟩ : Move).segment n = some (Segment.of c s) :=
    Move.segment_eq_some_iff.mpr ⟨c, s, ⟨rfl, rfl, rfl⟩, rfl⟩
  have hmove := (h _).mpr ⟨rfl, _, hfree, hseg⟩
  obtain ⟨m, hm⟩ := Option.isSome_iff_exists.mp (isSome_bestByKey n hmove)
  obtain ⟨hin, hkey, hleast⟩ := least_of_bestByKey hm
  refine ⟨m, (hout.mem_iff h.ofSeat).mpr ⟨hin, hkey ▸ hleast⟩, ?_⟩
  rw [← hseg]
  exact (key_eq_iff (h.ofSeat m hin).2 (by simp [hseg])).mp hkey

theorem length_add_card (h : NamesFree pos turnOrder moves) (hout : Dedupes n moves out) :
    out.length + pos.claimed.card = 2 * n * (n + 1) := by
  have hnodup : (out.map (Move.segment n)).Nodup :=
    hout.nodup.map_on fun m hm m' hm' hseg => h.unique hout hm hm' hseg
  have hsegments : (out.map (Move.segment n)).toFinset = pos.claimedᶜ.image some := by
    ext seg
    simp only [List.mem_toFinset, List.mem_map, Finset.mem_image, Finset.mem_compl]
    constructor
    · rintro ⟨m, hm, rfl⟩
      obtain ⟨-, seg, hfree, hseg, -⟩ := (h.mem_iff hout).mp hm
      exact ⟨seg, hfree, hseg.symm⟩
    · rintro ⟨seg, hfree, rfl⟩
      exact h.exists_mem hout hfree
  have hcard := List.toFinset_card_of_nodup hnodup
  rw [hsegments, Finset.card_image_of_injective _ (Option.some_injective _), Finset.card_compl,
    card_segment, List.length_map] at hcard
  have hle := Finset.card_le_univ pos.claimed
  rw [card_segment] at hle
  omega

end NamesFree

/-- Two names print one key when they name one segment and only then. So the candidates of a bot
are the free segments, each under its least name and in order, whatever the order in which the
moves are given and the map is walked. -/
theorem candidates_are_free_segments (hn : 0 < n) (hk : 0 < roster.length)
    (hg : Reachable roster n g) (turnOrder : ℤ) :
    (∀ (c d : Cell n) (s t : Side), (physicalEdgeKey n c.1.val c.2.val s.edge).format =
      (physicalEdgeKey n d.1.val d.2.val t.edge).format ↔ Segment.of c s = Segment.of d t) ∧
    ∃ moves candidates, collectAllLegalMoves g turnOrder = some moves ∧
      dedupeMovesByPhysicalEdge g.boardSize moves = candidates ∧
      (∀ seg, seg ∉ g.claimed n → ∃! m, m ∈ candidates ∧ m.segment n = some seg) ∧
      (∀ m ∈ candidates, m.turnOrder = turnOrder ∧ ∃ seg ∉ g.claimed n, m.segment n = some seg ∧
        ∀ m' : Move, m'.segment n = some seg → moveLess m' m = false) ∧
      candidates.length + (g.claimed n).card = 2 * n * (n + 1) ∧
      candidates.Pairwise (fun a b => moveLess a b = true) ∧
      Dedupes g.boardSize moves candidates ∧
      ∀ input out, input.Perm moves → Dedupes g.boardSize input out → out = candidates := by
  obtain ⟨pos, hpos⟩ := hg.tracks hn hk
  obtain ⟨moves, hmoves, hfree⟩ := exists_namesFree hpos.toRepresents turnOrder
  have hout := dedupes_dedupe g.boardSize moves
  refine ⟨fun c d s t => ?_, moves, _, hmoves, rfl, ?_⟩
  · rw [EdgeKey.format_injective.eq_iff]
    exact ⟨segment_eq_of_physicalEdgeKey, physicalEdgeKey_of_segment_eq⟩
  rw [hpos.claimed_eq]
  rw [hpos.boardSize] at hout ⊢
  refine ⟨fun seg hseg => ?_, fun m hm => ?_, hfree.length_add_card hout, ?_, hout,
    fun input out hperm h => hout.unique h hperm hfree.ofSeat⟩
  · obtain ⟨m, hm, hnames⟩ := hfree.exists_mem hout hseg
    refine ⟨m, ⟨hm, hnames⟩, ?_⟩
    rintro m' ⟨hm', hnames'⟩
    exact hfree.unique hout hm' hm (hnames'.trans hnames.symm)
  · obtain ⟨hturn, seg, hseg, hnames, hleast⟩ := (hfree.mem_iff hout).mp hm
    exact ⟨hturn, seg, hseg, hnames, fun m' hm' => moveLess_eq_false_iff.mpr (hleast m' hm')⟩
  · exact (hout.sorted hfree.ofSeat).imp moveLess_iff.mpr

theorem candidates_are_free_segments_duel : ∃ moves candidates,
    collectAllLegalMoves duelOpening 1 = some moves ∧
      dedupeMovesByPhysicalEdge 2 moves = candidates ∧
      candidates.length + (duelOpening.claimed 2).card = 12 := by
  obtain ⟨-, moves, candidates, hmoves, hcandidates, -, -, hlength, -⟩ :=
    candidates_are_free_segments (by decide) (by decide) reachable_duelOpening 1
  exact ⟨moves, candidates, hmoves, hcandidates, hlength⟩

end DotsAndBoxes
