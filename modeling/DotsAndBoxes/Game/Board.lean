import DotsAndBoxes.Library.Enclosure
import Mathlib.Data.Fintype.Prod
import Mathlib.Data.Fintype.Sum

/-! # The physical board

A square board of cells has one segment for each physical line between two
neighbouring dots, so a segment between two cells is a side of both. The rule
book of the game is the enclosure game of this incidence.
-/

namespace DotsAndBoxes

open Enclosure

inductive Side where
  | top
  | right
  | bottom
  | left
  deriving DecidableEq, Repr

instance : Fintype Side := ⟨{.top, .right, .bottom, .left}, by rintro (_ | _ | _ | _) <;> decide⟩

def Side.opposite : Side → Side
  | .top => .bottom
  | .right => .left
  | .bottom => .top
  | .left => .right

abbrev Cell (n : ℕ) := Fin n × Fin n

/-- A physical segment: a piece of a horizontal or of a vertical grid line. -/
inductive Segment (n : ℕ) where
  | horizontal (line : Fin (n + 1)) (col : Fin n)
  | vertical (row : Fin n) (line : Fin (n + 1))
  deriving DecidableEq, Repr, Fintype

variable {n k : ℕ}

def Segment.of (c : Cell n) : Side → Segment n
  | .top => .horizontal c.1.castSucc c.2
  | .right => .vertical c.1 c.2.succ
  | .bottom => .horizontal c.1.succ c.2
  | .left => .vertical c.1 c.2.castSucc

/-- The cell on the other side, unless the side is on the border of the board. -/
def across (c : Cell n) : Side → Option (Cell n)
  | .top => if h : 0 < c.1.val then some (⟨c.1 - 1, by omega⟩, c.2) else none
  | .right => if h : c.2.val + 1 < n then some (c.1, ⟨c.2 + 1, h⟩) else none
  | .bottom => if h : c.1.val + 1 < n then some (⟨c.1 + 1, h⟩, c.2) else none
  | .left => if h : 0 < c.2.val then some (c.1, ⟨c.2 - 1, by omega⟩) else none

theorem card_segment (n : ℕ) : Fintype.card (Segment n) = 2 * n * (n + 1) := by
  let e : Segment n ≃ (Fin (n + 1) × Fin n) ⊕ (Fin n × Fin (n + 1)) :=
    { toFun := fun
        | .horizontal line col => .inl (line, col)
        | .vertical row line => .inr (row, line)
      invFun := fun
        | .inl (line, col) => .horizontal line col
        | .inr (row, line) => .vertical row line
      left_inv := by rintro (_ | _) <;> rfl
      right_inv := by rintro (_ | _) <;> rfl }
  rw [Fintype.card_congr e]
  simp only [Fintype.card_sum, Fintype.card_prod, Fintype.card_fin]
  ring

theorem segment_of_eq_iff {c d : Cell n} {s t : Side} :
    Segment.of d t = Segment.of c s ↔
      (d = c ∧ t = s) ∨ (across c s = some d ∧ t = s.opposite) := by
  obtain ⟨⟨r, hr⟩, ⟨q, hq⟩⟩ := c
  obtain ⟨⟨r', hr'⟩, ⟨q', hq'⟩⟩ := d
  cases s <;> cases t <;>
    simp only [Segment.of, across, Side.opposite, Segment.horizontal.injEq,
      Segment.vertical.injEq, Fin.castSucc_mk, Fin.succ_mk, Fin.mk.injEq, Prod.mk.injEq,
      Option.dite_none_right_eq_some, Option.some.injEq, reduceCtorEq, and_false, or_false,
      false_or, and_true, exists_prop] <;>
    omega

theorem exists_side (seg : Segment n) : ∃ (c : Cell n) (s : Side), Segment.of c s = seg := by
  cases seg with
  | horizontal line col =>
    have hcol := col.isLt
    by_cases hlast : line.val < n
    · exact ⟨(⟨line, hlast⟩, col), .top, rfl⟩
    · refine ⟨(⟨n - 1, by omega⟩, col), .bottom, ?_⟩
      have hline := line.isLt
      simp only [Segment.of, Segment.horizontal.injEq, and_true, Fin.ext_iff, Fin.val_succ]
      omega
  | vertical row line =>
    have hrow := row.isLt
    by_cases hlast : line.val < n
    · exact ⟨(row, ⟨line, hlast⟩), .left, rfl⟩
    · refine ⟨(row, ⟨n - 1, by omega⟩), .right, ?_⟩
      have hline := line.isLt
      simp only [Segment.of, Segment.vertical.injEq, true_and, Fin.ext_iff, Fin.val_succ]
      omega

theorem across_ne_self (c : Cell n) (s : Side) : across c s ≠ some c := by
  intro h
  have hs := (segment_of_eq_iff (d := c)).mpr (.inr ⟨h, rfl⟩)
  cases s <;> simp [Segment.of, Side.opposite, Fin.ext_iff] at hs

/-- The border of a cell: the segments on its four sides. -/
def border (c : Cell n) : Finset (Segment n) := Finset.univ.image (Segment.of c)

theorem border_subset_iff {c : Cell n} {claimed : Finset (Segment n)} :
    border c ⊆ claimed ↔ ∀ s, Segment.of c s ∈ claimed := by
  simp [border, Finset.subset_iff]

def nextSeat (t : Fin k) : Fin k := ⟨(t + 1) % k, Nat.mod_lt _ t.pos⟩

theorem nextSeat_ne (hk : 2 ≤ k) (t : Fin k) : nextSeat t ≠ t := by
  intro heq
  have hmod : (t.val + 1) % k = t.val := congrArg Fin.val heq
  have hlt := t.isLt
  rcases Nat.lt_or_ge (t.val + 1) k with hmore | hlast
  · rw [Nat.mod_eq_of_lt hmore] at hmod
    omega
  · have hk' : t.val + 1 = k := by omega
    rw [hk', Nat.mod_self] at hmod
    omega

def rules (n k : ℕ) : Rules (Segment n) (Cell n) (Fin k) where
  border := border
  next := nextSeat

/-- A segment borders at most two cells, so one turn captures at most two boxes. -/
theorem card_captures_le_two {pos : Position (Segment n) (Cell n) (Fin k)}
    (h : (rules n k).Sound pos) (s : Segment n) : ((rules n k).captures pos s).card ≤ 2 := by
  have hside {c : Cell n} (hc : c ∈ (rules n k).captures pos s) : ∃ t, Segment.of c t = s := by
    simpa [rules, border] using h.mem_border_of_captures hc
  rcases Finset.eq_empty_or_nonempty ((rules n k).captures pos s) with he | ⟨c, hc⟩
  · simp [he]
  obtain ⟨t, rfl⟩ := hside hc
  have hsub : (rules n k).captures pos (Segment.of c t) ⊆ insert c (across c t).toFinset := by
    intro d hd
    obtain ⟨u, hu⟩ := hside hd
    rcases segment_of_eq_iff.mp hu with ⟨rfl, -⟩ | ⟨ha, -⟩ <;> simp [*]
  refine (Finset.card_le_card hsub).trans ((Finset.card_insert_le _ _).trans ?_)
  cases across c t <;> simp

abbrev BoardPosition (n k : ℕ) := Position (Segment n) (Cell n) (Fin k)

def emptyBoard (n : ℕ) {k : ℕ} (hk : 0 < k) : BoardPosition n k where
  claimed := ∅
  owner _ := none
  turn := ⟨0, hk⟩
  ended := false

theorem sound_emptyBoard (n : ℕ) {k : ℕ} (hk : 0 < k) : (rules n k).Sound (emptyBoard n hk) := by
  intro c
  simp only [emptyBoard, Option.isSome_none, Bool.false_eq_true, false_iff, rules,
    border_subset_iff]
  intro h
  simpa using h .top

end DotsAndBoxes
