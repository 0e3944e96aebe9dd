import Mathlib.Data.List.Perm.Basic
import Mathlib.Tactic

/-! # Draws from a random generator

A generator is a state that each draw advances. Nothing is assumed of the draws but their range,
so what is shown holds for every outcome. A shuffle swaps each place with one that is drawn from
the places before it, and permutes the list whatever is drawn.
-/

namespace Sampling

/-- A random generator with states `G` and random fractions in `F`. -/
structure Generator (G F : Type*) where
  /-- The state for a seed. -/
  new : BitVec 64 → G
  /-- An index below the bound. -/
  intn : ℕ → G → ℕ × G
  /-- A fraction between zero and one. -/
  float64 : G → F × G
  intn_lt : ∀ n rng, 0 < n → (intn n rng).1 < n

variable {α G F : Type*}

/-- Exchange two elements. An index out of range fails. -/
def swap (xs : List α) (i j : ℕ) : Option (List α) :=
  xs[i]?.bind fun a => xs[j]?.map fun b => (xs.set i b).set j a

/-- Swap each place from the given one down with a place that is drawn. -/
def shuffleFrom (rand : Generator G F) : ℕ → List α → G → Option (List α × G)
  | 0, xs, rng => some (xs, rng)
  | i + 1, xs, rng =>
    let (j, rng) := rand.intn (i + 2) rng
    (swap xs (i + 1) j).bind fun xs => shuffleFrom rand i xs rng

def shuffle (rand : Generator G F) (xs : List α) (rng : G) : Option (List α × G) :=
  shuffleFrom rand (xs.length - 1) xs rng

theorem swap_spec {xs : List α} {i j : ℕ} (hi : i < xs.length) (hj : j < xs.length) :
    ∃ ys, swap xs i j = some ys ∧ ys.Perm xs := by
  refine ⟨(xs.set i xs[j]).set j xs[i], ?_, List.set_set_perm hi hj⟩
  simp [swap, hi, hj]

theorem shuffleFrom_spec (rand : Generator G F) (i : ℕ) {xs : List α} (hi : i = 0 ∨ i < xs.length)
    (rng : G) : ∃ ys rng', shuffleFrom rand i xs rng = some (ys, rng') ∧ ys.Perm xs := by
  induction i generalizing xs rng with
  | zero => exact ⟨xs, rng, rfl, .refl xs⟩
  | succ i ih =>
    have hlt : i + 1 < xs.length := hi.resolve_left (Nat.succ_ne_zero i)
    have hdraw := rand.intn_lt (i + 2) rng (Nat.succ_pos _)
    obtain ⟨ys, hys, hperm⟩ := swap_spec hlt (j := (rand.intn (i + 2) rng).1) (by omega)
    have hlt' : i < ys.length := by
      rw [hperm.length_eq]
      omega
    obtain ⟨zs, rng', hzs, hperm'⟩ := ih (.inr hlt') (rand.intn (i + 2) rng).2
    exact ⟨zs, rng', by simp only [shuffleFrom, hys, Option.bind_some, hzs], hperm'.trans hperm⟩

theorem shuffle_spec (rand : Generator G F) (xs : List α) (rng : G) :
    ∃ ys rng', shuffle rand xs rng = some (ys, rng') ∧ ys.Perm xs :=
  shuffleFrom_spec rand _ (by omega) rng

end Sampling
