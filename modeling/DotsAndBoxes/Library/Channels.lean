import Mathlib.Data.List.Basic
import Mathlib.Logic.Function.Basic

/-! # A copy that is fed by several channels

The versions of a value travel over several channels, each of which keeps their order, and a
copy of the value takes the next version of whatever channel has one. A version that has come on
one channel may come again on another, after a newer one, so the copy may go back for a while.
But when each version goes to every channel in use, the newest one is the last on each of them,
and the copy has it once nothing is on its way.
-/

namespace Channels

variable {ι α : Type*}

/-- The newest version is last on every channel, and has come if nothing is on its way. -/
structure Converging (value copy : α) (pending : ι → List α) : Prop where
  newest : ∀ i v, (pending i).getLast? = some v → v = value
  drained : (∀ i, pending i = []) → copy = value

variable {value value' copy v : α} {pending pending' : ι → List α} {rest : List α} {i : ι}

theorem Converging.of_drained (hpending : ∀ i, pending i = []) (hcopy : copy = value) :
    Converging value copy pending := by
  constructor
  · intro i v hlast
    rw [hpending i] at hlast
    cases hlast
  · intro _
    exact hcopy

/-- A new version that goes to every channel in use. What was on its way does not matter. -/
theorem Converging.of_change (hlast : ∀ i, pending' i = [] ∨ (pending' i).getLast? = some value')
    (hsome : ∃ i, pending' i ≠ []) : Converging value' copy pending' := by
  constructor
  · intro i v hv
    rcases hlast i with hnil | hnew
    · rw [hnil] at hv
      cases hv
    · rw [hnew] at hv
      exact (Option.some.inj hv).symm
  · intro hnil
    obtain ⟨i, hi⟩ := hsome
    exact absurd (hnil i) hi

theorem Converging.deliver [DecidableEq ι] (h : Converging value copy pending)
    (hi : pending i = v :: rest) : Converging value v (Function.update pending i rest) := by
  constructor
  · intro j w hlast
    by_cases hj : j = i
    · subst hj
      rw [Function.update_self] at hlast
      apply h.newest j w
      rw [hi, List.getLast?_cons, hlast]
      rfl
    · rw [Function.update_of_ne hj] at hlast
      exact h.newest j w hlast
  · intro hdrained
    have hrest : rest = [] := by
      have := hdrained i
      rwa [Function.update_self] at this
    apply h.newest i v
    rw [hi, hrest]
    rfl

end Channels
