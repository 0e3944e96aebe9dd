import Mathlib.Algebra.BigOperators.Finprod

/-! # Outstanding work

Each of many workers has a list of things still to do. How often a thing is outstanding with
all of them changes only with the worker who takes it on or carries it out.
-/

namespace Outstanding

open Function

variable {ι ε : Type*} [DecidableEq ι] [DecidableEq ε] {due due' : ι → List ε} {i : ι} {e e₀ : ε}
  {rest todo : List ε}

def Finitary (due : ι → List ε) : Prop := {i | due i ≠ []}.Finite

noncomputable def outstanding (due : ι → List ε) (e : ε) : ℕ := ∑ᶠ i, (due i).count e

omit [DecidableEq ε] in
theorem Finitary.update (h : Finitary due) (i : ι) (todo : List ε) :
    Finitary (update due i todo) := by
  apply (h.insert i).subset
  intro j hj
  by_cases hji : j = i
  · exact .inl hji
  · rw [Set.mem_ofPred_eq, update_of_ne hji] at hj
    exact .inr hj

omit [DecidableEq ι] in
theorem outstanding_eq_sum {s : Finset ι} (hs : ∀ i, due i ≠ [] → i ∈ s) (e : ε) :
    outstanding due e = ∑ i ∈ s, (due i).count e := by
  apply finsum_eq_sum_of_support_subset
  intro i hi
  apply hs i
  intro hnil
  rw [mem_support, hnil] at hi
  exact hi rfl

theorem outstanding_update (h : Finitary due) (i : ι) (todo : List ε) (e : ε) :
    outstanding (update due i todo) e + (due i).count e = outstanding due e + todo.count e := by
  set s : Finset ι := insert i h.toFinset
  have hi : i ∈ s := Finset.mem_insert_self _ _
  have hs (j : ι) (hj : due j ≠ []) : j ∈ s := Finset.mem_insert_of_mem (h.mem_toFinset.mpr hj)
  have hs' (j : ι) (hj : update due i todo j ≠ []) : j ∈ s := by
    by_cases hji : j = i
    · exact hji ▸ hi
    · rw [update_of_ne hji] at hj
      exact hs j hj
  have hothers : ∑ j ∈ s.erase i, (update due i todo j).count e =
      ∑ j ∈ s.erase i, (due j).count e := by
    apply Finset.sum_congr rfl
    intro j hj
    rw [update_of_ne (Finset.ne_of_mem_erase hj)]
  rw [outstanding_eq_sum hs, outstanding_eq_sum hs', ← Finset.add_sum_erase s _ hi,
    ← Finset.add_sum_erase s _ hi, hothers, update_self]
  omega

theorem outstanding_carried (h : Finitary due) (hi : due i = e₀ :: rest) (e : ε) :
    outstanding (update due i rest) e + [e₀].count e = outstanding due e := by
  have hupdate := outstanding_update h i rest e
  have hcount : ([e₀] ++ rest).count e = [e₀].count e + rest.count e :=
    List.count_append
  rw [hi, ← List.singleton_append, hcount] at hupdate
  omega

theorem outstanding_taken (h : Finitary due) (hi : due i = []) (todo : List ε) (e : ε) :
    outstanding (update due i todo) e = outstanding due e + todo.count e := by
  simpa [hi] using outstanding_update h i todo e

omit [DecidableEq ι] in
theorem outstanding_pos_iff (h : Finitary due) : 0 < outstanding due e ↔ ∃ i, e ∈ due i := by
  rw [outstanding_eq_sum (s := h.toFinset) fun i hi => h.mem_toFinset.mpr hi, Finset.sum_pos_iff]
  constructor
  · rintro ⟨i, -, hi⟩
    exact ⟨i, List.count_pos_iff.mp hi⟩
  · rintro ⟨i, hi⟩
    exact ⟨i, h.mem_toFinset.mpr (List.ne_nil_of_mem hi), List.count_pos_iff.mpr hi⟩

omit [DecidableEq ι] in
theorem outstanding_eq_zero (h : ∀ i, due i = []) (e : ε) : outstanding due e = 0 := by
  simp [outstanding, h]

end Outstanding
