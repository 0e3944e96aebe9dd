import DotsAndBoxes.Library.Runs
import Mathlib.Data.List.Basic

/-! # Interference

Some steps of a system are hidden, and a view of its states leaves out what they do. When
a hidden step keeps the view, and any other step turns equal views into equal views, what
is seen in the end depends on the steps that are not hidden, and on nothing else.
-/

namespace Runs

variable {σ ι ω : Type*} {P : σ → ι → σ → Prop} {view : σ → ω} {hidden : ι → Bool}
  {s t : σ} {run run' : List (ι × σ)}

def shown (hidden : ι → Bool) (run : List (ι × σ)) : List ι :=
  (run.map Prod.fst).filter fun i => !hidden i

@[simp] theorem shown_nil : shown hidden ([] : List (ι × σ)) = [] := rfl

theorem shown_cons_of_hidden {i : ι} (hi : hidden i = true) :
    shown hidden ((i, s) :: run) = shown hidden run := by
  simp [shown, hi]

theorem shown_cons {i : ι} (hi : hidden i = false) :
    shown hidden ((i, s) :: run) = i :: shown hidden run := by
  simp [shown, hi]

def Hides (P : σ → ι → σ → Prop) (hidden : ι → Bool) (view : σ → ω) : Prop :=
  ∀ s i s', P s i s' → hidden i = true → view s' = view s

/-- What a step that is not hidden does to the view depends on the view. -/
def Determines (P : σ → ι → σ → Prop) (hidden : ι → Bool) (view : σ → ω) : Prop :=
  ∀ s t i s' t', P s i s' → P t i t' → hidden i = false → view s = view t → view s' = view t'

theorem Hides.view_last (hhides : Hides P hidden view) (h : Along P s run)
    (hshown : shown hidden run = []) : view (last s run) = view s := by
  induction run generalizing s with
  | nil => rfl
  | cons step run ih =>
    obtain ⟨i, s'⟩ := step
    cases hi : hidden i with
    | true =>
      rw [shown_cons_of_hidden hi] at hshown
      exact (ih h.2 hshown).trans (hhides _ _ _ h.1 hi)
    | false =>
      rw [shown_cons hi] at hshown
      cases hshown

theorem Hides.exists_shown (hhides : Hides P hidden view) {i : ι} {rest : List ι}
    (h : Along P s run) (hshown : shown hidden run = i :: rest) :
    ∃ t t' run', P t i t' ∧ view t = view s ∧ Along P t' run' ∧ shown hidden run' = rest ∧
      last s run = last t' run' := by
  induction run generalizing s with
  | nil => cases hshown
  | cons step run ih =>
    obtain ⟨j, s'⟩ := step
    cases hj : hidden j with
    | true =>
      rw [shown_cons_of_hidden hj] at hshown
      obtain ⟨t, t', run', hstep, hview, hrest⟩ := ih h.2 hshown
      exact ⟨t, t', run', hstep, hview.trans (hhides _ _ _ h.1 hj), hrest⟩
    | false =>
      rw [shown_cons hj] at hshown
      obtain ⟨rfl, hrest⟩ := List.cons.inj hshown
      exact ⟨s, s', run, h.1, rfl, h.2, hrest, rfl⟩

theorem view_last_eq (hhides : Hides P hidden view) (hdetermines : Determines P hidden view)
    (h : Along P s run) (h' : Along P t run') (hview : view s = view t)
    (hshown : shown hidden run = shown hidden run') :
    view (last s run) = view (last t run') := by
  induction run generalizing s t run' with
  | nil => exact hview.trans (hhides.view_last h' hshown.symm).symm
  | cons step run ih =>
    obtain ⟨i, s'⟩ := step
    cases hi : hidden i with
    | true =>
      rw [shown_cons_of_hidden hi] at hshown
      exact ih h.2 h' ((hhides _ _ _ h.1 hi).trans hview) hshown
    | false =>
      rw [shown_cons hi] at hshown
      obtain ⟨u, u', rest, hstep, hu, hrest, hsame, hlast⟩ := hhides.exists_shown h' hshown.symm
      rw [hlast]
      exact ih h.2 hrest (hdetermines _ _ _ _ _ h.1 hstep hi (hview.trans hu.symm)) hsame.symm

end Runs
