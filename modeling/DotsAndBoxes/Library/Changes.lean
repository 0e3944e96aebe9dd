import Mathlib.Data.List.Basic

/-! # Reports of changes

A machine has a level, which is up or down, and reports the new level with every step that
changes it. Then the reports alternate, and the last report is the level.
-/

namespace Changes

variable {σ ι : Type*}

def Alternates : Bool → List Bool → Prop
  | _, [] => True
  | next, b :: bs => b = next ∧ Alternates (!next) bs

def reported (step : ι → σ → σ) (reports : ι → σ → List Bool) : σ → List ι → List Bool
  | _, [] => []
  | s, i :: is => reports i s ++ reported step reports (step i s) is

/-- From any state that satisfies the invariant, a step reports the level if it changes it. -/
structure Reports (step : ι → σ → σ) (reports : ι → σ → List Bool) (level : σ → Bool)
    (Inv : σ → Prop) : Prop where
  inv : ∀ i s, Inv s → Inv (step i s)
  changed : ∀ i s, Inv s →
    reports i s = if level (step i s) = level s then [] else [level (step i s)]

variable {step : ι → σ → σ} {reports : ι → σ → List Bool} {level : σ → Bool} {Inv : σ → Prop}
  {s : σ}

namespace Reports

theorem inv_foldl (h : Reports step reports level Inv) (hs : Inv s) (is : List ι) :
    Inv (is.foldl (fun s i => step i s) s) := by
  induction is generalizing s with
  | nil => exact hs
  | cons i is ih => exact ih (h.inv i s hs)

theorem alternates (h : Reports step reports level Inv) (hs : Inv s) (is : List ι) :
    Alternates (!level s) (reported step reports s is) := by
  induction is generalizing s with
  | nil => trivial
  | cons i is ih =>
    have hrest := ih (h.inv i s hs)
    rw [reported, h.changed i s hs]
    split_ifs with hsame
    · rw [hsame] at hrest
      exact hrest
    · have hflip : level (step i s) = !level s := Bool.eq_not_of_ne hsame
      refine ⟨hflip, ?_⟩
      rwa [hflip] at hrest

theorem getLast?_reported (h : Reports step reports level Inv) (hs : Inv s) (is : List ι) :
    (reported step reports s is).getLast?.getD (level s) =
      level (is.foldl (fun s i => step i s) s) := by
  induction is generalizing s with
  | nil => rfl
  | cons i is ih =>
    have hrest := ih (h.inv i s hs)
    rw [reported, h.changed i s hs, List.foldl_cons, ← hrest]
    split_ifs with hsame
    · rw [hsame, List.nil_append]
    · rw [List.getLast?_append]
      cases (reported step reports (step i s) is).getLast? <;> rfl

end Reports

end Changes
