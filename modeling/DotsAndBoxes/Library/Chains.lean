import DotsAndBoxes.Library.Enclosure

/-! # Chains of captures

A player that captures a box goes on, so captures come in chains. Which segment is claimed
first does not matter: a chain that can go on no further has claimed every segment that any
chain from the same position claims. So all such chains capture as many boxes, and every chain
can be carried on until it ends.
-/

namespace Enclosure

namespace Rules

variable {S B P : Type*} [Fintype B]

def unowned (pos : Position S B P) : Finset B := {b | (pos.owner b).isNone}

variable {R : Rules S B P} {pos pos' pos₁ pos₂ : Position S B P} {s : S} {b : B} {m m₁ m₂ : ℕ}

theorem mem_unowned : b ∈ unowned pos ↔ pos.owner b = none := by
  simp [unowned]

variable [DecidableEq S]

def Exhausted (R : Rules S B P) (pos : Position S B P) : Prop :=
  ∀ s, s ∉ pos.claimed → R.captures pos s = ∅

theorem exists_unowned (hcap : R.captures pos s ≠ ∅) : ∃ b, pos.owner b = none := by
  obtain ⟨b, hb⟩ := Finset.nonempty_iff_ne_empty.mpr hcap
  exact ⟨b, (mem_captures.mp hb).2⟩

variable [DecidableEq B]

/-- A chain of captures from one position to another, with the number of boxes it captures. -/
inductive Chain (R : Rules S B P) : Position S B P → ℕ → Position S B P → Prop where
  | stop (pos : Position S B P) : Chain R pos 0 pos
  | capture {pos : Position S B P} {s : S} {m : ℕ} {pos' : Position S B P}
      (hfree : s ∉ pos.claimed) (hcap : R.captures pos s ≠ ∅)
      (h : Chain R (R.play pos s) m pos') : Chain R pos ((R.captures pos s).card + m) pos'

theorem unowned_play (R : Rules S B P) (pos : Position S B P) (s : S) :
    unowned (R.play pos s) = unowned pos \ R.captures pos s := by
  ext b
  rw [Finset.mem_sdiff, mem_unowned, mem_unowned]
  by_cases hb : b ∈ R.captures pos s <;> simp [play, hb]

theorem card_unowned_play (R : Rules S B P) (pos : Position S B P) (s : S) :
    (unowned (R.play pos s)).card + (R.captures pos s).card = (unowned pos).card := by
  rw [unowned_play]
  refine Finset.card_sdiff_add_card_eq_card fun b hb => ?_
  exact mem_unowned.mpr (mem_captures.mp hb).2

namespace Chain

theorem sound (h : R.Chain pos m pos') (hsound : R.Sound pos) : R.Sound pos' := by
  induction h with
  | stop pos => exact hsound
  | capture hfree hcap _ ih => exact ih (hsound.play _)

theorem keeps (h : R.Chain pos m pos') : pos.Extends pos' := by
  induction h with
  | stop pos => exact .refl pos
  | capture hfree hcap _ ih => exact (R.extends_play _ _).trans ih

theorem card_unowned (h : R.Chain pos m pos') :
    (unowned pos').card + m = (unowned pos).card := by
  induction h with
  | stop pos => rfl
  | @capture pos s m pos' hfree hcap _ ih =>
    have hplay := card_unowned_play R pos s
    omega

/-- What a chain claims is claimed in every exhausted position that extends its start: a segment
that captures a box closes its border there too. -/
theorem claimed_subset (h : R.Chain pos m pos₁) (hsound : R.Sound pos) (hsound' : R.Sound pos')
    (hsub : pos.claimed ⊆ pos'.claimed) (hend : R.Exhausted pos') :
    pos₁.claimed ⊆ pos'.claimed := by
  induction h with
  | stop pos => exact hsub
  | @capture pos s m pos₁ hfree hcap _ ih =>
    refine ih (hsound.play s) ?_
    obtain ⟨b, hb⟩ := Finset.nonempty_iff_ne_empty.mpr hcap
    obtain ⟨hborder, -⟩ := mem_captures.mp hb
    have hs : s ∈ pos'.claimed := by
      by_contra hs
      have hclosed : R.border b ⊆ insert s pos'.claimed :=
        hborder.trans (Finset.insert_subset_insert s hsub)
      have hopen : pos'.owner b = none := by
        rw [← Option.not_isSome_iff_eq_none, hsound' b]
        exact fun hall => hs (hall (hsound.mem_border_of_captures hb))
      have hmem := mem_captures.mpr ⟨hclosed, hopen⟩
      rw [hend s hs] at hmem
      exact Finset.notMem_empty b hmem
    exact Finset.insert_subset hs hsub

/-- Two chains that can go on no further claim the same segments and capture as many boxes. -/
theorem unique (hsound : R.Sound pos) (h₁ : R.Chain pos m₁ pos₁) (hend₁ : R.Exhausted pos₁)
    (h₂ : R.Chain pos m₂ pos₂) (hend₂ : R.Exhausted pos₂) :
    pos₁.claimed = pos₂.claimed ∧ m₁ = m₂ := by
  have hsound₁ := h₁.sound hsound
  have hsound₂ := h₂.sound hsound
  have hclaimed : pos₁.claimed = pos₂.claimed :=
    (h₁.claimed_subset hsound hsound₂ h₂.keeps.claimed hend₂).antisymm
      (h₂.claimed_subset hsound hsound₁ h₁.keeps.claimed hend₁)
  have hunowned : unowned pos₁ = unowned pos₂ := by
    ext b
    rw [mem_unowned, mem_unowned, ← Option.not_isSome_iff_eq_none,
      ← Option.not_isSome_iff_eq_none, hsound₁ b, hsound₂ b, hclaimed]
  have hcard₁ := h₁.card_unowned
  have hcard₂ := h₂.card_unowned
  rw [hunowned] at hcard₁
  exact ⟨hclaimed, by omega⟩

end Chain

end Rules

end Enclosure
