import Mathlib.Tactic

/-! # Lockstep simulation of partial machines

A machine answers commands one by one and may stop for good on one of them. Two
machines whose states stay related, and that answer related states alike, give
the same trace for every sequence of commands.
-/

namespace Simulation

variable {C O S T α β γ δ : Type*}

/-- The answers of a machine to a sequence of commands; a final `none` marks a stop. -/
def trace (step : C → S → Option (S × O)) : S → List C → List (Option O)
  | _, [] => []
  | s, c :: cs =>
    match step c s with
    | none => [none]
    | some (s', o) => some o :: trace step s' cs

/-- Two machines step from related states to related states, with the same answer. -/
def Lockstep (R : S → T → Prop) (step : C → S → Option (S × O)) (step' : C → T → Option (T × O)) :
    Prop :=
  ∀ c s t, R s t → Option.Rel (fun a b => R a.1 b.1 ∧ a.2 = b.2) (step c s) (step' c t)

theorem Lockstep.trace_eq {R : S → T → Prop} {step : C → S → Option (S × O)}
    {step' : C → T → Option (T × O)} (h : Lockstep R step step') {s : S} {t : T} (hst : R s t)
    (cs : List C) : trace step s cs = trace step' t cs := by
  induction cs generalizing s t with
  | nil => rfl
  | cons c cs ih =>
    have hrel := h c s t hst
    unfold trace
    generalize step c s = x at hrel
    generalize step' c t = y at hrel
    cases hrel with
    | none => rfl
    | @some a b hab =>
      change some a.2 :: trace step a.1 cs = some b.2 :: trace step' b.1 cs
      rw [hab.2, ih hab.1]

theorem exists_of_rel_some {R : α → β → Prop} {a : α} {y : Option β}
    (h : Option.Rel R (some a) y) : ∃ b, y = some b ∧ R a b := by
  cases h with
  | some hab => exact ⟨_, rfl, hab⟩

theorem exists_of_rel_of_some {R : α → β → Prop} {x : Option α} {b : β}
    (h : Option.Rel R x (some b)) : ∃ a, x = some a ∧ R a b := by
  cases h with
  | some hab => exact ⟨_, rfl, hab⟩

theorem rel_bind {R : α → β → Prop} {Q : γ → δ → Prop} {x : Option α} {y : Option β}
    {f : α → Option γ} {g : β → Option δ} (hxy : Option.Rel R x y)
    (hfg : ∀ a b, R a b → Option.Rel Q (f a) (g b)) : Option.Rel Q (x.bind f) (y.bind g) := by
  cases hxy with
  | none => exact .none
  | some hab => exact hfg _ _ hab

theorem rel_map_of_eq_some {R : α → β → Prop} {Q : γ → δ → Prop} {x : Option α} {y : Option β}
    {f : α → γ} {g : β → δ} (hxy : Option.Rel R x y)
    (hfg : ∀ a b, x = some a → y = some b → R a b → Q (f a) (g b)) :
    Option.Rel Q (x.map f) (y.map g) := by
  cases hxy with
  | none => exact .none
  | some hab => exact .some (hfg _ _ rfl rfl hab)

theorem rel_map {R : α → β → Prop} {Q : γ → δ → Prop} {x : Option α} {y : Option β}
    {f : α → γ} {g : β → δ} (hxy : Option.Rel R x y) (hfg : ∀ a b, R a b → Q (f a) (g b)) :
    Option.Rel Q (x.map f) (y.map g) :=
  rel_map_of_eq_some hxy fun a b _ _ => hfg a b

theorem rel_bind_self {Q : γ → δ → Prop} {x : Option α} {f : α → Option γ} {g : α → Option δ}
    (hfg : ∀ a, Option.Rel Q (f a) (g a)) : Option.Rel Q (x.bind f) (x.bind g) := by
  cases x with
  | none => exact .none
  | some a => exact hfg a

theorem rel_foldlM {R : α → β → Prop} {P : γ → δ → Prop} {f : α → γ → Option α}
    {g : β → δ → Option β} (hfg : ∀ a b c d, R a b → P c d → Option.Rel R (f a c) (g b d))
    {cs : List γ} {ds : List δ} (hcd : List.Forall₂ P cs ds) {a : α} {b : β} (hab : R a b) :
    Option.Rel R (cs.foldlM f a) (ds.foldlM g b) := by
  induction hcd generalizing a b with
  | nil => exact .some hab
  | cons hP _ ih => exact rel_bind (hfg _ _ _ _ hab hP) fun _ _ h => ih h

end Simulation
