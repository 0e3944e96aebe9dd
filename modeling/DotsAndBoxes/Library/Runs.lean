import Mathlib.Logic.Basic
import Mathlib.Data.List.Basic
import Mathlib.Data.Set.Insert
import Mathlib.Tactic.Tauto

/-! # Labelled runs

A run from a state is a list of labelled states. What holds along a run holds of each
of its steps, between the state before, the label and the state after. A condition on
the steps of a run is exact for a property of them when an invariant makes the two
agree on one step and survives the steps that meet the condition.
-/

namespace Runs

variable {σ ι : Type*}

/-- Every step of the run from the state satisfies the relation. -/
def Along (P : σ → ι → σ → Prop) : σ → List (ι × σ) → Prop
  | _, [] => True
  | s, (i, s') :: run => P s i s' ∧ Along P s' run

instance Along.decidable {P : σ → ι → σ → Prop} [∀ s i s', Decidable (P s i s')] :
    ∀ (s : σ) (run : List (ι × σ)), Decidable (Along P s run)
  | _, [] => inferInstanceAs (Decidable True)
  | s, (i, s') :: run =>
    have := Along.decidable (P := P) s' run
    inferInstanceAs (Decidable (P s i s' ∧ Along P s' run))

def last : σ → List (ι × σ) → σ
  | s, [] => s
  | _, (_, s') :: run => last s' run

variable {P Step Good Meets : σ → ι → σ → Prop} {Inv : σ → Prop} {s : σ} {run : List (ι × σ)}

@[simp] theorem last_append (s : σ) (run rest : List (ι × σ)) :
    last s (run ++ rest) = last (last s run) rest := by
  induction run generalizing s with
  | nil => rfl
  | cons step run ih => exact ih step.2

@[simp] theorem along_append {rest : List (ι × σ)} :
    Along P s (run ++ rest) ↔ Along P s run ∧ Along P (last s run) rest := by
  induction run generalizing s with
  | nil => simp [Along, last]
  | cons step run ih => simp [Along, last, ih, and_assoc]

theorem Along.imp {Q : σ → ι → σ → Prop} (h : Along P s run)
    (himp : ∀ s i s', P s i s' → Q s i s') : Along Q s run := by
  induction run generalizing s with
  | nil => trivial
  | cons step run ih => exact ⟨himp _ _ _ h.1, ih h.2⟩

theorem Along.and {Q : σ → ι → σ → Prop} (hP : Along P s run) (hQ : Along Q s run) :
    Along (fun s i s' => P s i s' ∧ Q s i s') s run := by
  induction run generalizing s with
  | nil => trivial
  | cons step run ih => exact ⟨⟨hP.1, hQ.1⟩, ih hP.2 hQ.2⟩

theorem Along.inv_last (h : Along Step s run) (hs : Inv s)
    (hstep : ∀ s i s', Inv s → Step s i s' → Inv s') : Inv (last s run) := by
  induction run generalizing s with
  | nil => exact hs
  | cons step run ih => exact ih h.2 (hstep _ _ _ hs h.1)

theorem Along.with_inv (h : Along P s run) (hs : Inv s)
    (hstep : ∀ s i s', Inv s → P s i s' → Inv s') :
    Along (fun s i s' => P s i s' ∧ Inv s) s run := by
  induction run generalizing s with
  | nil => trivial
  | cons step run ih => exact ⟨⟨h.1, hs⟩, ih h.2 (hstep _ _ _ hs h.1)⟩

theorem along_label_iff {Q : ι → Prop} :
    Along (fun _ i _ => Q i) s run ↔ ∀ step ∈ run, Q step.1 := by
  induction run generalizing s with
  | nil => simp [Along]
  | cons step run ih => rw [Along, ih, List.forall_mem_cons]

theorem along_iff_split : Along P s run ↔
    ∀ before i t after, run = before ++ (i, t) :: after → P (last s before) i t := by
  constructor
  · rintro h before i t after rfl
    exact (along_append.mp h).2.1
  · intro h
    induction run generalizing s with
    | nil => trivial
    | cons step run ih =>
      refine ⟨h [] step.1 step.2 run rfl, ih ?_⟩
      rintro before i t after rfl
      exact h (step :: before) i t after rfl

theorem Along.snoc {i : ι} {t : σ} (h : Along P s run) (hstep : P (last s run) i t) :
    Along P s (run ++ [(i, t)]) :=
  along_append.mpr ⟨h, hstep, trivial⟩

def visited (s : σ) (run : List (ι × σ)) : Set σ := {t | t = s ∨ t ∈ run.map Prod.snd}

theorem forall_visited_iff {Q : σ → Prop} :
    (∀ t ∈ visited s run, Q t) ↔ Q s ∧ Along (fun _ _ t => Q t) s run := by
  induction run generalizing s with
  | nil => simp [visited, Along]
  | cons step run ih =>
    rw [Along, ← ih]
    constructor
    · intro h
      refine ⟨h s (.inl rfl), ?_⟩
      rintro t (rfl | ht)
      · exact h step.2 (.inr List.mem_cons_self)
      · exact h t (.inr (List.mem_cons_of_mem _ ht))
    · rintro ⟨hs, hrest⟩ t (rfl | ht)
      · exact hs
      · exact hrest t (List.mem_cons.mp ht)

theorem Along.forall_visited (h : Along Step s run) (hs : Inv s)
    (hstep : ∀ s i s', Inv s → Step s i s' → Inv s') : ∀ t ∈ visited s run, Inv t := by
  rw [forall_visited_iff]
  constructor
  · exact hs
  · exact (h.with_inv hs hstep).imp fun s i s' ⟨hi, hinv⟩ => hstep s i s' hinv hi

theorem last_mem_visited (s : σ) (run : List (ι × σ)) : last s run ∈ visited s run := by
  induction run generalizing s with
  | nil => exact .inl rfl
  | cons step run ih =>
    rcases ih step.2 with h | h
    · exact .inr (h ▸ List.mem_cons_self)
    · exact .inr (List.mem_cons_of_mem _ h)

theorem visited_append (s : σ) (run rest : List (ι × σ)) :
    visited (last s run) rest ⊆ visited s (run ++ rest) := by
  rintro t (rfl | ht)
  · rcases last_mem_visited s run with h | h
    · exact .inl h
    · exact .inr (List.map_append ▸ List.mem_append_left _ h)
  · exact .inr (List.map_append ▸ List.mem_append_right _ ht)

theorem along_visited (s : σ) (run : List (ι × σ)) :
    Along (fun t _ _ => t ∈ visited s run) s run := by
  rw [along_iff_split]
  rintro before i t after rfl
  exact visited_append _ _ _ (.inl rfl)

theorem Along.inv_past {past : Set σ} (Inv : Set σ → σ → Prop) (h : Along P s run)
    (hs : Inv past s)
    (hstep : ∀ past s i s', Inv past s → P s i s' → Inv (insert s' past) s') :
    Inv (past ∪ {t | t ∈ run.map Prod.snd}) (last s run) := by
  induction run generalizing past s with
  | nil => simpa [last] using hs
  | cons step run ih =>
    have hunion : past ∪ {t | t ∈ (step :: run).map Prod.snd} =
        insert step.2 past ∪ {t | t ∈ run.map Prod.snd} := by
      ext t
      simp only [List.map_cons, List.mem_cons, Set.mem_union, Set.mem_insert_iff,
        Set.mem_ofPred_eq]
      tauto
    rw [hunion]
    exact ih h.2 (hstep _ _ _ _ hs h.1)

theorem Along.inv_visited (Inv : Set σ → σ → Prop) (h : Along P s run) (hs : Inv {s} s)
    (hstep : ∀ past s i s', Inv past s → P s i s' → Inv (insert s' past) s') :
    Inv (visited s run) (last s run) :=
  h.inv_past Inv hs hstep

def Leads (P : σ → ι → σ → Prop) (s t : σ) : Prop := ∃ run, Along P s run ∧ last s run = t

namespace Leads

variable {t u : σ} {i : ι}

theorem refl (s : σ) : Leads P s s := ⟨[], trivial, rfl⟩

theorem tail (h : Leads P s t) (hstep : P t i u) : Leads P s u := by
  obtain ⟨run, hrun, rfl⟩ := h
  exact ⟨run ++ [(i, u)], hrun.snoc hstep, last_append _ _ _⟩

theorem head (hstep : P s i t) (h : Leads P t u) : Leads P s u := by
  obtain ⟨run, hrun, rfl⟩ := h
  exact ⟨(i, t) :: run, ⟨hstep, hrun⟩, rfl⟩

theorem imp {Q : σ → ι → σ → Prop} (h : Leads P s t)
    (himp : ∀ s i s', P s i s' → Q s i s') : Leads Q s t := by
  obtain ⟨run, hrun, hlast⟩ := h
  exact ⟨run, hrun.imp himp, hlast⟩

theorem trans (h : Leads P s t) (h' : Leads P t u) : Leads P s u := by
  obtain ⟨run, hrun, rfl⟩ := h
  obtain ⟨run', hrun', rfl⟩ := h'
  exact ⟨run ++ run', along_append.mpr ⟨hrun, hrun'⟩, last_append _ _ _⟩

theorem inv (h : Leads P s t) (hs : Inv s) (hstep : ∀ s i s', Inv s → P s i s' → Inv s') :
    Inv t := by
  obtain ⟨run, hrun, rfl⟩ := h
  exact hrun.inv_last hs hstep

end Leads

/-- An invariant that survives the steps which meet the condition, and under which meeting
the condition is being good, makes the condition exact for whole runs. -/
theorem along_good_iff (Inv : σ → Prop) (h : Along Step s run) (hs : Inv s)
    (hgood : ∀ s i s', Inv s → Step s i s' → (Good s i s' ↔ Meets s i s'))
    (hstep : ∀ s i s', Inv s → Step s i s' → Meets s i s' → Inv s') :
    Along Good s run ↔ Along Meets s run := by
  induction run generalizing s with
  | nil => exact Iff.rfl
  | cons step run ih =>
    obtain ⟨i, s'⟩ := step
    obtain ⟨hfirst, hrest⟩ := h
    have hone := hgood s i s' hs hfirst
    constructor
    · rintro ⟨hg, hgs⟩
      exact ⟨hone.mp hg, (ih hrest (hstep _ _ _ hs hfirst (hone.mp hg))).mp hgs⟩
    · rintro ⟨hm, hms⟩
      exact ⟨hone.mpr hm, (ih hrest (hstep _ _ _ hs hfirst hm)).mpr hms⟩

theorem visited_good_iff {Q : σ → Prop} (Inv : σ → Prop) (h : Along Step s run) (hQ : Q s)
    (hs : Inv s) (hgood : ∀ s i s', Inv s → Step s i s' → (Q s' ↔ Meets s i s'))
    (hstep : ∀ s i s', Inv s → Step s i s' → Meets s i s' → Inv s') :
    (∀ t ∈ visited s run, Q t) ↔ Along Meets s run := by
  rw [forall_visited_iff, and_iff_right hQ]
  exact along_good_iff Inv h hs hgood hstep

end Runs
