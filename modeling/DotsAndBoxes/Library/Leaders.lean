import Mathlib.Data.List.Induction
import Mathlib.Order.Bounds.Basic
import Mathlib.Tactic

/-! # Leaders found in one pass

A pass over a list keeps the best score so far. One pass skips some elements and keeps a name of
the first best among the others. Another keeps the first best element with a flag that another
has its score. What such a pass keeps is read off a split of the list: scores are smaller before
the leader, and no larger after it.
-/

namespace Leaders

variable {α β γ : Type*} [LinearOrder β] {skip : α → Prop} {score : α → β}
  {l before after : List α} {a b : α}

/-- The places of elements that count and score no less than any other that counts. -/
def top (skip : α → Prop) (score : α → β) (l : List α) : Set (Fin l.length) :=
  {i | ¬ skip (l.get i) ∧ ∀ j, ¬ skip (l.get j) → score (l.get j) ≤ score (l.get i)}

/-- The list splits at the first element with the best score, among the elements that count. -/
structure Leads (skip : α → Prop) (score : α → β) (l before : List α) (a : α) (after : List α) :
    Prop where
  split : l = before ++ a :: after
  counts : ¬ skip a
  before : ∀ b ∈ before, ¬ skip b → score b < score a
  after : ∀ b ∈ after, ¬ skip b → score b ≤ score a

theorem Leads.keep (h : Leads skip score l before a after) (hle : ¬ skip b → score b ≤ score a) :
    Leads skip score (l ++ [b]) before a (after ++ [b]) where
  split := by rw [h.split]; simp
  counts := h.counts
  before := h.before
  after := by
    intro c hc
    rcases List.mem_append.mp hc with hc | hc
    · exact h.after c hc
    · rw [List.mem_singleton.mp hc]
      exact hle

theorem Leads.take (hb : ¬ skip b) (hlt : ∀ c ∈ l, ¬ skip c → score c < score b) :
    Leads skip score (l ++ [b]) l b [] :=
  ⟨rfl, hb, hlt, fun _ hc => absurd hc List.not_mem_nil⟩

theorem Leads.le (h : Leads skip score l before a after) (hb : b ∈ l) (hcounts : ¬ skip b) :
    score b ≤ score a := by
  rw [h.split, List.mem_append, List.mem_cons] at hb
  rcases hb with hb | rfl | hb
  · exact (h.before b hb hcounts).le
  · exact le_rfl
  · exact h.after b hb hcounts

theorem get_split (h : l = before ++ a :: after) (j : Fin l.length) :
    j.val < before.length ∧ l.get j ∈ before ∨ j.val = before.length ∧ l.get j = a ∨
      before.length < j.val ∧ l.get j ∈ after := by
  subst h
  rcases lt_trichotomy j.val before.length with hlt | heq | hgt
  · refine .inl ⟨hlt, ?_⟩
    rw [List.get_eq_getElem, List.getElem_append_left hlt]
    exact List.getElem_mem hlt
  · exact .inr (.inl ⟨heq, by simp [heq]⟩)
  · refine .inr (.inr ⟨hgt, ?_⟩)
    have hlen : j.val < before.length + (after.length + 1) := by simpa using j.isLt
    rw [List.get_eq_getElem, List.getElem_append_right hgt.le,
      List.getElem_cons, dif_neg (by omega)]
    exact List.getElem_mem _

theorem Leads.isLeast (h : Leads skip score l before a after) {i : Fin l.length}
    (hi : i.val = before.length) (hget : l.get i = a) : IsLeast (top skip score l) i := by
  refine ⟨⟨hget ▸ h.counts, fun j hj => ?_⟩, ?_⟩
  · rw [hget]
    exact h.le (List.get_mem l j) hj
  · rintro j ⟨hj, hbest⟩
    rcases get_split h.split j with ⟨-, hmem⟩ | ⟨hj, -⟩ | ⟨hj, -⟩
    · have hle := hbest i (hget ▸ h.counts)
      rw [hget] at hle
      exact absurd (h.before _ hmem hj) (not_lt.mpr hle)
    · exact (Fin.ext (hi.trans hj.symm)).le
    · exact Fin.le_def.mpr (by omega)

theorem Leads.exists_isLeast (h : Leads skip score l before a after) :
    ∃ i : Fin l.length, i.val = before.length ∧ l.get i = a ∧ IsLeast (top skip score l) i := by
  obtain ⟨i, hi, hget⟩ : ∃ i : Fin l.length, i.val = before.length ∧ l.get i = a := by
    obtain rfl := h.split
    exact ⟨⟨before.length, by simp⟩, rfl, by simp⟩
  exact ⟨i, hi, hget, h.isLeast hi hget⟩

/-- Another element has the best score exactly when one after the leader has it. -/
theorem Leads.shared_iff (h : Leads (fun _ => False) score l before a after) {i : Fin l.length}
    (hi : i.val = before.length) :
    (∃ b ∈ after, score b = score a) ↔ ∃ j, j ≠ i ∧ score (l.get j) = score a := by
  constructor
  · rintro ⟨b, hb, heq⟩
    obtain ⟨k, hk, rfl⟩ := List.getElem_of_mem hb
    obtain rfl := h.split
    refine ⟨⟨before.length + 1 + k, by simp; omega⟩, fun hij => ?_, ?_⟩
    · have hval := congrArg Fin.val hij
      simp only at hval
      omega
    · simpa [add_assoc, add_comm 1 k] using heq
  · rintro ⟨j, hne, heq⟩
    rcases get_split h.split j with ⟨-, hmem⟩ | ⟨hj, -⟩ | ⟨-, hmem⟩
    · exact absurd heq (h.before _ hmem id).ne
    · exact absurd (Fin.ext (hj.trans hi.symm)) hne
    · exact ⟨_, hmem, heq⟩

/-- Keep the best score, and the name of the element that has it. -/
def bestSoFar (skip : α → Prop) [DecidablePred skip] (score : α → β) (name : α → γ)
    (best : β × γ) (a : α) : β × γ :=
  if skip a then best
  else if best.1 < score a then (score a, name a)
  else best

/-- When every score is above the start value, the pass ends with the first best element, or
with the start if no element counts. -/
theorem foldl_bestSoFar (skip : α → Prop) [DecidablePred skip] (score : α → β) (name : α → γ)
    {start : β × γ} (hlow : ∀ a ∈ l, start.1 < score a) :
    (∀ a ∈ l, skip a) ∧ l.foldl (bestSoFar skip score name) start = start ∨
      ∃ before a after, Leads skip score l before a after ∧
        l.foldl (bestSoFar skip score name) start = (score a, name a) := by
  induction l using List.reverseRecOn with
  | nil => exact .inl ⟨by simp, rfl⟩
  | append_singleton l b ih =>
    rw [List.foldl_append, List.foldl_cons, List.foldl_nil]
    have hstart : start.1 < score b := hlow b (by simp)
    rcases ih fun a ha => hlow a (List.mem_append_left _ ha) with
      ⟨hall, hfold⟩ | ⟨before, a, after, hlead, hfold⟩
    · rw [hfold]
      unfold bestSoFar
      by_cases hb : skip b
      · rw [if_pos hb]
        refine .inl ⟨fun a ha => ?_, rfl⟩
        rcases List.mem_append.mp ha with ha | ha
        · exact hall a ha
        · rwa [List.mem_singleton.mp ha]
      · rw [if_neg hb, if_pos hstart]
        exact .inr ⟨l, b, [], .take hb fun c hc hcounts => absurd (hall c hc) hcounts, rfl⟩
    · rw [hfold]
      unfold bestSoFar
      right
      by_cases hb : skip b
      · rw [if_pos hb]
        exact ⟨_, _, _, hlead.keep fun hcounts => absurd hb hcounts, rfl⟩
      · rw [if_neg hb]
        split_ifs with hlt
        · exact ⟨_, _, _, .take hb fun c hc hcounts => (hlead.le hc hcounts).trans_lt hlt, rfl⟩
        · exact ⟨_, _, _, hlead.keep fun _ => not_lt.mp hlt, rfl⟩

theorem exists_bestSoFar (skip : α → Prop) [DecidablePred skip] (score : α → β) (name : α → γ)
    {start : β × γ} (hlow : ∀ a ∈ l, start.1 < score a) :
    (∀ a ∈ l, skip a) ∧ (l.foldl (bestSoFar skip score name) start).2 = start.2 ∨
      ∃ i, IsLeast (top skip score l) i ∧
        (l.foldl (bestSoFar skip score name) start).2 = name (l.get i) := by
  rcases foldl_bestSoFar skip score name hlow with ⟨hall, hfold⟩ | ⟨_, a, _, hlead, hfold⟩
  · exact .inl ⟨hall, by rw [hfold]⟩
  · obtain ⟨i, -, hget, hleast⟩ := hlead.exists_isLeast
    exact .inr ⟨i, hleast, by rw [hfold, hget]⟩

/-- Keep the best score, the first element that has it, and whether another has it too. -/
def keepLeader (score : α → β) (best : β × α × Bool) (a : α) : β × α × Bool :=
  if best.1 < score a then (score a, a, false)
  else if score a = best.1 then (best.1, best.2.1, true)
  else best

/-- The pass ends with the first best element, and the flag says that one after it equals it. -/
theorem foldl_keepLeader (score : α → β) (first : α) (rest : List α) :
    ∃ before a after tie, Leads (fun _ => False) score (first :: rest) before a after ∧
      rest.foldl (keepLeader score) (score first, first, false) = (score a, a, tie) ∧
      (tie = true ↔ ∃ b ∈ after, score b = score a) := by
  induction rest using List.reverseRecOn with
  | nil => exact ⟨[], first, [], false, .take (l := []) id (by simp), rfl, by simp⟩
  | append_singleton rest b ih =>
    obtain ⟨before, a, after, tie, hlead, hfold, htie⟩ := ih
    rw [List.foldl_append, List.foldl_cons, List.foldl_nil, hfold, ← List.cons_append]
    unfold keepLeader
    split_ifs with hlt heq
    · exact ⟨_, b, [], false, .take id fun c hc hcounts => (hlead.le hc hcounts).trans_lt hlt,
        rfl, by simp⟩
    · refine ⟨before, a, after ++ [b], true, hlead.keep fun _ => heq.le, rfl, ?_⟩
      exact ⟨fun _ => ⟨b, by simp, heq⟩, fun _ => rfl⟩
    · refine ⟨before, a, after ++ [b], tie, hlead.keep fun _ => not_lt.mp hlt, rfl, htie.trans ?_⟩
      simp [heq]

theorem exists_keepLeader (score : α → β) (first : α) (rest : List α) :
    ∃ i tie, IsLeast (top (fun _ => False) score (first :: rest)) i ∧
      rest.foldl (keepLeader score) (score first, first, false) =
        (score ((first :: rest).get i), (first :: rest).get i, tie) ∧
      (tie = true ↔
        ∃ j, j ≠ i ∧ score ((first :: rest).get j) = score ((first :: rest).get i)) := by
  obtain ⟨before, a, after, tie, hlead, hfold, htie⟩ := foldl_keepLeader score first rest
  obtain ⟨i, hi, hget, hleast⟩ := hlead.exists_isLeast
  refine ⟨i, tie, hleast, by rw [hget, hfold], htie.trans ?_⟩
  rw [hget]
  exact hlead.shared_iff hi

end Leaders
