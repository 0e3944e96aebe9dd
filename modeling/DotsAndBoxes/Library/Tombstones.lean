import Mathlib.Data.List.Basic
import Mathlib.Data.List.Infix
import Mathlib.Data.List.Nodup

/-! # Entries and removals

A list is kept by a log: an entry appends its key, and a removal takes every copy of its key
out. Neither looks at what the list holds, nor at what was removed from it. So the list is free
of copies and of removed keys exactly as long as no key enters a second time, and none enters
after its removal.
-/

namespace Tombstones

variable {α : Type*}

inductive Change (α : Type*) where
  | enter (a : α)
  | remove (a : α)

namespace Change

def entered? : Change α → Option α
  | .enter a => some a
  | .remove _ => none

def removed? : Change α → Option α
  | .enter _ => none
  | .remove a => some a

def apply [DecidableEq α] : Change α → List α → List α
  | .enter a, l => l ++ [a]
  | .remove a, l => l.filter (· ≠ a)

end Change

def entered (log : List (Change α)) : List α := log.filterMap Change.entered?

def removed (log : List (Change α)) : List α := log.filterMap Change.removed?

def kept [DecidableEq α] (start : List α) (log : List (Change α)) : List α :=
  log.foldl (fun l c => c.apply l) start

/-- The list holds nothing twice, and nothing that was removed. -/
structure Sound [DecidableEq α] (start : List α) (log : List (Change α)) : Prop where
  nodup : (kept start log).Nodup
  gone : ∀ a ∈ removed log, a ∉ kept start log

/-- No key enters twice, and none after its removal. -/
structure EnterOnce (start : List α) (log : List (Change α)) : Prop where
  nodup : (start ++ entered log).Nodup
  fresh : ∀ before a, before ++ [.enter a] <+: log → a ∉ removed before

variable {start : List α} {log before : List (Change α)} {a : α}

@[simp] theorem entered_append (log rest : List (Change α)) :
    entered (log ++ rest) = entered log ++ entered rest :=
  List.filterMap_append

@[simp] theorem removed_append (log rest : List (Change α)) :
    removed (log ++ rest) = removed log ++ removed rest :=
  List.filterMap_append

@[simp] theorem entered_enter (a : α) : entered [.enter a] = [a] := rfl

@[simp] theorem entered_remove (a : α) : entered [.remove a] = [] := rfl

@[simp] theorem removed_enter (a : α) : removed [.enter a] = [] := rfl

@[simp] theorem removed_remove (a : α) : removed [.remove a] = [a] := rfl

theorem EnterOnce.of_prefix (h : EnterOnce start log) (hbefore : before <+: log) :
    EnterOnce start before := by
  constructor
  · exact h.nodup.sublist ((hbefore.sublist.filterMap _).append_left start)
  · intro first a hfirst
    exact h.fresh first a (hfirst.trans hbefore)

theorem enterOnce_nil_iff : EnterOnce start [] ↔ start.Nodup := by
  constructor
  · intro h
    simpa [entered] using h.nodup
  · intro h
    constructor
    · simpa [entered] using h
    · intro before a hbefore
      simp at hbefore

theorem enterOnce_enter_iff : EnterOnce start (log ++ [Change.enter a]) ↔
    EnterOnce start log ∧ a ∉ start ++ entered log ∧ a ∉ removed log := by
  have hnodup : (start ++ entered (log ++ [Change.enter a])).Nodup ↔
      (start ++ entered log).Nodup ∧ a ∉ start ++ entered log := by
    rw [entered_append, entered_enter, ← List.append_assoc, ← List.concat_eq_append,
      List.nodup_concat, and_comm]
  constructor
  · intro h
    refine ⟨h.of_prefix (List.prefix_append log _), (hnodup.mp h.nodup).2, ?_⟩
    exact h.fresh log a List.prefix_rfl
  · rintro ⟨h, hnew, hlate⟩
    constructor
    · exact hnodup.mpr ⟨h.nodup, hnew⟩
    · intro before b hbefore
      rcases List.prefix_concat_iff.mp hbefore with heq | hlog
      · obtain ⟨rfl, hab⟩ := List.append_singleton_inj.mp heq
        cases hab
        exact hlate
      · exact h.fresh before b hlog

theorem EnterOnce.remove (h : EnterOnce start log) (a : α) :
    EnterOnce start (log ++ [.remove a]) := by
  constructor
  · simpa using h.nodup
  · intro before b hbefore
    rcases List.prefix_concat_iff.mp hbefore with heq | hlog
    · cases (List.append_singleton_inj.mp heq).2
    · exact h.fresh before b hlog

variable [DecidableEq α]

theorem kept_append (start : List α) (log : List (Change α)) (c : Change α) :
    kept start (log ++ [c]) = c.apply (kept start log) := by
  rw [kept, List.foldl_append]
  rfl

/-- The list holds what has entered and was not removed, in the order of entry. -/
theorem EnterOnce.kept_eq (h : EnterOnce start log) :
    kept start log = (start ++ entered log).filter (· ∉ removed log) := by
  induction log using List.reverseRecOn with
  | nil => simp [kept, entered, removed]
  | append_singleton log c ih =>
    have hlog := ih (h.of_prefix (List.prefix_append log _))
    rw [kept_append, hlog]
    cases c with
    | enter a =>
      obtain ⟨-, -, hlate⟩ := enterOnce_enter_iff.mp h
      simp [Change.apply, hlate]
    | remove a => simp [Change.apply, List.filter_filter, and_comm]

theorem EnterOnce.sound (h : EnterOnce start log) : Sound start log := by
  constructor
  · rw [h.kept_eq]
    exact h.nodup.filter _
  · intro a ha hkept
    rw [h.kept_eq] at hkept
    simpa [ha] using (List.mem_filter.mp hkept).2

theorem Sound.enterOnce (h : Sound start (log ++ [.enter a])) (hlog : EnterOnce start log) :
    EnterOnce start (log ++ [.enter a]) := by
  have hkept : kept start (log ++ [.enter a]) = kept start log ++ [a] := kept_append start log _
  have hlate : a ∉ removed log := by
    intro ha
    apply h.gone a
    · simpa using ha
    · simp [hkept]
  refine enterOnce_enter_iff.mpr ⟨hlog, ?_, hlate⟩
  intro hin
  have hmem : a ∈ kept start log := by
    rw [hlog.kept_eq]
    exact List.mem_filter.mpr ⟨hin, by simpa using hlate⟩
  have hnodup := h.nodup
  rw [hkept, ← List.concat_eq_append, List.nodup_concat] at hnodup
  exact hnodup.1 hmem

/-- The list is sound all along exactly if every key enters once, before its removal. -/
theorem sound_iff_enterOnce :
    (∀ before, before <+: log → Sound start before) ↔ EnterOnce start log := by
  constructor
  · intro h
    induction log using List.reverseRecOn with
    | nil => exact enterOnce_nil_iff.mpr (h [] List.prefix_rfl).nodup
    | append_singleton log c ih =>
      have hlog := ih fun before hbefore => h before (hbefore.trans (List.prefix_append log _))
      cases c with
      | enter a => exact (h _ List.prefix_rfl).enterOnce hlog
      | remove a => exact hlog.remove a
  · intro h before hbefore
    exact (h.of_prefix hbefore).sound

end Tombstones
