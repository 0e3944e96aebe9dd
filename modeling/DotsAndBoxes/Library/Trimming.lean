import Mathlib.Data.List.DropRight
import Mathlib.Tactic.Common

/-! # Trimming

A list is trimmed when the elements of one kind are dropped at both of its ends. What is left
starts and ends with an element of another kind, and there is one such part of the list only.
-/

namespace Trimming

variable {α : Type*} {p q : α → Bool} {l before t after : List α}

def Bare (p : α → Bool) (l : List α) : Prop := ∀ a ∈ l.head?, p a = false

instance (p : α → Bool) (l : List α) : Decidable (Bare p l) :=
  inferInstanceAs (Decidable (∀ a ∈ l.head?, p a = false))

def trim (p : α → Bool) (l : List α) : List α := (l.dropWhile p).rdropWhile p

theorem bare_dropWhile (p : α → Bool) (l : List α) : Bare p (l.dropWhile p) := by
  rintro a ha
  have hnot := l.head?_dropWhile_not p
  rw [Option.mem_def.mp ha] at hnot
  exact hnot

theorem dropWhile_eq_self_iff : l.dropWhile p = l ↔ Bare p l := by
  constructor
  · rintro h
    exact h ▸ bare_dropWhile p l
  · rintro h
    cases l with
    | nil => rfl
    | cons a l => exact List.dropWhile_cons_of_neg (by simp [h a rfl])

theorem rdropWhile_eq_self_iff : l.rdropWhile p = l ↔ Bare p l.reverse := by
  rw [← dropWhile_eq_self_iff, List.rdropWhile, List.reverse_eq_iff]

theorem trim_append (hbefore : ∀ a ∈ before, p a = true) (hafter : ∀ a ∈ after, p a = true)
    (hstart : Bare p t) (hend : Bare p t.reverse) : trim p (before ++ t ++ after) = t := by
  have hlast : (t ++ after).rdropWhile p = t := by
    rw [List.rdropWhile, List.reverse_append, List.dropWhile_append_of_pos (by simpa using hafter)]
    exact rdropWhile_eq_self_iff.mpr hend
  rw [trim, List.append_assoc, List.dropWhile_append_of_pos hbefore]
  cases t with
  | nil =>
    rw [List.nil_append, List.rdropWhile_eq_nil_iff]
    exact fun a ha => hafter a ((List.dropWhile_suffix p).subset ha)
  | cons a t =>
    rw [List.cons_append, List.dropWhile_cons_of_neg (by simp [hstart a rfl])]
    exact hlast

theorem exists_trimmed (p : α → Bool) (l : List α) : ∃ before after,
    l = before ++ trim p l ++ after ∧ (∀ a ∈ before, p a = true) ∧ (∀ a ∈ after, p a = true) ∧
      Bare p (trim p l) ∧ Bare p (trim p l).reverse := by
  refine ⟨l.takeWhile p, (l.dropWhile p).rtakeWhile p, ?_, ?_, ?_, ?_, ?_⟩
  · rw [trim, List.append_assoc, List.rdropWhile_append_rtakeWhile,
      List.takeWhile_append_dropWhile]
  · exact fun a ha => List.mem_takeWhile_imp ha
  · exact fun a ha => List.mem_rtakeWhile_imp ha
  · rintro a ha
    obtain ⟨rest, hrest⟩ := List.rdropWhile_prefix p (l.dropWhile p)
    refine bare_dropWhile p l a ?_
    rw [← hrest, List.head?_append, ← trim, Option.mem_def.mp ha]
    rfl
  · rw [trim, List.rdropWhile, List.reverse_reverse]
    exact bare_dropWhile p _

theorem trim_reverse (p : α → Bool) (l : List α) : trim p l.reverse = (trim p l).reverse := by
  obtain ⟨before, after, hl, hbefore, hafter, hstart, hend⟩ := exists_trimmed p l
  have hreverse : l.reverse = after.reverse ++ (trim p l).reverse ++ before.reverse := by
    conv_lhs => rw [hl]
    simp
  rw [hreverse]
  exact trim_append (by simpa using hafter) (by simpa using hbefore) hend (by simpa using hstart)

theorem trim_eq_self_iff : trim p l = l ↔ Bare p l ∧ Bare p l.reverse := by
  constructor
  · rintro h
    obtain ⟨-, -, -, -, -, hstart, hend⟩ := exists_trimmed p l
    rw [h] at hstart hend
    exact ⟨hstart, hend⟩
  · rintro ⟨hstart, hend⟩
    have hself : trim p ([] ++ l ++ []) = l := trim_append nofun nofun hstart hend
    simpa using hself

theorem head?_filter_not (q : α → Bool) (l : List α) :
    (l.filter fun a => !q a).head? = (l.dropWhile q).head? := by
  induction l with
  | nil => rfl
  | cons a l ih => cases hq : q a <;> simp [hq, ih]

/-- Where a trimmed list without some of its elements starts is read off the list. -/
theorem bare_filter_trim_iff (h : ((trim p l).filter fun a => !q a) ≠ []) :
    Bare p ((trim p l).filter fun a => !q a) ↔ Bare p ((l.dropWhile p).dropWhile q) := by
  have hsplit : l.dropWhile p = trim p l ++ (l.dropWhile p).rtakeWhile p :=
    List.rdropWhile_append_rtakeWhile.symm
  have hkept : ¬ ((trim p l).dropWhile q).isEmpty = true := by
    rw [List.isEmpty_iff, ← List.head?_eq_none_iff, ← head?_filter_not, List.head?_eq_none_iff]
    exact h
  rw [hsplit, List.dropWhile_append, if_neg hkept, Bare, Bare, head?_filter_not,
    List.head?_append_of_ne_nil _ (by simpa using hkept)]

theorem bare_reverse_filter_trim_iff (h : ((trim p l).filter fun a => !q a) ≠ []) :
    Bare p ((trim p l).filter fun a => !q a).reverse ↔
      Bare p ((l.reverse.dropWhile p).dropWhile q) := by
  have hreverse : ((trim p l).filter fun a => !q a).reverse =
      (trim p l.reverse).filter fun a => !q a := by
    rw [trim_reverse, List.filter_reverse]
  rw [hreverse]
  exact bare_filter_trim_iff (hreverse ▸ by simpa using h)

end Trimming
