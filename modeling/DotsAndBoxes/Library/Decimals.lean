import Mathlib

/-! # Integers in strings

An integer is printed in decimal digits, with a sign if it is negative. It can be read back, also
in front of a comma, so a string of integers that commas separate says which integers they are.
-/

namespace Decimals

theorem mem_repr {a : ℤ} {c : Char} (h : c ∈ a.repr.toList) : c = '-' ∨ c.isDigit = true := by
  have hdigit {m : ℕ} (hm : c ∈ m.repr.toList) : c.isDigit = true := by
    rw [Nat.toList_repr] at hm
    exact Nat.isDigit_of_mem_toDigits (by decide) le_rfl hm
  cases a with
  | ofNat m => exact .inr (hdigit h)
  | negSucc m =>
    rw [Int.repr, String.toList_append, List.mem_append] at h
    rcases h with h | h
    · exact .inl (by simpa using h)
    · exact .inr (hdigit h)

theorem comma_notMem (a : ℤ) : ',' ∉ a.repr.toList := fun h => by
  rcases mem_repr h with h | h <;> exact absurd h (by decide)

theorem append_sep_inj {α : Type*} {sep : α} {xs ys us vs : List α} (hxs : sep ∉ xs)
    (hus : sep ∉ us) (h : xs ++ sep :: ys = us ++ sep :: vs) : xs = us ∧ ys = vs := by
  induction xs generalizing us with
  | nil =>
    cases us with
    | nil => exact ⟨rfl, (List.cons.inj h).2⟩
    | cons u us => exact absurd (List.cons.inj h).1 (List.ne_of_not_mem_cons hus)
  | cons x xs ih =>
    cases us with
    | nil => exact absurd (List.cons.inj h).1.symm (List.ne_of_not_mem_cons hxs)
    | cons u us =>
      obtain ⟨rfl, hrest⟩ := List.cons.inj h
      obtain ⟨rfl, rfl⟩ := ih (List.not_mem_of_not_mem_cons hxs)
        (List.not_mem_of_not_mem_cons hus) hrest
      exact ⟨rfl, rfl⟩

/-- What stands in front of the first comma of a string, and what comes after it. -/
def untilComma (s : String) : String × String :=
  (.ofList (s.toList.takeWhile (· ≠ ',')), .ofList (s.toList.dropWhile (· ≠ ',')).tail)

theorem untilComma_repr (a : ℤ) (s : String) : untilComma (a.repr ++ "," ++ s) = (a.repr, s) := by
  have hcommas : ∀ c ∈ a.repr.toList, decide (c ≠ ',') = true := by
    intro c hc
    exact decide_eq_true (ne_of_mem_of_not_mem hc (comma_notMem a))
  have hlist : (a.repr ++ "," ++ s).toList = a.repr.toList ++ ',' :: s.toList := by simp
  rw [untilComma, hlist, List.takeWhile_append_of_pos hcommas, List.dropWhile_append_of_pos hcommas]
  simp

theorem repr_comma_inj {a b : ℤ} {s t : String} (h : a.repr ++ "," ++ s = b.repr ++ "," ++ t) :
    a = b ∧ s = t := by
  have hlist := congrArg String.toList h
  simp only [String.toList_append, List.append_assoc] at hlist
  obtain ⟨hab, hst⟩ := append_sep_inj (comma_notMem a) (comma_notMem b) hlist
  exact ⟨Int.repr_inj.mp (String.ext hab), String.ext hst⟩

end Decimals
