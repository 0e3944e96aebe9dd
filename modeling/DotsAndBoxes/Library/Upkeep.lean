import DotsAndBoxes.Library.Representation

/-! # What calls keep while others act

What a call has read may be out of date when it writes. It still keeps a property of the store if
each of its actions does on any store with the property, whatever the call has read before on
stores that had it. Calls that do so keep the property on every schedule, and what they return is
as it should be for reads of such stores.
-/

namespace Serial

variable {S R R' ι ε : Type*} {I : S → Prop} {Post : R → Prop} {Post' : R' → Prop}

namespace Prog

inductive Keeps (I : S → Prop) (Post : R → Prop) : Prog S R → Prop where
  | ret {result : R} (h : Post result) : Keeps I Post (ret result)
  | act {update : S → S} {next : S → Prog S R} (hupdate : ∀ s, I s → I (update s))
      (hnext : ∀ s, I s → Keeps I Post (next s)) : Keeps I Post (act update next)

theorem keeps_read {next : S → Prog S R} (hnext : ∀ s, I s → (next s).Keeps I Post) :
    (read next).Keeps I Post :=
  .act (fun _ h => h) hnext

theorem keeps_write {update : S → S} {next : Prog S R} (hupdate : ∀ s, I s → I (update s))
    (hnext : next.Keeps I Post) : (write update next).Keeps I Post :=
  .act hupdate fun _ _ => hnext

theorem Keeps.bind {p : Prog S R} {rest : R → Prog S R'} (h : p.Keeps I Post)
    (hrest : ∀ result, Post result → (rest result).Keeps I Post') :
    (p.bind rest).Keeps I Post' := by
  induction h with
  | ret h => exact hrest _ h
  | act hupdate _ ih => exact .act hupdate ih

end Prog

namespace Conf

/-- The store has the property, and what the calls have left to do keeps it. -/
structure Keeps (I : S → Prop) (Post : ι → R → Prop) (c : Conf ι S R) : Prop where
  store : I c.store
  prog : ∀ i, (c.prog i).Keeps I (Post i)

variable {c : Conf ι S R} {Post : ι → R → Prop} {env : ε → S → S}

theorem Keeps.returned (h : c.Keeps I Post) {i : ι} {result : R} (hreturned : c.Returned i result) :
    Post i result := by
  have hprog := h.prog i
  rw [show c.prog i = .ret result from hreturned] at hprog
  cases hprog with
  | ret hpost => exact hpost

theorem Keeps.disturb (h : c.Keeps I Post) {update : S → S}
    (hupdate : ∀ s, I s → I (update s)) :
    Keeps I Post { c with store := update c.store } :=
  ⟨hupdate _ h.store, h.prog⟩

variable [DecidableEq ι]

theorem Keeps.step (h : c.Keeps I Post) (i : ι) : (c.step i).Keeps I Post := by
  have hprog := h.prog i
  unfold Conf.step
  cases hp : c.prog i with
  | ret => exact h
  | act update next =>
    rw [hp] at hprog
    cases hprog with
    | act hupdate hnext =>
      refine ⟨hupdate _ h.store, ?_⟩
      intro j
      by_cases hj : j = i
      · subst hj
        simpa only [Function.update_self] using hnext _ h.store
      · simpa only [Function.update_of_ne hj] using h.prog j

/-- One move of a schedule: an action of a call, or something else that happens to the store. -/
def move (env : ε → S → S) (c : Conf ι S R) : ι ⊕ ε → Conf ι S R
  | .inl i => c.step i
  | .inr e => { c with store := env e c.store }

theorem execWith_concat (env : ε → S → S) (c : Conf ι S R) (schedule : List (ι ⊕ ε))
    (m : ι ⊕ ε) : c.execWith env (schedule ++ [m]) = (c.execWith env schedule).move env m := by
  rw [execWith_append]
  cases m <;> rfl

theorem Keeps.move (h : c.Keeps I Post) (henv : ∀ e s, I s → I (env e s)) (m : ι ⊕ ε) :
    (c.move env m).Keeps I Post := by
  cases m with
  | inl i => exact h.step i
  | inr e => exact h.disturb (henv e)

theorem Keeps.execWith (h : c.Keeps I Post) (henv : ∀ e s, I s → I (env e s))
    (schedule : List (ι ⊕ ε)) : (c.execWith env schedule).Keeps I Post := by
  induction schedule using List.reverseRecOn with
  | nil => exact h
  | append_singleton schedule m ih =>
    rw [execWith_concat]
    exact ih.move henv m

end Conf

end Serial
