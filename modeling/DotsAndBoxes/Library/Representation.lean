import DotsAndBoxes.Library.Serial

/-! # Calls on a store that stands for another

The calls on a store may be programs on another store that represents it. A program refines
another one when, action by action, it does to its store what the other does to the store that is
represented, and both answer alike. Calls that refine others do so on every schedule, whatever
else happens to the store between their actions, as long as the same may happen to the store
that is represented.
-/

namespace Serial

variable {C A R R' ι ε ε' : Type*}

namespace Prog

inductive Refines (Rel : C → A → Prop) (Answers : R → R' → Prop) : Prog C R → Prog A R' → Prop where
  | ret {result : R} {result' : R'} (h : Answers result result') :
      Refines Rel Answers (ret result) (ret result')
  | act {update : C → C} {next : C → Prog C R} {update' : A → A} {next' : A → Prog A R'}
      (hupdate : ∀ c a, Rel c a → Rel (update c) (update' a))
      (hnext : ∀ c a, Rel c a → Refines Rel Answers (next c) (next' a)) :
      Refines Rel Answers (act update next) (act update' next')

variable {Rel : C → A → Prop} {Answers : R → R' → Prop}

theorem refines_read {next : C → Prog C R} {next' : A → Prog A R'}
    (hnext : ∀ c a, Rel c a → Refines Rel Answers (next c) (next' a)) :
    Refines Rel Answers (read next) (read next') :=
  .act (fun _ _ h => h) hnext

theorem refines_write {update : C → C} {next : Prog C R} {update' : A → A} {next' : Prog A R'}
    (hupdate : ∀ c a, Rel c a → Rel (update c) (update' a))
    (hnext : Refines Rel Answers next next') :
    Refines Rel Answers (write update next) (write update' next') :=
  .act hupdate fun _ _ _ => hnext

theorem Refines.bind {S S' : Type*} {Answers' : S → S' → Prop} {p : Prog C R} {p' : Prog A R'}
    {rest : R → Prog C S} {rest' : R' → Prog A S'} (h : Refines Rel Answers p p')
    (hrest : ∀ r r', Answers r r' → Refines Rel Answers' (rest r) (rest' r')) :
    Refines Rel Answers' (p.bind rest) (p'.bind rest') := by
  induction h with
  | ret h => exact hrest _ _ h
  | act hupdate _ ih => exact .act hupdate ih

end Prog

namespace Conf

/-- The calls act, and in between something else happens to the store. -/
def execWith [DecidableEq ι] (env : ε → C → C) (c : Conf ι C R) (schedule : List (ι ⊕ ε)) :
    Conf ι C R :=
  schedule.foldl (fun c => Sum.elim c.step fun e => { c with store := env e c.store }) c

structure Refines (Rel : C → A → Prop) (Answers : R → R' → Prop) (c : Conf ι C R)
    (a : Conf ι A R') : Prop where
  store : Rel c.store a.store
  prog : ∀ i, (c.prog i).Refines Rel Answers (a.prog i)

variable {Rel : C → A → Prop} {Answers : R → R' → Prop} {c : Conf ι C R} {a : Conf ι A R'}
  {env : ε → C → C} {env' : ε' → A → A}

theorem Refines.returned (h : c.Refines Rel Answers a) {i : ι} {result' : R'}
    (hreturned : a.Returned i result') :
    ∃ result, c.Returned i result ∧ Answers result result' := by
  have hprog := h.prog i
  rw [show a.prog i = .ret result' from hreturned] at hprog
  generalize hp : c.prog i = p at hprog
  cases hprog with
  | ret hanswers => exact ⟨_, hp, hanswers⟩

theorem Refines.returned' (h : c.Refines Rel Answers a) {i : ι} {result : R}
    (hreturned : c.Returned i result) :
    ∃ result', a.Returned i result' ∧ Answers result result' := by
  have hprog := h.prog i
  rw [show c.prog i = .ret result from hreturned] at hprog
  generalize hp : a.prog i = p at hprog
  cases hprog with
  | ret hanswers => exact ⟨_, hp, hanswers⟩

variable [DecidableEq ι]

theorem Refines.step (h : c.Refines Rel Answers a) (i : ι) :
    (c.step i).Refines Rel Answers (a.step i) := by
  have hprog := h.prog i
  unfold Conf.step
  generalize hp : c.prog i = p at hprog
  generalize hq : a.prog i = q at hprog
  cases hprog with
  | ret => exact h
  | act hupdate hnext =>
    refine ⟨hupdate _ _ h.store, ?_⟩
    intro j
    by_cases hj : j = i
    · subst hj
      simpa only [Function.update_self] using hnext _ _ h.store
    · simpa only [Function.update_of_ne hj] using h.prog j

@[simp] theorem execWith_append (env : ε → C → C) (c : Conf ι C R) (before after : List (ι ⊕ ε)) :
    c.execWith env (before ++ after) = (c.execWith env before).execWith env after :=
  List.foldl_append

theorem execWith_of_isEmpty [IsEmpty ε] (env : ε → C → C) (c : Conf ι C R)
    (schedule : List (ι ⊕ ε)) :
    c.execWith env schedule = c.exec (schedule.filterMap Sum.getLeft?) := by
  induction schedule generalizing c with
  | nil => rfl
  | cons move schedule ih =>
    cases move with
    | inl i => exact ih (c.step i)
    | inr e => exact isEmptyElim e

theorem Refines.disturb {e : ε} {es : List ε'} (h : c.Refines Rel Answers a)
    (hrel : Rel (env e c.store) (es.foldl (fun a e => env' e a) a.store)) :
    (c.execWith env [.inr e]).Refines Rel Answers (a.execWith env' (es.map .inr)) := by
  have hstore : a.execWith env' (es.map .inr) =
      { a with store := es.foldl (fun a e => env' e a) a.store } := by
    clear hrel h
    induction es generalizing a with
    | nil => rfl
    | cons e es ih => exact ih
  rw [hstore]
  exact ⟨hrel, h.prog⟩

/-- On every schedule the calls do what those they refine do on a schedule of the same actions,
if whatever else happens to the store can be matched. -/
theorem Refines.execWith (h : c.Refines Rel Answers a) (env : ε → C → C) (env' : ε' → A → A)
    {schedule : List (ι ⊕ ε)}
    (henv : ∀ e s s', .inr e ∈ schedule → Rel s s' →
      ∃ es : List ε', Rel (env e s) (es.foldl (fun s e => env' e s) s')) :
    ∃ schedule' : List (ι ⊕ ε'),
      schedule'.filterMap Sum.getLeft? = schedule.filterMap Sum.getLeft? ∧
      (c.execWith env schedule).Refines Rel Answers (a.execWith env' schedule') := by
  induction schedule using List.reverseRecOn with
  | nil => exact ⟨[], rfl, h⟩
  | append_singleton schedule move ih =>
    obtain ⟨schedule', hcalls, hrefines⟩ := ih fun e s s' hmem =>
      henv e s s' (List.mem_append_left _ hmem)
    cases move with
    | inl i =>
      refine ⟨schedule' ++ [.inl i], by simp [hcalls], ?_⟩
      rw [execWith_append, execWith_append]
      exact hrefines.step i
    | inr e =>
      obtain ⟨es, hrel⟩ := henv e _ _ (by simp) hrefines.store
      refine ⟨schedule' ++ es.map .inr, ?_, ?_⟩
      · have hnone : (es.map (Sum.inr : ε' → ι ⊕ ε')).filterMap Sum.getLeft? = [] := by
          simp [List.filterMap_eq_nil_iff]
        rw [List.filterMap_append, List.filterMap_append, hcalls, hnone]
        rfl
      · rw [execWith_append, execWith_append]
        exact hrefines.disturb hrel

end Conf

end Serial
