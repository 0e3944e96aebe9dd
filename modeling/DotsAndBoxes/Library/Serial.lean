import Mathlib.Data.List.Nodup
import Mathlib.Tactic

/-! # Concurrent calls on a shared store

A call is a program of atomic actions on a store that all calls share. A schedule
says whose action comes next. An action is fresh when the store is the one the
same call left at its previous action. If every action is fresh and no call writes
more than once, then the store and the results are those of the calls run one
after the other, in the order of their writes. What a call may still do after its
write is a parameter: it may read on, or it must have returned.
-/

namespace Serial

variable {S R ι : Type*}

/-- A program: each action updates the store, and the rest may depend on what it found. -/
inductive Prog (S R : Type*) where
  | ret (result : R)
  | act (update : S → S) (next : S → Prog S R)

namespace Prog

def read (next : S → Prog S R) : Prog S R := act id next

def write (update : S → S) (next : Prog S R) : Prog S R := act update fun _ => next

variable {R' : Type*}

def bind : Prog S R → (R → Prog S R') → Prog S R'
  | ret result, rest => rest result
  | act update next, rest => act update fun s => (next s).bind rest

def run : Prog S R → S → S × R
  | ret result, s => (s, result)
  | act update next, s => (next s).run (update s)

@[simp] theorem run_ret (result : R) (s : S) : (ret result).run s = (s, result) := rfl

@[simp] theorem run_act (update : S → S) (next : S → Prog S R) (s : S) :
    (act update next).run s = (next s).run (update s) := rfl

@[simp] theorem run_read (next : S → Prog S R) (s : S) :
    (read next).run s = (next s).run s := rfl

@[simp] theorem run_write (update : S → S) (next : Prog S R) (s : S) :
    (write update next).run s = next.run (update s) := rfl

@[simp] theorem run_bind (p : Prog S R) (rest : R → Prog S R') (s : S) :
    (p.bind rest).run s = (rest (p.run s).2).run (p.run s).1 := by
  induction p generalizing s with
  | ret result => rfl
  | act update next ih => exact ih s (update s)

/-- The program only reads. -/
inductive ReadOnly : Prog S R → Prop where
  | ret (result : R) : ReadOnly (ret result)
  | act {update : S → S} {next : S → Prog S R} (hread : ∀ s, update s = s)
      (hnext : ∀ s, ReadOnly (next s)) : ReadOnly (act update next)

def IsRet (p : Prog S R) : Prop := ∃ result, p = ret result

/-- A class of programs that may be left after the write: they only read, and stay in the
class as they go on. -/
structure Settled (T : Prog S R → Prop) : Prop where
  ret : ∀ result, T (ret result)
  readOnly : ∀ p, T p → p.ReadOnly
  next : ∀ update next, T (act update next) → ∀ s, T (next s)

theorem settled_readOnly : Settled (ReadOnly (S := S) (R := R)) where
  ret := .ret
  readOnly _ h := h
  next _ _ h := by cases h; assumption

theorem settled_isRet : Settled (IsRet (S := S) (R := R)) where
  ret result := ⟨result, rfl⟩
  readOnly _ h := by obtain ⟨result, rfl⟩ := h; exact .ret result
  next _ _ h := by obtain ⟨result, h⟩ := h; cases h

/-- The program reads, and after at most one write is left in the class. -/
inductive OneWrite (T : Prog S R → Prop) : Prog S R → Prop where
  | ret (result : R) : OneWrite T (ret result)
  | read {update : S → S} {next : S → Prog S R} (hread : ∀ s, update s = s)
      (hnext : ∀ s, OneWrite T (next s)) : OneWrite T (act update next)
  | write {update : S → S} {next : S → Prog S R} (hnext : ∀ s, T (next s)) :
      OneWrite T (act update next)

theorem ReadOnly.oneWrite {T : Prog S R → Prop} {p : Prog S R} (h : p.ReadOnly) :
    OneWrite T p := by
  induction h with
  | ret result => exact .ret result
  | act hread _ ih => exact .read hread ih

theorem readOnly_read {next : S → Prog S R} (hnext : ∀ s, (next s).ReadOnly) :
    (read next).ReadOnly := .act (fun _ => rfl) hnext

theorem oneWrite_read {T : Prog S R → Prop} {next : S → Prog S R}
    (hnext : ∀ s, OneWrite T (next s)) : OneWrite T (Prog.read next) :=
  .read (fun _ => rfl) hnext

theorem oneWrite_write {T : Prog S R → Prop} (update : S → S) {next : Prog S R}
    (hnext : T next) : OneWrite T (Prog.write update next) := .write fun _ => hnext

theorem ReadOnly.bind {p : Prog S R} {rest : R → Prog S R'} (h : p.ReadOnly)
    (hrest : ∀ result, (rest result).ReadOnly) : (p.bind rest).ReadOnly := by
  induction h with
  | ret result => exact hrest result
  | act hread _ ih => exact .act hread ih

theorem OneWrite.bind {p : Prog S R} {rest : R → Prog S R'} (h : OneWrite ReadOnly p)
    (hrest : ∀ result, (rest result).ReadOnly) : OneWrite ReadOnly (p.bind rest) := by
  induction h with
  | ret result => exact (hrest result).oneWrite
  | read hread _ ih => exact .read hread ih
  | write hnext => exact .write fun s => (hnext s).bind hrest

theorem ReadOnly.run_fst {p : Prog S R} (h : p.ReadOnly) (s : S) : (p.run s).1 = s := by
  induction h generalizing s with
  | ret result => rfl
  | act hread _ ih => rw [run_act, hread, ih]

end Prog

open Prog

/-- A store, what each call has left to do, and the store each call left at its last action. -/
structure Conf (ι S R : Type*) where
  store : S
  prog : ι → Prog S R
  seen : ι → Option S

namespace Conf

def start (s : S) (progs : ι → Prog S R) : Conf ι S R := ⟨s, progs, fun _ => none⟩

def Returned (c : Conf ι S R) (i : ι) (result : R) : Prop := c.prog i = .ret result

/-- The store is still the one the call left at its last action. -/
def Fresh (c : Conf ι S R) (i : ι) : Prop := ∀ s, c.seen i = some s → s = c.store

theorem fresh_of_isNone {c : Conf ι S R} {i : ι} (h : (c.seen i).isNone) : c.Fresh i := by
  intro s hs
  simp [hs] at h

variable [DecidableEq ι]

/-- The next action of a call; a call that has returned does nothing. -/
def step (c : Conf ι S R) (i : ι) : Conf ι S R :=
  match c.prog i with
  | .ret _ => c
  | .act update next => {
      store := update c.store
      prog := Function.update c.prog i (next c.store)
      seen := Function.update c.seen i (some (update c.store)) }

def exec (c : Conf ι S R) (schedule : List ι) : Conf ι S R := schedule.foldl step c

def FreshRun (c : Conf ι S R) : List ι → Prop
  | [] => True
  | i :: schedule => c.Fresh i ∧ (c.step i).FreshRun schedule

@[simp] theorem exec_nil (c : Conf ι S R) : c.exec [] = c := rfl

@[simp] theorem exec_cons (c : Conf ι S R) (i : ι) (schedule : List ι) :
    c.exec (i :: schedule) = (c.step i).exec schedule := rfl

theorem exec_append (c : Conf ι S R) (before after : List ι) :
    c.exec (before ++ after) = (c.exec before).exec after := List.foldl_append

theorem freshRun_append {c : Conf ι S R} {before after : List ι} :
    c.FreshRun (before ++ after) ↔ c.FreshRun before ∧ (c.exec before).FreshRun after := by
  induction before generalizing c with
  | nil => simp [FreshRun]
  | cons i before ih => simp [FreshRun, ih, and_assoc]

theorem Fresh.step {c : Conf ι S R} {i : ι} (h : c.Fresh i) : (c.step i).Fresh i := by
  unfold Conf.step
  split
  · exact h
  · intro s hs
    simpa [eq_comm] using hs

end Conf

def runAll (progs : ι → Prog S R) (order : List ι) (s : S) : S :=
  order.foldl (fun s i => ((progs i).run s).1) s

@[simp] theorem runAll_nil (progs : ι → Prog S R) (s : S) : runAll progs [] s = s := rfl

theorem runAll_append (progs : ι → Prog S R) (before after : List ι) (s : S) :
    runAll progs (before ++ after) s = runAll progs after (runAll progs before s) :=
  List.foldl_append

@[simp] theorem runAll_concat (progs : ι → Prog S R) (order : List ι) (i : ι) (s : S) :
    runAll progs (order ++ [i]) s = ((progs i).run (runAll progs order s)).1 := by
  simp [runAll]

theorem runAll_filter {progs : ι → Prog S R} {s : S} (keep : ι → Bool) {order : List ι}
    (h : ∀ before i, before ++ [i] <+: order → keep i = false →
      ((progs i).run (runAll progs before s)).1 = runAll progs before s) :
    runAll progs (order.filter keep) s = runAll progs order s := by
  induction order using List.reverseRecOn with
  | nil => rfl
  | append_singleton order i ih =>
    have hih := ih fun before j hpre => h before j (hpre.trans (List.prefix_append _ _))
    rw [List.filter_append, runAll_concat]
    cases hkeep : keep i with
    | true => simp [hkeep, hih]
    | false => simp [hkeep, hih, h order i (List.prefix_refl _) hkeep]

/-- A store property that every call keeps when run alone is kept by running them in order. -/
theorem runAll_induction {progs : ι → Prog S R} {P : S → Prop} {s : S} (hs : P s)
    (order : List ι) (hstep : ∀ i ∈ order, ∀ s, P s → P ((progs i).run s).1) :
    P (runAll progs order s) := by
  induction order generalizing s with
  | nil => exact hs
  | cons i order ih =>
    exact ih (hstep i List.mem_cons_self s hs) fun j hj => hstep j (List.mem_cons_of_mem _ hj)

/-- The store and the results so far are those of running calls one after the other. -/
structure Serialized (progs : ι → Prog S R) (s : S) (c : Conf ι S R) (order : List ι) :
    Prop where
  nodup : order.Nodup
  store : c.store = runAll progs order s
  result : ∀ before i result, before ++ [i] <+: order → c.Returned i result →
    ((progs i).run (runAll progs before s)).2 = result

/-- The invariant of fresh runs. A call that is not in the order yet has only read, and
would go on as it would have from the start; one that is has written or returned. -/
structure Invariant (T : Prog S R → Prop) (progs : ι → Prog S R) (s : S) (c : Conf ι S R) (order : List ι) :
    Prop where
  nodup : order.Nodup
  store : c.store = runAll progs order s
  pending : ∀ i, i ∉ order → OneWrite T (c.prog i) ∧
    ((c.seen i = none ∧ c.prog i = progs i) ∨ ∃ b, c.seen i = some b ∧
      (progs i).run b = (c.prog i).run b ∧ ∀ result, ¬ c.Returned i result)
  committed : ∀ before i, before ++ [i] <+: order → T (c.prog i) ∧
    ∃ b, c.seen i = some b ∧ (progs i).run (runAll progs before s) = (c.prog i).run b

variable {T : Prog S R → Prop} {progs : ι → Prog S R} {s : S} {c : Conf ι S R} {order : List ι}

theorem invariant_start (hone : ∀ i, OneWrite T (progs i)) :
    Invariant T progs s (.start s progs) [] where
  nodup := .nil
  store := rfl
  pending i _ := ⟨hone i, .inl ⟨rfl, rfl⟩⟩
  committed before i hpre := by simp at hpre

/-- Calls that leave the store alone where they stand may be left out of the order. -/
theorem Serialized.filter (h : Serialized progs s c order) (keep : ι → Bool)
    (hskip : ∀ before i, before ++ [i] <+: order → keep i = false →
      ((progs i).run (runAll progs before s)).1 = runAll progs before s) :
    Serialized progs s c (order.filter keep) where
  nodup := h.nodup.filter _
  store := by rw [runAll_filter keep hskip, h.store]
  result before i result hpre hret := by
    obtain ⟨rest, hsplit⟩ := hpre
    rw [List.append_assoc, eq_comm, List.filter_eq_append_iff] at hsplit
    obtain ⟨left, right, rfl, rfl, hright⟩ := hsplit
    obtain ⟨skipped, right', rfl, hnone, -, -⟩ := List.filter_eq_cons_iff.mp hright
    have hbefore : left.filter keep = (left ++ skipped).filter keep := by
      have hnil : skipped.filter keep = [] := List.filter_eq_nil_iff.mpr hnone
      rw [List.filter_append, hnil, List.append_nil]
    have hpre : left ++ skipped ++ [i] <+: left ++ (skipped ++ i :: right') :=
      ⟨right', by simp⟩
    rw [hbefore, runAll_filter keep fun b j hb => hskip b j
      (hb.trans ((List.prefix_append _ [i]).trans hpre))]
    exact h.result _ i result hpre hret

/-- A call that has returned is in the order, unless it never had anything to do. -/
theorem Invariant.mem_order (h : Invariant T progs s c order) {i : ι} {result : R}
    (hret : c.Returned i result) : i ∈ order ∨ progs i = .ret result := by
  by_cases hi : i ∈ order
  · exact .inl hi
  · rcases (h.pending i hi).2 with ⟨-, hsame⟩ | ⟨-, -, -, hnot⟩
    · exact .inr (hsame.symm.trans hret)
    · exact absurd hret (hnot result)

theorem Invariant.settled (h : Invariant T progs s c order) {i : ι} (hi : i ∈ order) :
    T (c.prog i) := by
  obtain ⟨done, rest, hsplit⟩ := List.append_of_mem hi
  exact (h.committed done i ⟨rest, by simp [hsplit]⟩).1

theorem Invariant.serialized (h : Invariant T progs s c order) : Serialized progs s c order where
  nodup := h.nodup
  store := h.store
  result before i result hpre hret := by
    obtain ⟨-, b, -, hrun⟩ := h.committed before i hpre
    rw [hrun, hret, run_ret]

variable [DecidableEq ι]

theorem Invariant.commit (hT : Settled T) (h : Invariant T progs s c order) {i : ι}
    (hi : i ∉ order) {update : S → S} {next : S → Prog S R} (hprog : c.prog i = .act update next)
    (hrun : (progs i).run c.store = (c.prog i).run c.store)
    (hnext : T (next c.store)) : Invariant T progs s (c.step i) (order ++ [i]) := by
  have hstep : c.step i = ⟨update c.store, Function.update c.prog i (next c.store),
      Function.update c.seen i (some (update c.store))⟩ := by simp only [Conf.step, hprog]
  rw [hprog, run_act] at hrun
  rw [hstep]
  refine ⟨h.nodup.append (by simp) (by simpa using hi), ?_, fun j hj => ?_, fun before j hpre => ?_⟩
  · rw [runAll_concat, ← h.store, hrun, (hT.readOnly _ hnext).run_fst]
  · rw [List.mem_append, List.mem_singleton, not_or] at hj
    simpa only [Conf.Returned, Function.update_of_ne hj.2] using h.pending j hj.1
  · rcases List.prefix_concat_iff.mp hpre with heq | hpre
    · obtain ⟨rfl, hji⟩ := List.append_inj' heq rfl
      obtain rfl := List.singleton_inj.mp hji
      rw [← h.store, hrun]
      exact ⟨by simpa using hnext, update c.store, by simp, by simp⟩
    · have hne : j ≠ i := fun he => hi (he ▸ hpre.subset (by simp))
      simpa only [Function.update_of_ne hne] using h.committed before j hpre

theorem Invariant.read (h : Invariant T progs s c order) {i : ι} (hi : i ∉ order)
    {update : S → S} {next : S → Prog S R} (hprog : c.prog i = .act update next)
    (hrun : (progs i).run c.store = (c.prog i).run c.store)
    (hread : update c.store = c.store) (hnext : OneWrite T (next c.store))
    (hret : ∀ result, next c.store ≠ .ret result) : Invariant T progs s (c.step i) order := by
  have hstep : c.step i = ⟨c.store, Function.update c.prog i (next c.store),
      Function.update c.seen i (some c.store)⟩ := by simp only [Conf.step, hprog, hread]
  rw [hprog, run_act, hread] at hrun
  rw [hstep]
  refine ⟨h.nodup, h.store, fun j hj => ?_, fun before j hpre => ?_⟩
  · by_cases hji : j = i
    · subst hji
      simp only [Conf.Returned, Function.update_self]
      exact ⟨hnext, .inr ⟨c.store, rfl, hrun, hret⟩⟩
    · simpa only [Conf.Returned, Function.update_of_ne hji] using h.pending j hj
  · have hne : j ≠ i := fun he => hi (he ▸ hpre.subset (by simp))
    simpa only [Function.update_of_ne hne] using h.committed before j hpre

theorem Invariant.reread (hT : Settled T) (h : Invariant T progs s c order) {i : ι} (hi : i ∈ order)
    (hfresh : c.Fresh i) {update : S → S} {next : S → Prog S R}
    (hprog : c.prog i = .act update next) : Invariant T progs s (c.step i) order := by
  obtain ⟨done, rest, hsplit⟩ := List.append_of_mem hi
  obtain ⟨hsettled, -⟩ := h.committed done i ⟨rest, by simp [hsplit]⟩
  rw [hprog] at hsettled
  have hnext := hT.next _ _ hsettled
  cases hT.readOnly _ hsettled with
  | act hread _ =>
    have hstep : c.step i = ⟨c.store, Function.update c.prog i (next c.store),
        Function.update c.seen i (some c.store)⟩ := by simp only [Conf.step, hprog, hread]
    rw [hstep]
    refine ⟨h.nodup, h.store, fun j hj => ?_, fun before j hpre => ?_⟩
    · have hne : j ≠ i := fun he => hj (he ▸ hi)
      simpa only [Conf.Returned, Function.update_of_ne hne] using h.pending j hj
    · by_cases hji : j = i
      · subst hji
        obtain ⟨-, b, hb, hrun⟩ := h.committed before j hpre
        obtain rfl := hfresh b hb
        rw [hprog, run_act, hread] at hrun
        simp only [Function.update_self]
        exact ⟨hnext _, c.store, rfl, hrun⟩
      · simpa only [Function.update_of_ne hji] using h.committed before j hpre

theorem Invariant.step (hT : Settled T) (h : Invariant T progs s c order) {i : ι}
    (hfresh : c.Fresh i) : ∃ more, Invariant T progs s (c.step i) (order ++ more) := by
  cases hprog : c.prog i with
  | ret result =>
    have hstep : c.step i = c := by simp only [Conf.step, hprog]
    exact ⟨[], by rwa [hstep, List.append_nil]⟩
  | act update next =>
    by_cases hi : i ∈ order
    · exact ⟨[], by rw [List.append_nil]; exact h.reread hT hi hfresh hprog⟩
    · obtain ⟨hone, hsofar⟩ := h.pending i hi
      have hrun : (progs i).run c.store = (c.prog i).run c.store := by
        rcases hsofar with ⟨-, hsame⟩ | ⟨b, hb, hrun, -⟩
        · rw [hsame]
        · rw [← hfresh b hb]; exact hrun
      rw [hprog] at hone
      cases hone with
      | write hnext => exact ⟨_, h.commit hT hi hprog hrun (hnext _)⟩
      | read hread hnext =>
        cases hret : next c.store with
        | ret result => exact ⟨_, h.commit hT hi hprog hrun (hret ▸ hT.ret result)⟩
        | act update' next' =>
          have hread := h.read hi hprog hrun (hread _) (hnext _) (by simp [hret])
          exact ⟨[], by rwa [List.append_nil]⟩

theorem Invariant.exec (hT : Settled T) (h : Invariant T progs s c order) {schedule : List ι}
    (hfresh : c.FreshRun schedule) :
    ∃ more, Invariant T progs s (c.exec schedule) (order ++ more) := by
  induction schedule generalizing c order with
  | nil => exact ⟨[], by rwa [List.append_nil]⟩
  | cons i schedule ih =>
    obtain ⟨first, hfirst⟩ := h.step hT hfresh.1
    obtain ⟨rest, hrest⟩ := ih hfirst hfresh.2
    exact ⟨first ++ rest, by rwa [← List.append_assoc]⟩

/-- A store property that every call keeps when run alone holds for good in a fresh run. -/
theorem exec_closed (hT : Settled T) (hone : ∀ i, OneWrite T (progs i)) {P : S → Prop}
    (hclosed : ∀ i s, P s → P ((progs i).run s).1) {before after : List ι}
    (hfresh : (Conf.start s progs).FreshRun (before ++ after))
    (hP : P ((Conf.start s progs).exec before).store) :
    P ((Conf.start s progs).exec (before ++ after)).store := by
  obtain ⟨hbefore, hafter⟩ := Conf.freshRun_append.mp hfresh
  obtain ⟨order, horder⟩ := (invariant_start hone).exec hT hbefore
  obtain ⟨more, hmore⟩ := horder.exec hT hafter
  rw [Conf.exec_append, hmore.store, runAll_append, ← horder.store]
  exact runAll_induction hP more fun i _ => hclosed i

theorem exec_serialized (hT : Settled T) (hone : ∀ i, OneWrite T (progs i)) {schedule : List ι}
    (hfresh : (Conf.start s progs).FreshRun schedule) :
    ∃ order, Serialized progs s ((Conf.start s progs).exec schedule) order ∧
      (∀ i ∈ order, T (((Conf.start s progs).exec schedule).prog i)) ∧
      ∀ i result, ((Conf.start s progs).exec schedule).Returned i result →
        i ∈ order ∨ progs i = .ret result := by
  obtain ⟨order, h⟩ := (invariant_start hone).exec hT hfresh
  rw [List.nil_append] at h
  exact ⟨order, h.serialized, fun i => h.settled, fun i result => h.mem_order⟩

end Serial
