import Mathlib.Data.List.Dedup
import Mathlib.Data.List.Nodup
import Mathlib.Data.List.Perm.Basic
import Mathlib.Data.Prod.Basic
import Mathlib.Tactic

/-! # Queries on lists of rows

Tables are lists of rows. A query may join them, put rows into groups, and ask for an order of the
rows and for the first of them. Rows that the order does not tell apart come in any order, so what
a query answers is a relation.
-/

namespace Queries

variable {ρ σ κ α : Type*}

def join (on : ρ → σ → Bool) (rows : List ρ) (rows' : List σ) : List (ρ × σ) :=
  rows.flatMap fun r => (rows'.filter (on r)).map (r, ·)

section Join

variable {on : ρ → σ → Bool} {rows : List ρ} {rows' : List σ} {r : ρ} {s : σ}

@[simp] theorem mem_join : (r, s) ∈ join on rows rows' ↔ r ∈ rows ∧ s ∈ rows' ∧ on r s = true := by
  simp [join]

theorem join_cons (r : ρ) (rows : List ρ) :
    join on (r :: rows) rows' = (rows'.filter (on r)).map (r, ·) ++ join on rows rows' := by
  rw [join, List.flatMap_cons, join]

/-- A condition on the rows of the first table may be checked before the join. -/
theorem filter_join (p : ρ → Bool) (rows : List ρ) :
    (join on rows rows').filter (fun x => p x.1) = join on (rows.filter p) rows' := by
  induction rows with
  | nil => rfl
  | cons r rows ih =>
    have hfirst : (fun x : ρ × σ => p x.1) ∘ (r, ·) = fun _ => p r := rfl
    rw [join_cons, List.filter_append, ih, List.filter_map, hfirst]
    cases hr : p r with
    | true => rw [List.filter_true, List.filter_cons_of_pos hr, join_cons]
    | false =>
      rw [List.filter_false, List.filter_cons_of_neg (by simp [hr]), List.map_nil, List.nil_append]

theorem join_and (p : ρ → Bool) (rows : List ρ) :
    join (fun r s => on r s && p r) rows rows' = join on (rows.filter p) rows' := by
  rw [← filter_join p, join, join, List.filter_flatMap]
  apply List.flatMap_congr
  intro r _
  rw [List.filter_map, List.filter_filter]
  congr 1
  apply List.filter_congr
  intro s _
  exact Bool.and_comm _ _

theorem filter_join_of_unique {key : ρ → κ} [DecidableEq κ] (hnodup : (rows.map key).Nodup)
    (hr : r ∈ rows) : (join on rows rows').filter (fun x => key x.1 = key r) =
      (rows'.filter (on r)).map (r, ·) := by
  rw [filter_join (fun r' => key r' = key r)]
  have hone : rows.filter (fun r' => key r' = key r) = [r] := by
    induction rows with
    | nil => cases hr
    | cons r' rows ih =>
      rw [List.map_cons, List.nodup_cons] at hnodup
      rcases List.mem_cons.mp hr with rfl | hr
      · rw [List.filter_cons_of_pos (by simp), List.filter_eq_nil_iff.mpr]
        intro r' hr' heq
        exact hnodup.1 (of_decide_eq_true heq ▸ List.mem_map_of_mem hr')
      · have hne : key r' ≠ key r := fun heq => hnodup.1 (heq ▸ List.mem_map_of_mem hr)
        rw [List.filter_cons_of_neg (by simpa using hne), ih hnodup.2 hr]
  rw [hone, join_cons]
  simp [join]

theorem join_cons_right_perm (rows : List ρ) (s : σ) (rows' : List σ) :
    (join on rows (s :: rows')).Perm ((rows.filter (on · s)).map (·, s) ++ join on rows rows') := by
  induction rows with
  | nil => exact .nil
  | cons r rows ih =>
    rw [join_cons, join_cons]
    by_cases hon : on r s = true
    · rw [List.filter_cons_of_pos hon, List.filter_cons_of_pos (p := (on · s)) hon, List.map_cons,
        List.map_cons, List.cons_append, List.cons_append]
      refine List.Perm.cons _ ((ih.append_left _).trans ?_)
      rw [← List.append_assoc, ← List.append_assoc]
      exact List.perm_append_comm.append_right _
    · rw [List.filter_cons_of_neg hon, List.filter_cons_of_neg (p := (on · s)) hon]
      refine (ih.append_left _).trans ?_
      rw [← List.append_assoc, ← List.append_assoc]
      exact List.perm_append_comm.append_right _

theorem join_swap_perm (rows : List ρ) (rows' : List σ) :
    ((join (fun s r => on r s) rows' rows).map Prod.swap).Perm (join on rows rows') := by
  induction rows' with
  | nil =>
    have hnil : join on rows [] = [] := by simp [join]
    rw [hnil]
    exact .nil
  | cons s rows' ih =>
    rw [join_cons, List.map_append, List.map_map]
    exact (ih.append_left _).trans (join_cons_right_perm rows s rows').symm

theorem filter_key_eq_toList [DecidableEq κ] {key : σ → κ} (hnodup : (rows'.map key).Nodup)
    (k : κ) : rows'.filter (key · = k) = (rows'.find? (key · = k)).toList := by
  induction rows' with
  | nil => rfl
  | cons s rows' ih =>
    rw [List.map_cons, List.nodup_cons] at hnodup
    by_cases hs : key s = k
    · have hrest : rows'.filter (key · = k) = [] := by
        apply List.filter_eq_nil_iff.mpr
        intro s' hs' heq
        exact hnodup.1 (List.mem_map.mpr ⟨s', hs', (of_decide_eq_true heq).trans hs.symm⟩)
      rw [List.filter_cons_of_pos (by simpa using hs), List.find?_cons_of_pos (by simpa using hs),
        hrest, Option.toList_some]
    · rw [List.filter_cons_of_neg (by simpa using hs), List.find?_cons_of_neg (by simpa using hs),
        ih hnodup.2]

theorem join_key_eq_filterMap [DecidableEq κ] {key : σ → κ} {ref : ρ → κ}
    (hnodup : (rows'.map key).Nodup) : join (fun r s => key s = ref r) rows rows' =
      rows.filterMap fun r => (rows'.find? (key · = ref r)).map (r, ·) := by
  rw [join, List.filterMap_eq_flatMap_toList]
  apply List.flatMap_congr
  intro r _
  rw [filter_key_eq_toList hnodup]
  cases rows'.find? (key · = ref r) <;> rfl

/-- The pairs of rows that go together, and the rows of the first table that go with none. -/
def leftJoin (on : ρ → σ → Bool) (rows : List ρ) (rows' : List σ) : List (ρ × Option σ) :=
  rows.flatMap fun r =>
    match rows'.filter (on r) with
    | [] => [(r, none)]
    | found => found.map fun s => (r, some s)

theorem leftJoin_key_eq_map [DecidableEq κ] {key : σ → κ} {ref : ρ → κ}
    (hnodup : (rows'.map key).Nodup) : leftJoin (fun r s => key s = ref r) rows rows' =
      rows.map fun r => (r, rows'.find? (key · = ref r)) := by
  rw [leftJoin, List.map_eq_flatMap]
  apply List.flatMap_congr
  intro r _
  rw [filter_key_eq_toList hnodup]
  cases rows'.find? (key · = ref r) <;> rfl

end Join

/-- One row for each key, with what is made of the rows that have it. -/
def groupBy [DecidableEq κ] (key : ρ → κ) (aggregate : List ρ → α) (rows : List ρ) : List (κ × α) :=
  (rows.map key).dedup.map fun k => (k, aggregate (rows.filter (key · = k)))

section GroupBy

variable [DecidableEq κ] {key : ρ → κ} {aggregate : List ρ → α} {rows : List ρ} {k : κ} {a : α}

theorem mem_groupBy : (k, a) ∈ groupBy key aggregate rows ↔
    k ∈ rows.map key ∧ a = aggregate (rows.filter (key · = k)) := by
  simp only [groupBy, List.mem_map, List.mem_dedup, Prod.mk.injEq]
  constructor
  · rintro ⟨_, hk, rfl, rfl⟩
    exact ⟨hk, rfl⟩
  · rintro ⟨hk, rfl⟩
    exact ⟨k, hk, rfl, rfl⟩

theorem map_fst_groupBy (key : ρ → κ) (aggregate : List ρ → α) (rows : List ρ) :
    (groupBy key aggregate rows).map Prod.fst = (rows.map key).dedup := by
  rw [groupBy, List.map_map]
  exact List.map_id _

/-- The groups of a join by its first table, which has no key twice, are what goes with each of
its rows. -/
theorem mem_groupBy_join {on : ρ → σ → Bool} {rows' : List σ} {aggregate : List (ρ × σ) → α}
    (hnodup : (rows.map key).Nodup) :
    (k, a) ∈ groupBy (fun x => key x.1) aggregate (join on rows rows') ↔
      ∃ r ∈ rows, rows'.filter (on r) ≠ [] ∧ k = key r ∧
        a = aggregate ((rows'.filter (on r)).map (r, ·)) := by
  rw [mem_groupBy]
  constructor
  · rintro ⟨hk, rfl⟩
    obtain ⟨⟨r, s⟩, hrow, rfl⟩ := List.mem_map.mp hk
    obtain ⟨hr, hs, hon⟩ := mem_join.mp hrow
    refine ⟨r, hr, List.ne_nil_of_mem (List.mem_filter.mpr ⟨hs, hon⟩), rfl, ?_⟩
    rw [filter_join_of_unique hnodup hr]
  · rintro ⟨r, hr, hsome, rfl, rfl⟩
    obtain ⟨s, hs⟩ := List.exists_mem_of_ne_nil _ hsome
    obtain ⟨hs, hon⟩ := List.mem_filter.mp hs
    refine ⟨List.mem_map.mpr ⟨(r, s), mem_join.mpr ⟨hr, hs, hon⟩, rfl⟩, ?_⟩
    rw [filter_join_of_unique hnodup hr]

end GroupBy

structure Ordered (le : ρ → ρ → Prop) (rows result : List ρ) : Prop where
  perm : result.Perm rows
  sorted : result.Pairwise le

def Top (le : ρ → ρ → Prop) (limit : ℕ) (rows result : List ρ) : Prop :=
  ∃ ordered, Ordered le rows ordered ∧ result = ordered.take limit

namespace Top

variable {le : ρ → ρ → Prop} {limit : ℕ} {rows result : List ρ} {r : ρ}

theorem length_eq (h : Top le limit rows result) : result.length = min limit rows.length := by
  obtain ⟨ordered, hordered, rfl⟩ := h
  rw [List.length_take, hordered.perm.length_eq]

theorem mem_rows (h : Top le limit rows result) (hr : r ∈ result) : r ∈ rows := by
  obtain ⟨ordered, hordered, rfl⟩ := h
  exact hordered.perm.mem_iff.mp (List.mem_of_mem_take hr)

theorem sorted (h : Top le limit rows result) : result.Pairwise le := by
  obtain ⟨ordered, hordered, rfl⟩ := h
  exact hordered.sorted.sublist (List.take_sublist _ _)

theorem nodup_map {f : ρ → κ} (h : Top le limit rows result) (hnodup : (rows.map f).Nodup) :
    (result.map f).Nodup := by
  obtain ⟨ordered, hordered, rfl⟩ := h
  exact ((hordered.perm.map f).nodup_iff.mpr hnodup).sublist ((List.take_sublist _ _).map f)

theorem le_of_notMem (h : Top le limit rows result) (hr : r ∈ rows) (hout : r ∉ result) :
    ∀ r' ∈ result, le r' r := by
  obtain ⟨ordered, hordered, rfl⟩ := h
  have hr := hordered.perm.mem_iff.mpr hr
  have hsorted := hordered.sorted
  rw [← List.take_append_drop limit ordered] at hr hsorted
  have hrest := (List.mem_append.mp hr).resolve_left hout
  intro r' hr'
  exact (List.pairwise_append.mp hsorted).2.2 r' hr' r hrest

theorem length_of_notMem (h : Top le limit rows result) (hr : r ∈ rows) (hout : r ∉ result) :
    result.length = limit := by
  obtain ⟨ordered, hordered, rfl⟩ := h
  rw [List.length_take, Nat.min_eq_left]
  by_contra hshort
  rw [List.take_of_length_le (by omega)] at hout
  exact hout (hordered.perm.mem_iff.mpr hr)

end Top

end Queries
