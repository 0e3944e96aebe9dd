import Mathlib.Data.List.Basic
import Mathlib.Data.List.Induction
import Mathlib.Data.List.Nodup
import Mathlib.Data.List.Perm.Basic
import Mathlib.Logic.Function.Basic
import Mathlib.Tactic.Common

/-! # Grouping in one pass

Rows are put into groups by their keys, in one pass. A map has the address of the group of each
key, where the group is changed in place, and a list has the keys in the order of their first
rows. What comes out are the groups that each key makes of its rows alone, in that order.
-/

namespace Grouping

open Function

variable {ρ κ γ β : Type*}

section Firsts

variable [DecidableEq κ] {l : List κ} {k : κ}

theorem eraseDups_concat_of_mem (h : k ∈ l) : (l ++ [k]).eraseDups = l.eraseDups := by
  rw [List.eraseDups_append]
  simp [List.removeAll, h]

theorem eraseDups_concat_of_notMem (h : k ∉ l) : (l ++ [k]).eraseDups = l.eraseDups ++ [k] := by
  rw [List.eraseDups_append]
  simp [List.removeAll, h, List.eraseDups_cons]

theorem pairwise_idxOf_eraseDups (l : List κ) :
    l.eraseDups.Pairwise fun a b => l.idxOf a < l.idxOf b := by
  induction l using List.reverseRecOn with
  | nil => exact List.Pairwise.nil
  | append_singleton l k ih =>
    have hold : l.eraseDups.Pairwise fun a b => (l ++ [k]).idxOf a < (l ++ [k]).idxOf b := by
      refine List.Pairwise.imp_of_mem ?_ ih
      intro a b ha hb hab
      rwa [List.idxOf_append_of_mem (List.mem_eraseDups.mp ha),
        List.idxOf_append_of_mem (List.mem_eraseDups.mp hb)]
    by_cases hk : k ∈ l
    · rwa [eraseDups_concat_of_mem hk]
    · rw [eraseDups_concat_of_notMem hk, List.pairwise_append]
      refine ⟨hold, List.pairwise_singleton _ _, ?_⟩
      intro a ha b hb
      rw [List.mem_eraseDups] at ha
      rw [List.mem_singleton.mp hb, List.idxOf_append_of_mem ha, List.idxOf_append_of_notMem hk]
      exact Nat.lt_add_right _ (List.idxOf_lt_length_of_mem ha)

theorem nodup_eraseDups (l : List κ) : l.eraseDups.Nodup := by
  refine (pairwise_idxOf_eraseDups l).imp ?_
  rintro a b hab rfl
  exact Nat.lt_irrefl _ hab

end Firsts

structure Scheme (ρ κ γ : Type*) where
  key : ρ → κ
  /-- The group that is opened for a row, which is not in it yet. -/
  opened : ρ → γ
  add : ρ → γ → γ

structure Table (κ γ : Type*) where
  /-- The groups, each at its address. -/
  heap : List γ
  address : κ → Option ℕ
  /-- The keys, in the order of their first rows. -/
  order : List κ

def Table.empty : Table κ γ := ⟨[], fun _ => none, []⟩

def Table.lookup (t : Table κ γ) (k : κ) : Option γ := (t.address k).bind fun a => t.heap[a]?

/-- The groups in the order of their keys. A key without a group is an error. -/
def Table.collect (t : Table κ γ) : Option (List γ) := t.order.mapM t.lookup

/-- Every key with an address has a group there, and no two keys share one. -/
structure Table.Separate (t : Table κ γ) : Prop where
  bound : ∀ k a, t.address k = some a → a < t.heap.length
  inj : ∀ k k' a, t.address k = some a → t.address k' = some a → k = k'

namespace Scheme

variable [DecidableEq κ] (S : Scheme ρ κ γ)

/-- The address of the group of a row, which is opened if there is none. -/
def find (r : ρ) (t : Table κ γ) : ℕ × Table κ γ :=
  match t.address (S.key r) with
  | some a => (a, t)
  | none =>
    (t.heap.length,
      { heap := t.heap ++ [S.opened r]
        address := update t.address (S.key r) (some t.heap.length)
        order := t.order ++ [S.key r] })

def insert (t : Table κ γ) (r : ρ) : Table κ γ :=
  { (S.find r t).2 with heap := (S.find r t).2.heap.modify (S.find r t).1 (S.add r) }

def scan (rows : List ρ) : Table κ γ := rows.foldl S.insert .empty

def rowsOf (rows : List ρ) (k : κ) : List ρ := rows.filter (S.key · = k)

def groupOf (rows : List ρ) (k : κ) : Option γ :=
  (S.rowsOf rows k).head?.map fun first =>
    (S.rowsOf rows k).foldl (fun g r => S.add r g) (S.opened first)

def keys (rows : List ρ) : List κ := (rows.map S.key).eraseDups

def groups (rows : List ρ) : List γ := (S.keys rows).filterMap (S.groupOf rows)

structure Represents (rows : List ρ) (t : Table κ γ) : Prop where
  order : t.order = S.keys rows
  lookup : ∀ k, t.lookup k = S.groupOf rows k
  separate : t.Separate

variable {S} {rows : List ρ} {r : ρ} {k : κ} {t : Table κ γ} {a : ℕ}

@[simp] theorem mem_rowsOf : r ∈ S.rowsOf rows k ↔ r ∈ rows ∧ S.key r = k := by
  simp [rowsOf]

theorem mem_keys : k ∈ S.keys rows ↔ ∃ r ∈ rows, S.key r = k := by
  simp [keys]

theorem groupOf_eq_none_iff : S.groupOf rows k = none ↔ k ∉ S.keys rows := by
  rw [groupOf, Option.map_eq_none_iff, List.head?_eq_none_iff, List.eq_nil_iff_forall_not_mem,
    mem_keys]
  simp

theorem exists_groupOf (h : k ∈ S.keys rows) : ∃ g, S.groupOf rows k = some g := by
  rw [← Option.ne_none_iff_exists', ne_eq, groupOf_eq_none_iff, not_not]
  exact h

theorem rowsOf_append_self (rows : List ρ) (r : ρ) :
    S.rowsOf (rows ++ [r]) (S.key r) = S.rowsOf rows (S.key r) ++ [r] := by
  simp [rowsOf]

theorem rowsOf_append_of_ne (rows : List ρ) (h : k ≠ S.key r) :
    S.rowsOf (rows ++ [r]) k = S.rowsOf rows k := by
  simp [rowsOf, h.symm]

theorem groupOf_append_self (rows : List ρ) (r : ρ) :
    S.groupOf (rows ++ [r]) (S.key r) =
      some (S.add r ((S.groupOf rows (S.key r)).getD (S.opened r))) := by
  rw [groupOf, rowsOf_append_self, groupOf]
  cases S.rowsOf rows (S.key r) with
  | nil => simp
  | cons first rest => simp

theorem groupOf_append_of_ne (rows : List ρ) (h : k ≠ S.key r) :
    S.groupOf (rows ++ [r]) k = S.groupOf rows k := by
  rw [groupOf, rowsOf_append_of_ne rows h, groupOf]

theorem keys_append_of_mem (h : S.key r ∈ S.keys rows) : S.keys (rows ++ [r]) = S.keys rows := by
  rw [keys, List.mem_eraseDups] at h
  rw [keys, List.map_append, List.map_singleton, eraseDups_concat_of_mem h, ← keys]

theorem keys_append_of_notMem (h : S.key r ∉ S.keys rows) :
    S.keys (rows ++ [r]) = S.keys rows ++ [S.key r] := by
  rw [keys, List.mem_eraseDups] at h
  rw [keys, List.map_append, List.map_singleton, eraseDups_concat_of_notMem h, ← keys]

theorem modify_length_append (l : List γ) (g : γ) (f : γ → γ) :
    (l ++ [g]).modify l.length f = l ++ [f g] := by
  induction l with
  | nil => rfl
  | cons b l ih => simpa using ih

theorem insert_of_some (h : t.address (S.key r) = some a) :
    S.insert t r = { t with heap := t.heap.modify a (S.add r) } := by
  rw [insert, find, h]

theorem insert_of_none (h : t.address (S.key r) = none) : S.insert t r =
    { heap := t.heap ++ [S.add r (S.opened r)]
      address := update t.address (S.key r) (some t.heap.length)
      order := t.order ++ [S.key r] } := by
  rw [insert, find, h]
  simp [modify_length_append]

theorem address_insert_of_none (h : t.address (S.key r) = none) (k : κ) :
    (S.insert t r).address k = if k = S.key r then some t.heap.length else t.address k := by
  rw [insert_of_none h]
  exact update_apply _ _ _ _

theorem heap_insert_of_none (h : t.address (S.key r) = none) :
    (S.insert t r).heap = t.heap ++ [S.add r (S.opened r)] := by
  rw [insert_of_none h]

theorem separate_insert (h : t.Separate) (r : ρ) : (S.insert t r).Separate := by
  cases ha : t.address (S.key r) with
  | some a =>
    rw [insert_of_some ha]
    constructor
    · intro k b hb
      rw [List.length_modify]
      exact h.bound k b hb
    · exact h.inj
  | none =>
    constructor
    · intro k b hb
      rw [heap_insert_of_none ha, List.length_append, List.length_singleton]
      rw [address_insert_of_none ha] at hb
      split_ifs at hb
      · cases hb
        exact Nat.lt_succ_self _
      · exact Nat.lt_succ_of_lt (h.bound k b hb)
    · -- the new address is beyond all others
      intro k k' b hb hb'
      rw [address_insert_of_none ha] at hb hb'
      split_ifs at hb hb' with hk hk' hk'
      · rw [hk, hk']
      · cases hb
        exact absurd (h.bound _ _ hb') (Nat.lt_irrefl _)
      · cases hb'
        exact absurd (h.bound _ _ hb) (Nat.lt_irrefl _)
      · exact h.inj _ _ _ hb hb'

namespace Represents

theorem empty : S.Represents [] Table.empty where
  order := rfl
  lookup _ := rfl
  separate := ⟨by simp [Table.empty], by simp [Table.empty]⟩

/-- A row of a known key goes into the group of its key, and no other group changes. -/
theorem insert_of_some (h : S.Represents rows t) (ha : t.address (S.key r) = some a) :
    S.Represents (rows ++ [r]) (S.insert t r) := by
  have hgroup : t.heap[a]? = S.groupOf rows (S.key r) := by
    rw [← h.lookup, Table.lookup, ha, Option.bind_some]
  obtain ⟨g, hg⟩ : ∃ g, t.heap[a]? = some g :=
    ⟨_, List.getElem?_eq_getElem (h.separate.bound _ _ ha)⟩
  have hknown : S.key r ∈ S.keys rows := by
    by_contra hnot
    rw [groupOf_eq_none_iff.mpr hnot, hg] at hgroup
    cases hgroup
  refine ⟨?_, ?_, separate_insert h.separate r⟩
  · rw [Scheme.insert_of_some ha, keys_append_of_mem hknown]
    exact h.order
  · intro k
    rw [Scheme.insert_of_some ha]
    by_cases hk : k = S.key r
    · subst hk
      rw [groupOf_append_self, ← hgroup, Table.lookup]
      simp [ha, hg]
    · rw [groupOf_append_of_ne rows hk, ← h.lookup, Table.lookup, Table.lookup]
      cases hb : t.address k with
      | none => rfl
      | some b =>
        have hab : a ≠ b := fun hab => hk (h.separate.inj _ _ _ hb (hab ▸ ha))
        simp [hab]

theorem insert_of_none (h : S.Represents rows t) (hnone : t.address (S.key r) = none) :
    S.Represents (rows ++ [r]) (S.insert t r) := by
  have hgroup : S.groupOf rows (S.key r) = none := by
    rw [← h.lookup, Table.lookup, hnone, Option.bind_none]
  refine ⟨?_, ?_, separate_insert h.separate r⟩
  · rw [keys_append_of_notMem (groupOf_eq_none_iff.mp hgroup), ← h.order,
      Scheme.insert_of_none hnone]
  · intro k
    rw [Table.lookup, address_insert_of_none hnone, heap_insert_of_none hnone]
    by_cases hk : k = S.key r
    · rw [hk, groupOf_append_self, hgroup]
      simp
    · rw [groupOf_append_of_ne rows hk, ← h.lookup, Table.lookup, if_neg hk]
      cases hb : t.address k with
      | none => rfl
      | some b =>
        rw [Option.bind_some, Option.bind_some,
          List.getElem?_append_left (h.separate.bound k b hb)]

theorem insert (h : S.Represents rows t) (r : ρ) : S.Represents (rows ++ [r]) (S.insert t r) := by
  cases ha : t.address (S.key r) with
  | none => exact h.insert_of_none ha
  | some a => exact h.insert_of_some ha

theorem scan (rows : List ρ) : S.Represents rows (S.scan rows) := by
  induction rows using List.reverseRecOn with
  | nil => exact empty
  | append_singleton rows r ih =>
    rw [Scheme.scan, List.foldl_append]
    exact ih.insert r

end Represents

omit [DecidableEq κ] in
theorem mapM_eq_filterMap {f : κ → Option γ} {ks : List κ} (h : ∀ k ∈ ks, f k ≠ none) :
    ks.mapM f = some (ks.filterMap f) := by
  induction ks with
  | nil => rfl
  | cons k ks ih =>
    obtain ⟨g, hg⟩ := Option.ne_none_iff_exists'.mp (h k List.mem_cons_self)
    rw [List.mapM_cons, ih fun k hk => h k (List.mem_cons_of_mem _ hk), hg,
      List.filterMap_cons_some hg]
    rfl

theorem collect_scan (S : Scheme ρ κ γ) (rows : List ρ) :
    (S.scan rows).collect = some (S.groups rows) := by
  have h := Represents.scan (S := S) rows
  rw [Table.collect, h.order, funext h.lookup]
  apply mapM_eq_filterMap
  intro k hk hnone
  exact groupOf_eq_none_iff.mp hnone hk

theorem flatMap_rowsOf_perm {ks : List κ} (hnodup : ks.Nodup) (hkeys : ∀ r ∈ rows, S.key r ∈ ks) :
    (ks.flatMap (S.rowsOf rows)).Perm rows := by
  induction ks generalizing rows with
  | nil =>
    rw [List.eq_nil_iff_forall_not_mem.mpr fun r hr => List.not_mem_nil (hkeys r hr)]
    exact List.Perm.nil
  | cons k ks ih =>
    obtain ⟨hk, hnodup⟩ := List.nodup_cons.mp hnodup
    have hrest : ks.flatMap (S.rowsOf rows) =
        ks.flatMap (S.rowsOf (rows.filter fun r => !decide (S.key r = k))) := by
      apply List.flatMap_congr
      intro k' hk'
      rw [rowsOf, rowsOf, List.filter_filter]
      apply List.filter_congr
      intro r _
      by_cases hr : S.key r = k'
      · have hne : k' ≠ k := fun h => hk (h ▸ hk')
        simp [hr, hne]
      · simp [hr]
    have hperm : (ks.flatMap (S.rowsOf (rows.filter fun r => !decide (S.key r = k)))).Perm
        (rows.filter fun r => !decide (S.key r = k)) := by
      apply ih hnodup
      intro r hr
      obtain ⟨hr, hne⟩ := List.mem_filter.mp hr
      exact List.mem_of_ne_of_mem (by simpa using hne) (hkeys r hr)
    rw [List.flatMap_cons, hrest]
    exact (hperm.append_left _).trans (List.filter_append_perm _ _)

theorem map_groups {tag : γ → κ} (htag : ∀ k g, S.groupOf rows k = some g → tag g = k) :
    (S.groups rows).map tag = S.keys rows := by
  have hsome : ∀ k ∈ S.keys rows, (S.groupOf rows k).map tag = some k := by
    intro k hk
    obtain ⟨g, hg⟩ := exists_groupOf hk
    rw [hg, Option.map_some, htag k g hg]
  rw [groups, List.map_filterMap, List.filterMap_congr hsome, List.filterMap_some]

theorem flatMap_groups_perm {f : γ → List β} {e : ρ → β}
    (hf : ∀ k g, S.groupOf rows k = some g → f g = (S.rowsOf rows k).map e) :
    ((S.groups rows).flatMap f).Perm (rows.map e) := by
  have hgroups : (S.groups rows).flatMap f =
      (S.keys rows).flatMap fun k => (S.rowsOf rows k).map e := by
    rw [groups, List.filterMap_eq_flatMap_toList, List.flatMap_assoc]
    apply List.flatMap_congr
    intro k hk
    obtain ⟨g, hg⟩ := exists_groupOf hk
    rw [hg, ← hf k g hg]
    simp
  rw [hgroups, ← List.map_flatMap]
  apply List.Perm.map
  apply flatMap_rowsOf_perm (nodup_eraseDups _)
  intro r hr
  exact mem_keys.mpr ⟨r, hr, rfl⟩

end Scheme

end Grouping
