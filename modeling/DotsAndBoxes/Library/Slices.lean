import Mathlib.Data.List.Basic
import Mathlib.Tactic

/-! # Indexed slices

Lists read and written through signed indices. An index out of range has no
element, and a write there fails, so a caller that binds these operations in
`Option` stops where an array access would panic. The two-dimensional versions
index a list of rows. Loops that may stop early are `List.allM` over `Option`.
-/

namespace Slices

variable {α : Type*}

def at? (xs : List α) (i : ℤ) : Option α :=
  if 0 ≤ i then xs[i.toNat]? else none

def modify? (xs : List α) (i : ℤ) (f : α → α) : Option (List α) :=
  if 0 ≤ i ∧ i.toNat < xs.length then some (xs.modify i.toNat f) else none

def at2? (rows : List (List α)) (i j : ℤ) : Option α :=
  (at? rows i).bind fun row => at? row j

def modify2? (rows : List (List α)) (i j : ℤ) (f : α → α) : Option (List (List α)) :=
  (at? rows i).bind fun row => (modify? row j f).bind fun row' => modify? rows i fun _ => row'

@[simp] theorem at?_natCast (xs : List α) (i : ℕ) : at? xs (i : ℤ) = xs[i]? := by
  simp [at?]

theorem mem_of_at? {xs : List α} {i : ℤ} {a : α} (h : at? xs i = some a) : a ∈ xs := by
  unfold at? at h
  split at h
  · exact List.mem_of_getElem? h
  · cases h

/-- A write where there is an element succeeds, and changes that element only. -/
theorem modify?_of_at? {xs : List α} {i : ℤ} {a : α} (h : at? xs i = some a) (f : α → α) :
    ∃ ys, modify? xs i f = some ys ∧ ys.length = xs.length ∧ at? ys i = some (f a) ∧
      ∀ j, j ≠ i → at? ys j = at? xs j := by
  unfold at? at h
  split at h
  case isFalse => cases h
  case isTrue hi =>
    obtain ⟨hlt, ha⟩ := List.getElem?_eq_some_iff.mp h
    refine ⟨xs.modify i.toNat f, by simp [modify?, hi, hlt], List.length_modify .., ?_, ?_⟩
    · simp [at?, hi, h]
    · intro j hj
      unfold at?
      split
      case isFalse => rfl
      case isTrue hj' =>
        have hne : i.toNat ≠ j.toNat := by omega
        simp [hne]

theorem modify2?_of_at2? {rows : List (List α)} {i j : ℤ} {a : α}
    (h : at2? rows i j = some a) (f : α → α) :
    ∃ rows', modify2? rows i j f = some rows' ∧ at2? rows' i j = some (f a) ∧
      ∀ i' j', (i', j') ≠ (i, j) → at2? rows' i' j' = at2? rows i' j' := by
  obtain ⟨row, hrow, ha⟩ := Option.bind_eq_some_iff.mp h
  obtain ⟨row', hrow', -, hat, hother⟩ := modify?_of_at? ha f
  obtain ⟨rows', hrows', -, hati, hotheri⟩ := modify?_of_at? hrow fun _ => row'
  refine ⟨rows', by simp [modify2?, hrow, hrow', hrows'], by simp [at2?, hati, hat], ?_⟩
  intro i' j' hne
  by_cases hi : i' = i
  · subst hi
    have hj : j' ≠ j := fun hj => hne (by rw [hj])
    simp [at2?, hati, hrow, hother j' hj]
  · simp [at2?, hotheri i' hi]

theorem length_of_modify? {xs ys : List α} {i : ℤ} {f : α → α} (h : modify? xs i f = some ys) :
    ys.length = xs.length := by
  unfold modify? at h
  split at h
  · obtain rfl := Option.some.inj h
    exact List.length_modify ..
  · cases h

/-- What is in a list after a write was there before, or is the image of what was. -/
theorem mem_of_modify? {xs ys : List α} {i : ℤ} {f : α → α} (h : modify? xs i f = some ys) {y : α}
    (hy : y ∈ ys) : ∃ x ∈ xs, y = x ∨ y = f x := by
  unfold modify? at h
  split at h
  case isFalse => cases h
  obtain rfl := Option.some.inj h
  obtain ⟨k, hk, rfl⟩ := List.getElem_of_mem hy
  rw [List.length_modify] at hk
  refine ⟨xs[k], List.getElem_mem hk, ?_⟩
  rw [List.getElem_modify]
  split_ifs
  · exact .inr rfl
  · exact .inl rfl

theorem map_modify? {β : Type*} {xs ys : List α} {i : ℤ} {f : α → α} {k : α → β}
    (h : modify? xs i f = some ys) (hf : ∀ x, at? xs i = some x → k (f x) = k x) :
    ys.map k = xs.map k := by
  unfold modify? at h
  split at h
  case isFalse => cases h
  case isTrue hi =>
    obtain rfl := Option.some.inj h
    apply List.ext_getElem?
    intro j
    rw [List.getElem?_map, List.getElem?_map, List.getElem?_modify]
    split
    case isTrue hj =>
      subst hj
      have hat : at? xs i = xs[i.toNat]? := if_pos hi.1
      cases hx : xs[i.toNat]? with
      | none => rfl
      | some x => exact congrArg some (hf x (hat.trans hx))
    case isFalse => cases xs[j]? <;> rfl

theorem map_modify2? {β : Type*} {rows rows' : List (List α)} {i j : ℤ} {f : α → α}
    {k : List α → β} (h : modify2? rows i j f = some rows')
    (hf : ∀ row row', modify? row j f = some row' → k row' = k row) :
    rows'.map k = rows.map k := by
  obtain ⟨row, hrow, h⟩ := Option.bind_eq_some_iff.mp h
  obtain ⟨row', hrow', h⟩ := Option.bind_eq_some_iff.mp h
  refine map_modify? h fun x hx => ?_
  obtain rfl := Option.some.inj (hrow.symm.trans hx)
  exact hf row row' hrow'

theorem map_length_of_modify2? {rows rows' : List (List α)} {i j : ℤ} {f : α → α}
    (h : modify2? rows i j f = some rows') : rows'.map List.length = rows.map List.length :=
  map_modify2? h fun _ _ => length_of_modify?

theorem allM_of_eq_some {xs : List α} {f : α → Option Bool} {p : α → Bool}
    (h : ∀ x ∈ xs, f x = some (p x)) : xs.allM f = some (xs.all p) := by
  induction xs with
  | nil => rfl
  | cons x xs ih =>
    have hx := h x List.mem_cons_self
    have hxs := ih fun y hy => h y (List.mem_cons_of_mem x hy)
    cases hp : p x <;> simp [List.allM, hx, hp, hxs]

theorem mapM_of_eq_some {β : Type*} {xs : List α} {f : α → Option β} {g : α → β}
    (h : ∀ x ∈ xs, f x = some (g x)) : xs.mapM f = some (xs.map g) := by
  induction xs with
  | nil => rfl
  | cons x xs ih =>
    have hxs := ih fun y hy => h y (List.mem_cons_of_mem x hy)
    simp [h x List.mem_cons_self, hxs]

theorem mapM_range_of_isSome {β : Type*} {n : ℕ} {f : ℕ → Option β} (h : ∀ i < n, (f i).isSome) :
    ∃ ys, (List.range n).mapM f = some ys ∧ ys.length = n ∧ ∀ i < n, ys[i]? = f i := by
  induction n with
  | zero => exact ⟨[], rfl, rfl, by simp⟩
  | succ n ih =>
    obtain ⟨ys, hys, hlen, hget⟩ := ih fun i hi => h i (by omega)
    obtain ⟨y, hy⟩ := Option.isSome_iff_exists.mp (h n (by omega))
    refine ⟨ys ++ [y], by simp [List.range_succ, List.mapM_append, hys, hy], by simp [hlen],
      fun i hi => ?_⟩
    rcases Nat.lt_succ_iff_lt_or_eq.mp hi with hlt | rfl
    · rw [List.getElem?_append_left (by omega), hget i hlt]
    · rw [List.getElem?_append_right (by omega), hlen, hy]
      simp

theorem foldlM_of_eq_some {β : Type*} {xs : List α} {f : β → α → Option β} {g : β → α → β}
    (h : ∀ b, ∀ x ∈ xs, f b x = some (g b x)) (b : β) : xs.foldlM f b = some (xs.foldl g b) := by
  induction xs generalizing b with
  | nil => rfl
  | cons x xs ih =>
    have hxs := ih (fun b y hy => h b y (List.mem_cons_of_mem x hy)) (g b x)
    simp [h b x List.mem_cons_self, hxs]

/-- The elements that a test keeps; the test may fail. -/
def select (f : α → Option Bool) : List α → Option (List α)
  | [] => some []
  | x :: xs => (f x).bind fun keep => (select f xs).map fun rest =>
    if keep then x :: rest else rest

theorem select_of_eq_some {xs : List α} {f : α → Option Bool} {p : α → Bool}
    (h : ∀ x ∈ xs, f x = some (p x)) : select f xs = some (xs.filter p) := by
  induction xs with
  | nil => rfl
  | cons x xs ih =>
    have hxs := ih fun y hy => h y (List.mem_cons_of_mem x hy)
    cases hp : p x <;> simp [select, h x List.mem_cons_self, hxs, hp]

theorem le_foldl_max (f : α → ℕ) (xs : List α) (b : ℕ) :
    b ≤ xs.foldl (fun b x => max b (f x)) b ∧
      ∀ x ∈ xs, f x ≤ xs.foldl (fun b x => max b (f x)) b := by
  induction xs generalizing b with
  | nil => simp
  | cons y xs ih =>
    obtain ⟨hb, hxs⟩ := ih (max b (f y))
    constructor
    · exact (le_max_left b (f y)).trans hb
    · intro x hx
      rcases List.mem_cons.mp hx with rfl | hx
      · exact (le_max_right b (f x)).trans hb
      · exact hxs x hx

theorem foldl_max_eq (f : α → ℕ) (xs : List α) (b : ℕ) :
    xs.foldl (fun b x => max b (f x)) b = b ∨
      ∃ x ∈ xs, f x = xs.foldl (fun b x => max b (f x)) b := by
  induction xs generalizing b with
  | nil => exact .inl rfl
  | cons y xs ih =>
    rcases ih (max b (f y)) with heq | ⟨x, hx, heq⟩
    · rcases le_total b (f y) with hle | hle
      · exact .inr ⟨y, List.mem_cons_self, by rw [List.foldl_cons, heq, max_eq_right hle]⟩
      · exact .inl (by rw [List.foldl_cons, heq, max_eq_left hle])
    · exact .inr ⟨x, List.mem_cons_of_mem y hx, heq⟩

end Slices
