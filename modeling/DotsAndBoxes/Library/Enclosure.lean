import Mathlib.Data.Fintype.Card
import Mathlib.Tactic

/-! # Enclosure games

Players claim segments in turn, and a box whose whole border is claimed goes to
the player that claimed its last segment. The incidence of segments and boxes,
the players and their order are arbitrary. A position changes by elementary
acts; the rule book says which acts one turn consists of.
-/

namespace Enclosure

variable {S B P : Type*}

/-- The claimed segments, the owner of each box, the player to move, and whether play is over. -/
@[ext] structure Position (S B P : Type*) where
  claimed : Finset S
  owner : B → Option P
  turn : P
  ended : Bool

inductive Act (S B P : Type*) where
  | mark (s : S)
  | own (b : B) (p : P)
  | pass (p : P)
  | finish

namespace Position

/-- Every claimed segment and every owner of the first position is kept by the second. -/
structure Extends (pos pos' : Position S B P) : Prop where
  claimed : pos.claimed ⊆ pos'.claimed
  owner : ∀ b p, pos.owner b = some p → pos'.owner b = some p

theorem Extends.refl (pos : Position S B P) : pos.Extends pos :=
  ⟨Finset.Subset.refl _, fun _ _ h => h⟩

theorem Extends.trans {pos₁ pos₂ pos₃ : Position S B P} (h : pos₁.Extends pos₂)
    (h' : pos₂.Extends pos₃) : pos₁.Extends pos₃ :=
  ⟨h.claimed.trans h'.claimed, fun b p hb => h'.owner b p (h.owner b p hb)⟩

/-- A player may claim a free segment in its own turn, while play goes on. -/
def Legal (pos : Position S B P) (p : P) (s : S) : Prop :=
  p = pos.turn ∧ s ∉ pos.claimed ∧ pos.ended = false

variable [DecidableEq S] [DecidableEq B]

def apply (pos : Position S B P) : Act S B P → Position S B P
  | .mark s => { pos with claimed := insert s pos.claimed }
  | .own b p => { pos with owner := Function.update pos.owner b (some p) }
  | .pass p => { pos with turn := p }
  | .finish => { pos with ended := true }

def applyAll (pos : Position S B P) (acts : List (Act S B P)) : Position S B P :=
  acts.foldl apply pos

/-- An act is enabled while play goes on, when it claims nothing that is claimed already. -/
def Enabled (pos : Position S B P) : Act S B P → Prop
  | .mark s => pos.ended = false ∧ s ∉ pos.claimed
  | .own b _ => pos.ended = false ∧ pos.owner b = none
  | .pass _ => pos.ended = false
  | .finish => pos.ended = false

def EnabledAll (pos : Position S B P) : List (Act S B P) → Prop
  | [] => True
  | a :: acts => pos.Enabled a ∧ (pos.apply a).EnabledAll acts

@[simp] theorem applyAll_nil (pos : Position S B P) : pos.applyAll [] = pos := rfl

@[simp] theorem applyAll_cons (pos : Position S B P) (a : Act S B P) (acts : List (Act S B P)) :
    pos.applyAll (a :: acts) = (pos.apply a).applyAll acts := rfl

@[simp] theorem applyAll_append (pos : Position S B P) (as bs : List (Act S B P)) :
    pos.applyAll (as ++ bs) = (pos.applyAll as).applyAll bs := List.foldl_append ..

@[simp] theorem enabledAll_nil (pos : Position S B P) : pos.EnabledAll [] := trivial

@[simp] theorem enabledAll_cons (pos : Position S B P) (a : Act S B P) (acts : List (Act S B P)) :
    pos.EnabledAll (a :: acts) ↔ pos.Enabled a ∧ (pos.apply a).EnabledAll acts := Iff.rfl

theorem enabledAll_append {pos : Position S B P} {as bs : List (Act S B P)} :
    pos.EnabledAll (as ++ bs) ↔ pos.EnabledAll as ∧ (pos.applyAll as).EnabledAll bs := by
  induction as generalizing pos with
  | nil => simp
  | cons a as ih => simp [ih, and_assoc]

theorem Enabled.extends {pos : Position S B P} {a : Act S B P} (h : pos.Enabled a) :
    pos.Extends (pos.apply a) := by
  cases a with
  | mark s => exact ⟨Finset.subset_insert _ _, fun _ _ h => h⟩
  | pass p => exact ⟨Finset.Subset.refl _, fun _ _ h => h⟩
  | finish => exact ⟨Finset.Subset.refl _, fun _ _ h => h⟩
  | own b p =>
    refine ⟨Finset.Subset.refl _, fun b' p' hb' => ?_⟩
    have hne : b' ≠ b := by rintro rfl; simp [h.2] at hb'
    simpa [apply, Function.update_of_ne hne] using hb'

theorem EnabledAll.extends {pos : Position S B P} {acts : List (Act S B P)}
    (h : pos.EnabledAll acts) : pos.Extends (pos.applyAll acts) := by
  induction acts generalizing pos with
  | nil => exact .refl _
  | cons a acts ih => exact h.1.extends.trans (ih h.2)

/-- Once play is over no act is enabled, so the act that ends it is the last one. -/
theorem EnabledAll.finish_last {pos : Position S B P} {as bs : List (Act S B P)}
    (h : pos.EnabledAll (as ++ .finish :: bs)) : bs = [] := by
  cases bs with
  | nil => rfl
  | cons b bs =>
    have hb := (enabledAll_append.mp h).2.2.1
    cases b <;> simp [Enabled, apply] at hb

end Position

def marks (acts : List (Act S B P)) : List S :=
  acts.filterMap fun | .mark s => some s | _ => none

/-- The boxes given to an owner by a sequence of acts, in order. -/
def owns (acts : List (Act S B P)) : List B :=
  acts.filterMap fun | .own b _ => some b | _ => none

section Traces

variable [DecidableEq S] [DecidableEq B]

theorem Position.EnabledAll.marks_nodup {pos : Position S B P} {acts : List (Act S B P)}
    (h : pos.EnabledAll acts) : (marks acts).Nodup ∧ ∀ s ∈ marks acts, s ∉ pos.claimed := by
  induction acts generalizing pos with
  | nil => simp [marks]
  | cons a acts ih =>
    obtain ⟨hn, hd⟩ := ih h.2
    cases a with
    | mark s =>
      have hs : s ∉ marks acts := fun hm => hd s hm (Finset.mem_insert_self _ _)
      refine ⟨List.nodup_cons.mpr ⟨hs, hn⟩, fun t ht => ?_⟩
      rcases List.mem_cons.mp ht with rfl | ht
      · exact h.1.2
      · exact fun hc => hd t ht (Finset.mem_insert_of_mem hc)
    | own b p => exact ⟨hn, hd⟩
    | pass p => exact ⟨hn, hd⟩
    | finish => exact ⟨hn, hd⟩

theorem Position.EnabledAll.owns_nodup {pos : Position S B P} {acts : List (Act S B P)}
    (h : pos.EnabledAll acts) : (owns acts).Nodup ∧ ∀ b ∈ owns acts, pos.owner b = none := by
  induction acts generalizing pos with
  | nil => simp [owns]
  | cons a acts ih =>
    obtain ⟨hn, hd⟩ := ih h.2
    cases a with
    | own b p =>
      have hb : b ∉ owns acts := fun hm => by simpa [apply] using hd b hm
      refine ⟨List.nodup_cons.mpr ⟨hb, hn⟩, fun c hc => ?_⟩
      rcases List.mem_cons.mp hc with rfl | hc
      · exact h.1.2
      · have hne : c ≠ b := fun he => hb (he ▸ hc)
        simpa [apply, Function.update_of_ne hne] using hd c hc
    | mark s => exact ⟨hn, hd⟩
    | pass p => exact ⟨hn, hd⟩
    | finish => exact ⟨hn, hd⟩

end Traces

/-- The rules of an enclosure game: the border of each box and the order of the players. -/
structure Rules (S B P : Type*) where
  border : B → Finset S
  next : P → P

namespace Rules

theorem applyAll_own [DecidableEq S] [DecidableEq B] (p : P) (bs : List B)
    (pos : Position S B P) :
    pos.applyAll (bs.map (.own · p)) =
      { pos with owner := fun b => if b ∈ bs then some p else pos.owner b } := by
  induction bs generalizing pos with
  | nil => simp
  | cons c bs ih =>
    rw [List.map_cons, Position.applyAll_cons, ih]
    simp only [Position.apply, List.mem_cons]
    congr 1
    funext b
    by_cases hb : b ∈ bs
    · simp [hb]
    · by_cases hbc : b = c <;> simp [hb, hbc]

variable [DecidableEq S] [Fintype B] (R : Rules S B P)

/-- The unowned boxes whose border is claimed once the segment is. -/
def captures (pos : Position S B P) (s : S) : Finset B :=
  {b | R.border b ⊆ insert s pos.claimed ∧ (pos.owner b).isNone}

/-- A box has an owner exactly when its whole border is claimed. -/
def Sound (pos : Position S B P) : Prop :=
  ∀ b, (pos.owner b).isSome ↔ R.border b ⊆ pos.claimed

variable {R} {pos : Position S B P} {s : S} {b : B}

theorem mem_captures :
    b ∈ R.captures pos s ↔ R.border b ⊆ insert s pos.claimed ∧ pos.owner b = none := by
  simp [captures]

theorem Sound.mem_border_of_captures (h : R.Sound pos) (hb : b ∈ R.captures pos s) :
    s ∈ R.border b := by
  obtain ⟨hsub, hnone⟩ := mem_captures.mp hb
  by_contra hs
  have hc : R.border b ⊆ pos.claimed := fun t ht =>
    (Finset.mem_insert.mp (hsub ht)).resolve_left (by rintro rfl; exact hs ht)
  simpa [hnone] using (h b).mpr hc

variable [DecidableEq B] (R)

/-- One turn of the player to move: the captured boxes become its own, the turn passes
only when there are none, and play is over when every box is owned. -/
def play (pos : Position S B P) (s : S) : Position S B P where
  claimed := insert s pos.claimed
  owner b := if b ∈ R.captures pos s then some pos.turn else pos.owner b
  turn := if R.captures pos s = ∅ then R.next pos.turn else pos.turn
  ended := decide (∀ b, b ∈ R.captures pos s ∨ (pos.owner b).isSome)

variable {R}

theorem Sound.play (h : R.Sound pos) (s : S) : R.Sound (R.play pos s) := by
  intro b
  by_cases hb : b ∈ R.captures pos s
  · simpa [Rules.play, hb] using (mem_captures.mp hb).1
  · have ho : (R.play pos s).owner b = pos.owner b := by simp [Rules.play, hb]
    rw [ho]
    constructor
    · intro hs
      exact ((h b).mp hs).trans (Finset.subset_insert _ _)
    · intro hc
      by_contra hs
      exact hb (mem_captures.mpr ⟨hc, by simpa using hs⟩)

theorem extends_play (R : Rules S B P) (pos : Position S B P) (s : S) :
    pos.Extends (R.play pos s) := by
  refine ⟨Finset.subset_insert _ _, fun b p hb => ?_⟩
  have hcap : b ∉ R.captures pos s := fun h => by simp [(mem_captures.mp h).2] at hb
  simpa [play, hcap] using hb

theorem ended_play_iff : (R.play pos s).ended = true ↔ ∀ b, ((R.play pos s).owner b).isSome := by
  simp only [play, decide_eq_true_eq]
  apply forall_congr'
  intro b
  by_cases hb : b ∈ R.captures pos s <;> simp [hb]

variable (R) in
/-- The acts of one turn but for its end, given a list of the captured boxes. -/
def moveActs (pos : Position S B P) (s : S) (captured : List B) : List (Act S B P) :=
  .mark s :: captured.map (.own · pos.turn) ++
    (if captured = [] then [.pass (R.next pos.turn)] else [])

variable (R) in
def turnActs (pos : Position S B P) (s : S) (captured : List B) : List (Act S B P) :=
  R.moveActs pos s captured ++ (if (R.play pos s).ended then [.finish] else [])

/-- The acts of a turn lead to the rule book's position, where play still goes on. -/
theorem applyAll_moveActs {captured : List B}
    (hcap : ∀ b, b ∈ captured ↔ b ∈ R.captures pos s) :
    pos.applyAll (R.moveActs pos s captured) =
      ⟨(R.play pos s).claimed, (R.play pos s).owner, (R.play pos s).turn, pos.ended⟩ := by
  have hempty : captured = [] ↔ R.captures pos s = ∅ := by
    rw [List.eq_nil_iff_forall_not_mem, Finset.eq_empty_iff_forall_notMem]
    simp only [hcap]
  rw [moveActs, Position.applyAll_append, Position.applyAll_cons, applyAll_own]
  apply Position.ext
  case claimed => split_ifs <;> rfl
  case owner => funext b; split_ifs <;> simp [Position.apply, Rules.play, hcap]
  case turn => simp only [Rules.play, ← hempty]; split_ifs <;> rfl
  case ended => split_ifs <;> rfl

theorem applyAll_turnActs (hend : pos.ended = false) {captured : List B}
    (hcap : ∀ b, b ∈ captured ↔ b ∈ R.captures pos s) :
    pos.applyAll (R.turnActs pos s captured) = R.play pos s := by
  rw [turnActs, Position.applyAll_append, applyAll_moveActs hcap]
  by_cases hp : (R.play pos s).ended = true
  · rw [if_pos hp, Position.ext_iff]
    exact ⟨rfl, rfl, rfl, hp.symm⟩
  · rw [if_neg hp, Position.ext_iff]
    exact ⟨rfl, rfl, rfl, hend.trans (Bool.eq_false_of_not_eq_true hp).symm⟩

/-- In a sound position every act of a legal turn is enabled when its turn comes. -/
theorem enabledAll_turnActs {p : P} (hlegal : pos.Legal p s) {captured : List B}
    (hnodup : captured.Nodup) (hcap : ∀ b, b ∈ captured ↔ b ∈ R.captures pos s) :
    pos.EnabledAll (R.turnActs pos s captured) := by
  obtain ⟨-, hfree, hend⟩ := hlegal
  have howns : ∀ (bs : List B) (q : Position S B P), bs.Nodup → q.ended = false →
      (∀ b ∈ bs, q.owner b = none) → q.EnabledAll (bs.map (.own · pos.turn)) := by
    intro bs
    induction bs with
    | nil => intros; trivial
    | cons c bs ih =>
      intro q hn hq ho
      obtain ⟨hc, hn⟩ := List.nodup_cons.mp hn
      refine ⟨⟨hq, ho c List.mem_cons_self⟩, ih _ hn hq fun b hb => ?_⟩
      have hne : b ≠ c := fun he => hc (he ▸ hb)
      simpa [Position.apply, Function.update_of_ne hne] using ho b (List.mem_cons_of_mem _ hb)
  rw [turnActs, Position.enabledAll_append, applyAll_moveActs hcap, moveActs,
    Position.enabledAll_append, Position.enabledAll_cons, Position.applyAll_cons, applyAll_own]
  refine ⟨⟨⟨⟨hend, hfree⟩, howns _ _ hnodup hend fun b hb => ?_⟩, ?_⟩, ?_⟩
  · exact (mem_captures.mp ((hcap b).mp hb)).2
  · split_ifs <;> simp [Position.Enabled, Position.apply, hend]
  · split_ifs <;> simp [Position.Enabled, Position.apply, hend]

end Rules

end Enclosure
