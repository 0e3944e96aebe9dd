import Mathlib.Data.List.Nodup
import Mathlib.Tactic

/-! # JSON encoding of tagged structs

A struct is written as an object with one member for each field, under the tag of
the field. Reading assigns the members to the fields one by one, starting from a
given value, and matches tags up to case folding. A codec is lawful when reading
what it wrote gives the value back, whatever was there before.
-/

namespace Tagged

inductive Json where
  | null
  | bool (b : Bool)
  | num (n : ℤ)
  | str (s : String)
  | arr (elems : List Json)
  | obj (members : List (String × Json))

/-- Folding of letter case. Two letters outside ASCII fold to ASCII ones. -/
def foldRune (c : Char) : Char :=
  if c.toNat = 0x17F then 'S'
  else if c.toNat = 0x212A then 'K'
  else if 'a' ≤ c ∧ c ≤ 'z' then Char.ofNat (c.toNat - 32)
  else c

/-- The folded form of a tag or key; equal forms match. -/
def foldName (name : String) : List Char := name.toList.map foldRune

variable {α β : Type*}

/-- How a type is written, and how a value read is assigned to a variable of the type.
Assigning `null` keeps the variable or clears it; a value of the wrong kind fails. -/
structure Codec (α : Type*) where
  zero : α
  marshal : α → Json
  assign : α → Json → Option α

namespace Codec

def unmarshal (c : Codec α) (v : Json) : Option α := c.assign c.zero v

/-- What is written is read back, whatever the variable held. -/
def Lawful (c : Codec α) : Prop := ∀ old a, c.assign old (c.marshal a) = some a

theorem Lawful.unmarshal_marshal {c : Codec α} (h : c.Lawful) (a : α) :
    c.unmarshal (c.marshal a) = some a := h _ a

def int : Codec ℤ where
  zero := 0
  marshal := .num
  assign
    | old, .null => some old
    | _, .num n => some n
    | _, _ => none

def string : Codec String where
  zero := ""
  marshal := .str
  assign
    | old, .null => some old
    | _, .str s => some s
    | _, _ => none

def bool : Codec Bool where
  zero := false
  marshal := .bool
  assign
    | old, .null => some old
    | _, .bool b => some b
    | _, _ => none

/-- A pointer is cleared by `null`, and else points to the value read. -/
def pointer (c : Codec α) : Codec (Option α) where
  zero := none
  marshal
    | none => .null
    | some a => c.marshal a
  assign
    | _, .null => some none
    | old, v => (c.assign (old.getD c.zero) v).map some

def slice (c : Codec α) : Codec (List α) where
  zero := []
  marshal as := .arr (as.map c.marshal)
  assign
    | _, .null => some []
    | _, .arr elems => elems.mapM c.unmarshal
    | _, _ => none

@[simp] theorem lawful_int : int.Lawful := fun _ _ => rfl

@[simp] theorem lawful_string : string.Lawful := fun _ _ => rfl

@[simp] theorem lawful_bool : bool.Lawful := fun _ _ => rfl

theorem Lawful.pointer {c : Codec α} (h : c.Lawful) (hnull : ∀ a, c.marshal a ≠ .null) :
    c.pointer.Lawful := by
  intro old a
  cases a with
  | none => rfl
  | some a =>
    have hread := h (old.getD c.zero) a
    have hne := hnull a
    simp only [Codec.pointer]
    generalize c.marshal a = v at hread hne
    cases v with
    | null => exact absurd rfl hne
    | _ => simp [hread]

@[simp] theorem lawful_pointer_int : int.pointer.Lawful :=
  lawful_int.pointer fun _ h => by cases h

@[simp] theorem Lawful.slice {c : Codec α} (h : c.Lawful) : c.slice.Lawful := by
  intro _ as
  change (as.map c.marshal).mapM c.unmarshal = some as
  induction as with
  | nil => rfl
  | cons a as ih => simp [h.unmarshal_marshal, ih]

end Codec

/-- A field of a struct: its tag, what is written under the tag, and how it is assigned. -/
structure Field (α : Type*) where
  tag : String
  get : α → Json
  set : α → Json → Option α

def Field.of (tag : String) (c : Codec β) (get : α → β) (set : α → β → α) : Field α where
  tag := tag
  get a := c.marshal (get a)
  set a v := (c.assign (get a) v).map (set a)

@[simp] theorem Field.tag_of (tag : String) (c : Codec β) (get : α → β) (set : α → β → α) :
    (Field.of tag c get set).tag = tag := rfl

@[simp] theorem Field.set_get_of {c : Codec β} (hc : c.Lawful) (tag : String) (get : α → β)
    (set : α → β → α) (b a : α) :
    (Field.of tag c get set).set b ((Field.of tag c get set).get a) = some (set b (get a)) := by
  simp [Field.of, hc (get b) (get a)]

namespace Codec

/-- Assign one member of an object; a key that matches no tag is skipped. -/
def assignMember (fields : List (Field α)) (a : α) (member : String × Json) : Option α :=
  match fields.find? fun field => foldName field.tag = foldName member.1 with
  | some field => field.set a member.2
  | none => some a

def struct (zero : α) (fields : List (Field α)) : Codec α where
  zero := zero
  marshal a := .obj (fields.map fun field => (field.tag, field.get a))
  assign
    | old, .null => some old
    | old, .obj members => members.foldlM (assignMember fields) old
    | _, _ => none

theorem assign_marshal_struct {zero : α} {fields : List (Field α)}
    (htags : (fields.map fun field => foldName field.tag).Nodup) (old a : α) :
    (struct zero fields).assign old ((struct zero fields).marshal a) =
      fields.foldlM (fun b field => field.set b (field.get a)) old := by
  have hfind (field : Field α) (hf : field ∈ fields) :
      (fields.find? fun f => foldName f.tag = foldName field.tag) = some field := by
    rw [List.find?_eq_some_iff_append]
    obtain ⟨as, bs, rfl⟩ := List.append_of_mem hf
    refine ⟨by simp, as, bs, rfl, fun f hfa => ?_⟩
    rw [List.map_append, List.nodup_append] at htags
    have hne := htags.2.2 _ (List.mem_map_of_mem hfa) (foldName field.tag) (by simp)
    simpa using hne
  have hsuffix (rest : List (Field α)) (hrest : ∀ f ∈ rest, f ∈ fields) (b : α) :
      (rest.map fun field => (field.tag, field.get a)).foldlM (assignMember fields) b =
        rest.foldlM (fun b field => field.set b (field.get a)) b := by
    induction rest generalizing b with
    | nil => rfl
    | cons field rest ih =>
      have hmember : assignMember fields b (field.tag, field.get a) =
          field.set b (field.get a) := by
        simp only [assignMember, hfind field (hrest field List.mem_cons_self)]
      rw [List.map_cons, List.foldlM_cons, List.foldlM_cons, hmember]
      congr 1
      funext c
      exact ih (fun f hf => hrest f (List.mem_cons_of_mem _ hf)) c
  exact hsuffix fields (fun _ hf => hf) old

/-- A struct is lawful when assigning each of its fields makes up the whole value. -/
theorem lawful_struct {zero : α} {fields : List (Field α)}
    (htags : (fields.map fun field => foldName field.tag).Nodup)
    (hfields : ∀ old a, fields.foldlM (fun b field => field.set b (field.get a)) old = some a) :
    (struct zero fields).Lawful := fun old a =>
  (assign_marshal_struct htags old a).trans (hfields old a)

end Codec

end Tagged
