import DotsAndBoxes.Library.Runs

/-! # Iteration over a store that changes

An iteration asks a store for its keys, a page at a time, and reads what is under each key of a
page before it asks for the next one. Meanwhile the store changes. A key that comes or goes
meanwhile may be returned or not, and any key may be returned more than once; but by the last page
every key has been returned that was there all along. So what is found was there at some moment,
and what can be read all along is found, though nothing need be as it was at any one moment.
-/

namespace Iteration

open Runs

variable {σ ε κ α : Type*}

/-- A store whose keys are listed, and what is read under a key. -/
structure Source (σ κ α : Type*) where
  keys : σ → Set κ
  read : κ → σ → Option α

inductive Pages where
  | more
  | last
  | failed
  deriving DecidableEq

structure State (σ κ α : Type*) where
  store : σ
  /-- The keys that have been there all along. -/
  steady : Set κ
  pages : Pages := .more
  returned : List κ := []
  /-- The keys of the page that are still to be read. -/
  page : List κ := []
  found : List (κ × α) := []

inductive Act (ε κ : Type*) where
  | change (e : ε)
  | scan (page : List κ) (pages : Pages)
  | read (key : κ)
  /-- The value under the key cannot be read. -/
  | skip (key : κ)

def State.Done (s : State σ κ α) : Prop := s.pages = .last ∧ s.page = []

def Source.start (source : Source σ κ α) (store : σ) : State σ κ α where
  store := store
  steady := source.keys store

/-- A page that is asked for, unless the asking fails. -/
structure Source.Scans (source : Source σ κ α) (s : State σ κ α) (page : List κ) (pages : Pages)
    (t : State σ κ α) : Prop where
  asked : s.pages = .more ∧ s.page = []
  present : ∀ k ∈ page, k ∈ source.keys s.store
  complete : pages = .last → ∀ k ∈ s.steady, k ∈ s.returned ∨ k ∈ page
  failed : pages = .failed → page = []
  next : t = { s with pages, page, returned := s.returned ++ page }

def Source.Step (source : Source σ κ α) (change : ε → σ → σ) (s : State σ κ α) :
    Act ε κ → State σ κ α → Prop
  | .change e, t => t = { s with
      store := change e s.store
      steady := s.steady ∩ source.keys (change e s.store) }
  | .scan page pages, t => source.Scans s page pages t
  | .read k, t => ∃ rest, s.page = k :: rest ∧ t = { s with
      page := rest
      found := s.found ++ ((source.read k s.store).map (k, ·)).toList }
  | .skip k, t => ∃ rest, s.page = k :: rest ∧ t = { s with page := rest }

variable {source : Source σ κ α} {change : ε → σ → σ} {s t : State σ κ α} {store : σ} {k : κ}
  {run : List (Act ε κ × State σ κ α)}

theorem found_read (h : Along (source.Step change) (source.start store) run) :
    ∀ entry ∈ (last (source.start store) run).found,
      ∃ t ∈ visited (source.start store) run, source.read entry.1 t.store = some entry.2 := by
  apply h.inv_visited fun past s => ∀ entry ∈ s.found,
    ∃ t ∈ past, source.read entry.1 t.store = some entry.2
  · exact nofun
  · intro past s act t hs hstep entry hentry
    have hearlier (hfound : entry ∈ s.found) :
        ∃ u ∈ insert t past, source.read entry.1 u.store = some entry.2 := by
      obtain ⟨u, hu, hread⟩ := hs entry hfound
      exact ⟨u, .inr hu, hread⟩
    cases act with
    | change e =>
      obtain rfl := hstep
      exact hearlier hentry
    | scan page pages =>
      obtain rfl := hstep.next
      exact hearlier hentry
    | skip k =>
      obtain ⟨rest, -, rfl⟩ := hstep
      exact hearlier hentry
    | read k =>
      obtain ⟨rest, -, rfl⟩ := hstep
      rcases List.mem_append.mp hentry with hfound | hnew
      · exact hearlier hfound
      · rw [Option.mem_toList, Option.map_eq_some_iff] at hnew
        obtain ⟨a, ha, rfl⟩ := hnew
        exact ⟨_, .inl rfl, ha⟩

theorem returned_present (h : Along (source.Step change) (source.start store) run) :
    ∀ k ∈ (last (source.start store) run).returned,
      ∃ t ∈ visited (source.start store) run, k ∈ source.keys t.store := by
  apply h.inv_visited fun past s => ∀ k ∈ s.returned, ∃ t ∈ past, k ∈ source.keys t.store
  · exact nofun
  · intro past s act t hs hstep k hk
    have hearlier (hreturned : k ∈ s.returned) : ∃ u ∈ insert t past, k ∈ source.keys u.store := by
      obtain ⟨u, hu, hkey⟩ := hs k hreturned
      exact ⟨u, .inr hu, hkey⟩
    cases act with
    | change e =>
      obtain rfl := hstep
      exact hearlier hk
    | scan page pages =>
      obtain ⟨-, hpresent, -, -, rfl⟩ := hstep
      rcases List.mem_append.mp hk with hreturned | hnow
      · exact hearlier hreturned
      · exact ⟨_, .inl rfl, hpresent k hnow⟩
    | skip j | read j =>
      obtain ⟨rest, -, rfl⟩ := hstep
      exact hearlier hk

theorem found_sublist (h : Along (source.Step change) (source.start store) run) :
    ((last (source.start store) run).found.map Prod.fst ++
      (last (source.start store) run).page).Sublist (last (source.start store) run).returned := by
  apply h.inv_visited fun _ s => (s.found.map Prod.fst ++ s.page).Sublist s.returned
  · exact .slnil
  · intro _ s act t hs hstep
    cases act with
    | change e =>
      obtain rfl := hstep
      exact hs
    | scan page pages =>
      obtain ⟨⟨-, hpage⟩, -, -, -, rfl⟩ := hstep
      rw [hpage, List.append_nil] at hs
      exact hs.append (.refl _)
    | skip k =>
      obtain ⟨rest, hpage, rfl⟩ := hstep
      rw [hpage] at hs
      exact ((List.Sublist.refl _).append (List.sublist_cons_self k rest)).trans hs
    | read k =>
      obtain ⟨rest, hpage, rfl⟩ := hstep
      rw [hpage] at hs
      have hkeys : (((source.read k s.store).map (k, ·)).toList.map Prod.fst).Sublist [k] := by
        cases source.read k s.store with
        | none => exact List.nil_sublist _
        | some a => exact .refl _
      refine List.Sublist.trans ?_ hs
      rw [List.map_append, List.append_assoc]
      exact (List.Sublist.refl _).append (hkeys.append (.refl rest))

/-- What an iteration has come to for a key that is there, and can be read, all along. -/
structure Covers (k : κ) (s : State σ κ α) : Prop where
  steady : k ∈ s.steady
  returned : s.pages = .last → k ∈ s.returned
  found : k ∈ s.returned → k ∈ s.page ∨ k ∈ s.found.map Prod.fst

theorem covers_start (hk : k ∈ source.keys store) : Covers k (source.start store) :=
  ⟨hk, nofun, nofun⟩

theorem Covers.step {act : Act ε κ} (h : Covers k s) (hstep : source.Step change s act t)
    (hkey : k ∈ source.keys t.store) (hread : (source.read k s.store).isSome)
    (hskip : act ≠ .skip k) : Covers k t := by
  cases act with
  | change e =>
    obtain rfl := hstep
    exact ⟨⟨h.steady, hkey⟩, h.returned, h.found⟩
  | scan page pages =>
    obtain ⟨⟨-, hpage⟩, -, hcomplete, -, rfl⟩ := hstep
    refine ⟨h.steady, ?_, ?_⟩
    · intro hlast
      exact List.mem_append.mpr (hcomplete hlast k h.steady)
    · intro hmem
      rcases List.mem_append.mp hmem with hbefore | hnow
      · refine .inr ((h.found hbefore).resolve_left ?_)
        rw [hpage]
        exact List.not_mem_nil
      · exact .inl hnow
  | skip j =>
    obtain ⟨rest, hpage, rfl⟩ := hstep
    refine ⟨h.steady, h.returned, ?_⟩
    intro hmem
    rcases h.found hmem with hleft | hfound
    · rw [hpage] at hleft
      rcases List.mem_cons.mp hleft with rfl | hrest
      · exact absurd rfl hskip
      · exact .inl hrest
    · exact .inr hfound
  | read j =>
    obtain ⟨rest, hpage, rfl⟩ := hstep
    refine ⟨h.steady, h.returned, ?_⟩
    intro hmem
    dsimp only
    rw [List.map_append, List.mem_append]
    rcases h.found hmem with hleft | hfound
    · rw [hpage] at hleft
      rcases List.mem_cons.mp hleft with rfl | hrest
      · obtain ⟨a, ha⟩ := Option.isSome_iff_exists.mp hread
        right
        right
        rw [ha]
        exact List.mem_singleton_self k
      · exact .inl hrest
    · exact .inr (.inl hfound)

/-- What is there and can be read at every moment is found, if no reading of it fails. -/
theorem found_of_steady (h : Along (source.Step change) (source.start store) run)
    (hkeys : ∀ t ∈ visited (source.start store) run, k ∈ source.keys t.store)
    (hread : ∀ t ∈ visited (source.start store) run, (source.read k t.store).isSome)
    (hskip : .skip k ∉ run.map Prod.fst) (hdone : (last (source.start store) run).Done) :
    k ∈ (last (source.start store) run).found.map Prod.fst := by
  have hcovers : Covers k (last (source.start store) run) := by
    have hstart : Covers k (source.start store) := covers_start (hkeys _ (.inl rfl))
    have hafter := (forall_visited_iff.mp hkeys).2
    have hbefore := (along_visited (source.start store) run).imp fun u _ _ hu => hread u hu
    have hlabels : Along (fun _ act _ => act ≠ .skip k) (source.start store) run := by
      rw [along_label_iff]
      intro step hstep heq
      exact hskip (List.mem_map.mpr ⟨step, hstep, heq⟩)
    exact (((h.and hafter).and hbefore).and hlabels).inv_last hstart
      fun s act t hs ⟨⟨⟨hstep, hkey⟩, hsome⟩, hne⟩ => hs.step hstep hkey hsome hne
  obtain ⟨hlast, hpage⟩ := hdone
  refine (hcovers.found (hcovers.returned hlast)).resolve_left ?_
  rw [hpage]
  exact List.not_mem_nil

end Iteration
