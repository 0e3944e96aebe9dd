import DotsAndBoxes.Game.Runs

/-! # Owners and scores

In every game of a run a box is owned exactly when it is complete, the owner is
the seat of a player, and the scores count the owned boxes. The natural end of a
game is recorded by an event, which is raised only when every box is owned.
-/

namespace DotsAndBoxes

open Slices Enclosure

variable {n : ℕ} {roster : List Player} {g g' : Game} {pos : BoardPosition n roster.length}

def Game.ownerAt (g : Game) (c : Cell n) : Option ℤ :=
  (at2? g.grid c.1.val c.2.val).bind (·.ownerTurn)

def Game.completeAt (g : Game) (c : Cell n) : Bool :=
  (at2? g.grid c.1.val c.2.val).any Game.isBoxComplete

def Game.ownedBy (g : Game) (n : ℕ) (turnOrder : ℤ) : ℕ :=
  (Finset.univ.filter fun c : Cell n => g.ownerAt c = some turnOrder).card

def Game.completeBoxes (g : Game) (n : ℕ) : ℕ :=
  (Finset.univ.filter fun c : Cell n => g.completeAt c = true).card

/-- Each player is seated at the index of its turn order, with nothing scored. -/
def Seated (roster : List Player) : Prop :=
  ∀ t : Fin roster.length, (roster.get t).turnOrder = t.val ∧ (roster.get t).score = 0

instance (roster : List Player) : Decidable (Seated roster) :=
  inferInstanceAs (Decidable (∀ _, _))

theorem Represents.ownerAt (h : Represents roster n g pos) (c : Cell n) :
    g.ownerAt c = (pos.owner c).map fun t => (t.val : ℤ) := by
  rw [Game.ownerAt, h.box c]; rfl

theorem Represents.ownerAt_eq_some_iff (h : Represents roster n g pos) (c : Cell n)
    (t : Fin roster.length) : g.ownerAt c = some (t.val : ℤ) ↔ pos.owner c = some t := by
  rw [h.ownerAt, Option.map_eq_some_iff]
  constructor
  · rintro ⟨u, hu, heq⟩
    rwa [Fin.ext (by exact_mod_cast heq : u.val = t.val)] at hu
  · exact fun ho => ⟨t, ho, rfl⟩

theorem Tracks.completeAt (h : Tracks roster n g pos) (c : Cell n) :
    g.completeAt c = (pos.owner c).isSome := by
  rw [Bool.eq_iff_iff, Game.completeAt, h.box c, h.sound c]
  exact isBoxComplete_boxView

theorem Tracks.ownedBy (h : Tracks roster n g pos) (t : Fin roster.length) :
    g.ownedBy n t.val = held pos t := by
  simp only [Game.ownedBy, held, h.toRepresents.ownerAt_eq_some_iff]

theorem sum_held (pos : BoardPosition n roster.length) :
    ∑ t, held pos t = (Finset.univ.filter fun c => (pos.owner c).isSome = true).card := by
  have hfiber : (Finset.univ.filter fun c => (pos.owner c).isSome = true) =
      Finset.univ.biUnion fun t => Finset.univ.filter fun c => pos.owner c = some t := by
    ext c
    simp [Option.isSome_iff_exists]
  rw [hfiber, Finset.card_biUnion]
  · rfl
  · intro t _ u _ hne
    refine Finset.disjoint_filter.mpr fun c _ ht hu => hne ?_
    exact Option.some.inj (ht.symm.trans hu)

theorem Tracks.players_eq (h : Tracks roster n g pos) :
    g.players = List.ofFn (seatView roster pos) := by
  apply List.ext_getElem?
  intro i
  by_cases hi : i < roster.length
  · have hp := h.player ⟨i, hi⟩
    rw [at?_natCast] at hp
    simp [hp, hi]
  · rw [List.getElem?_eq_none (by rw [h.length]; omega),
      List.getElem?_eq_none (by rw [List.length_ofFn]; omega)]

theorem Tracks.sum_scores (h : Tracks roster n g pos) (hseat : Seated roster) :
    (g.players.map (·.score)).sum = g.completeBoxes n := by
  have hscore (t : Fin roster.length) : (seatView roster pos t).score = (held pos t : ℤ) := by
    have h0 := (hseat t).2
    simp only [seatView, h0, zero_add]
  rw [h.players_eq, List.map_ofFn, List.sum_ofFn]
  simp only [Function.comp_apply, hscore, Game.completeBoxes, h.completeAt]
  rw [← sum_held]
  push_cast
  rfl

def Game.endedNaturally (g : Game) : Prop := ∃ e ∈ g.uncommittedEvents, e.type = .gameEnded

theorem allOwned_of_extends {pos' : BoardPosition n roster.length} (hext : pos.Extends pos')
    (hall : allOwned pos = true) : allOwned pos' = true := by
  rw [allOwned, decide_eq_true_iff] at hall ⊢
  intro c
  obtain ⟨t, ht⟩ := Option.isSome_iff_exists.mp (hall c)
  simp [hext.owner c t ht]

theorem gameCreated_notMem {payloads : List Payload}
    {acts : List (Act (Segment n) (Cell n) (Fin roster.length))}
    (h : List.Forall₂ (Denotes n roster.length) payloads acts) (p : GameCreatedPayload) :
    .gameCreated p ∉ payloads := by
  intro hp
  obtain ⟨act, -, hact⟩ := exists_act_of_mem h hp
  cases hact

theorem payload_mem_of_mem_stamped {now : Time} {aggregateID : String} {version : ℤ}
    {payloads : List Payload} {event : DomainEvent}
    (h : event ∈ Game.stamped now aggregateID version payloads) : event.payload ∈ payloads := by
  rw [← Game.map_payload_stamped now aggregateID version payloads]
  exact List.mem_map_of_mem h

theorem Performs.natural_events {now : Time} {payloads : List Payload}
    {acts : List (Act (Segment n) (Cell n) (Fin roster.length))}
    (h : Performs roster n now g g' pos payloads acts)
    (hnat : g.endedNaturally → allOwned pos = true) (hend : g'.endedNaturally) :
    allOwned (pos.applyAll acts) = true := by
  obtain ⟨hrec, -, -⟩ := Game.raiseAll_records (gameCreated_notMem h.denotes) h.raised
  obtain ⟨e, he, htype⟩ := hend
  rw [hrec, List.mem_append] at he
  rcases he with he | he
  · exact allOwned_of_extends h.keeps (hnat ⟨e, he, htype⟩)
  · have hpayload := payload_mem_of_mem_stamped he
    rw [Game.type_of_mem_stamped he] at htype
    cases hp : e.payload with
    | gameEnded p => exact h.natural p (hp ▸ hpayload)
    | _ => simp [hp, Payload.type] at htype

theorem not_endedNaturally_newGame {now : Time} {gameID : Option ℤ} {boardSize : ℤ}
    (h : Game.newGame now gameID boardSize roster = some g) : ¬ g.endedNaturally := by
  obtain ⟨g₀, happly, hg⟩ := Option.bind_eq_some_iff.mp h
  obtain ⟨hevents, -⟩ := Game.applyEvent_frame rfl happly
  obtain rfl := Option.some.inj hg
  rintro ⟨e, he, htype⟩
  simp only [Game.recordEvent, hevents, List.nil_append, List.mem_singleton] at he
  subst he
  cases htype

theorem Reachable.tracks_natural (hn : 0 < n) (hk : 0 < roster.length)
    (h : Reachable roster n g) :
    ∃ pos, Tracks roster n g pos ∧ (g.endedNaturally → allOwned pos = true) := by
  obtain ⟨now, gameID, g₀, hg₀, hsteps⟩ := h
  induction hsteps with
  | refl =>
    exact ⟨_, tracks_newGame hn hk hg₀, fun hend => absurd hend (not_endedNaturally_newGame hg₀)⟩
  | tail _ hstep ih =>
    obtain ⟨pos, hpos, hnat⟩ := ih
    obtain ⟨_, _, _, hperf⟩ := hpos.step hstep
    exact ⟨_, hperf.tracks, hperf.natural_events hnat⟩

theorem card_complete_of_allOwned (h : Tracks roster n g pos) (hall : allOwned pos = true) :
    g.completeBoxes n = n * n := by
  rw [allOwned, decide_eq_true_iff] at hall
  simp [Game.completeBoxes, h.completeAt, hall]

/-- In every game of a run the owned boxes are the complete ones, their owners stay, each
score counts the boxes of its seat, and the turn is that of a seat. -/
theorem scores_count_boxes (hn : 0 < n) (hk : 0 < roster.length) (hseat : Seated roster)
    (hg : Reachable roster n g) :
    (∀ c : Cell n, ∃ box, at2? g.grid c.1.val c.2.val = some box ∧
      (box.ownerTurn.isSome ↔ box.topEdge ∧ box.rightEdge ∧ box.bottomEdge ∧ box.leftEdge)) ∧
    (∀ g', Steps g g' → ∀ (c : Cell n) t, g.ownerAt c = some t → g'.ownerAt c = some t) ∧
    g.players.length = roster.length ∧
    (∀ (i : ℕ) p, g.players[i]? = some p →
      p.turnOrder = i ∧ p.score = g.ownedBy n p.turnOrder) ∧
    (g.players.map (·.score)).sum = g.completeBoxes n ∧
    (g.endedNaturally → g.completeBoxes n = n * n) ∧
    0 ≤ g.currentTurn ∧ g.currentTurn < roster.length := by
  obtain ⟨pos, hpos, hnat⟩ := hg.tracks_natural hn hk
  have hrep : Represents roster n g pos := hpos.toRepresents
  refine ⟨fun c => ⟨boxView pos c, hrep.box c, ?_⟩, fun g' hsteps c t ho => ?_, hrep.length,
    fun i p hp => ?_, hpos.sum_scores hseat, fun hend => ?_, ?_, ?_⟩
  · have hcomplete : (boxView pos c).ownerTurn.isSome ↔
        Game.isBoxComplete (boxView pos c) = true := by
      rw [isBoxComplete_boxView, boxView, Option.isSome_map]
      exact hpos.sound c
    simpa [Game.isBoxComplete, and_assoc] using hcomplete
  · obtain ⟨pos', hpos', hext⟩ := hpos.steps hsteps
    rw [hrep.ownerAt, Option.map_eq_some_iff] at ho
    obtain ⟨u, hu, rfl⟩ := ho
    exact (hpos'.toRepresents.ownerAt_eq_some_iff c u).mpr (hext.owner c u hu)
  · rw [hpos.players_eq, List.getElem?_eq_some_iff] at hp
    obtain ⟨hi, rfl⟩ := hp
    have hi' : i < roster.length := by simpa using hi
    obtain ⟨horder, hscore⟩ := hseat ⟨i, hi'⟩
    have hheld := hpos.ownedBy ⟨i, hi'⟩
    simp only [List.getElem_ofFn, seatView, horder, hscore, hheld, zero_add, and_self]
  · exact card_complete_of_allOwned hpos (hnat hend)
  · rw [hrep.turn]; exact Int.natCast_nonneg _
  · rw [hrep.turn]; exact_mod_cast pos.turn.isLt

theorem scores_count_boxes_duel : (duelOpening.players.map (·.score)).sum =
    duelOpening.completeBoxes 2 ∧ duelOpening.currentTurn < 2 := by
  obtain ⟨-, -, -, -, hsum, -, -, hturn⟩ :=
    scores_count_boxes (by decide) (by decide) (by decide) reachable_duelOpening
  exact ⟨hsum, hturn⟩

end DotsAndBoxes
