import DotsAndBoxes.Game.Replay
import DotsAndBoxes.Game.Runs

/-! # The shape of a game

Appends that overlap can leave a log that no run of the rules records, but every payload
in it still fits the board and the seats of the game. A game that is loaded from such a log
keeps its shape, so loading it never panics, and a command on it again raises payloads that
fit.
-/

namespace DotsAndBoxes

open Slices Enclosure Game

variable {n k : ℕ} {roster : List Player} {g g' : Game} {now : Time}

def Payload.Fits (n k : ℕ) (p : Payload) : Prop := ∃ act, Denotes n k p act

def Payload.terminal : Payload → Bool
  | .gameEnded _ => true
  | .gameForfeited _ => true
  | _ => false

/-- The payload comes after the first of a command: it claims no edge, and passes no turn that
the command has passed. -/
structure Payload.Follows (n k : ℕ) (first p : Payload) : Prop where
  fits : p.Fits n k
  no_move : ∀ q, p ≠ .moveApplied q
  no_pass : ∀ q r, first = .turnPassed q → p ≠ .turnPassed r

/-- The player but for the score. -/
def Player.unscored (p : Player) : Player := { p with score := 0 }

/-- A game on a board of `n` rows with the players of the roster, whose boxes know their place. -/
structure Shaped (roster : List Player) (n : ℕ) (g : Game) : Prop where
  boardSize : g.boardSize = n
  players : g.players.map Player.unscored = roster.map Player.unscored
  turn : ∃ t : Fin roster.length, g.currentTurn = t.val
  cell : ∀ c : Cell n, ∃ box, at2? g.grid c.1.val c.2.val = some box ∧
    box.row = c.1.val ∧ box.col = c.2.val

theorem Shaped.length (h : Shaped roster n g) : g.players.length = roster.length := by
  simpa using congrArg List.length h.players

/-- Writing the score of a player leaves the players what they are but for their scores. -/
theorem map_unscored_modify {players players' : List Player} {i : ℤ} {score : Player → ℤ}
    (h : modify? players i (fun p => { p with score := score p }) = some players') :
    players'.map Player.unscored = players.map Player.unscored :=
  map_modify? h fun _ _ => rfl

theorem Shaped.applyEvent (h : Shaped roster n g) {e : DomainEvent}
    (htype : e.type = e.payload.type) (hfits : e.payload.Fits n roster.length) :
    ∃ g', g.applyEvent e = some g' ∧ Shaped roster n g' := by
  choose view hview hrow hcol using h.cell
  obtain ⟨type, occurredAt, aggregateID, version, payload⟩ := e
  dsimp only at htype hfits
  subst htype
  obtain ⟨act, hden⟩ := hfits
  cases hden with
  | moveApplied turnOrder c s =>
    obtain ⟨grid, hmark, hmarked⟩ := markEdge_view hview c s
    refine ⟨Game.incrementVersion { g with grid },
      by simp [Game.applyEvent, Payload.type, Game.setEdge, h.boardSize, hmark],
      h.boardSize, h.players, h.turn, fun d => ⟨_, hmarked d, ?_, ?_⟩⟩
    · unfold setSideView
      split_ifs <;> simp [hrow]
    · unfold setSideView
      split_ifs <;> simp [hcol]
  | boxCompleted c t =>
    obtain ⟨grid, hgrid, hmarked⟩ := modify2?_view hview c
      fun box => { box with ownerTurn := some (t.val : ℤ) }
    have hlt : t.val < g.players.length := by
      rw [h.length]
      exact t.isLt
    have hat : at? g.players t.val = some g.players[t.val] := by
      rw [at?_natCast, List.getElem?_eq_getElem hlt]
    obtain ⟨players, hplayers, -⟩ := modify?_of_at? hat
      fun player => { player with score := player.score + 1 }
    refine ⟨Game.incrementVersion { g with grid, players },
      by simp [Game.applyEvent, Payload.type, hgrid, hplayers],
      h.boardSize, (map_unscored_modify hplayers).trans h.players, h.turn,
      fun d => ⟨_, hmarked d, ?_, ?_⟩⟩
    · by_cases hd : d = c
      · subst hd; simp [hrow]
      · simp [hd, hrow]
    · by_cases hd : d = c
      · subst hd; simp [hcol]
      · simp [hd, hcol]
  | turnPassed t => exact ⟨_, rfl, h.boardSize, h.players, ⟨t, rfl⟩, h.cell⟩
  | gameEnded winnerID => exact ⟨_, rfl, h.boardSize, h.players, h.turn, h.cell⟩
  | gameForfeited forfeitedBy winnerID =>
    exact ⟨_, rfl, h.boardSize, h.players, h.turn, h.cell⟩

theorem Shaped.raise (h : Shaped roster n g) (now : Time) {payload : Payload}
    (hfits : payload.Fits n roster.length) :
    ∃ g', g.raise now payload.type payload = some g' ∧ Shaped roster n g' := by
  obtain ⟨g₁, happly, hg₁⟩ := h.applyEvent (e := g.eventOf now payload) rfl hfits
  exact ⟨g₁.recordEvent (g.eventOf now payload), by rw [raise_eq, happly]; rfl,
    hg₁.boardSize, hg₁.players, hg₁.turn, hg₁.cell⟩

theorem Shaped.of_raise (h : Shaped roster n g) {payload : Payload}
    (hfits : payload.Fits n roster.length) (hraise : g.raise now payload.type payload = some g') :
    Shaped roster n g' := by
  obtain ⟨g₁, heq, hg₁⟩ := h.raise now hfits
  obtain rfl := Option.some.inj (heq.symm.trans hraise)
  exact hg₁

theorem Shaped.of_raiseAll (h : Shaped roster n g) {payloads : List Payload}
    (hfits : ∀ p ∈ payloads, p.Fits n roster.length) (hraise : g.raiseAll now payloads = some g') :
    Shaped roster n g' := by
  refine raiseAll_induction h ?_ hraise
  intro p hp g g' hg hfirst
  exact hg.of_raise (hfits p hp) hfirst

theorem Shaped.foldlM (h : Shaped roster n g) {events : List DomainEvent}
    (hfits : ∀ e ∈ events, e.type = e.payload.type ∧ e.payload.Fits n roster.length) :
    ∃ g', events.foldlM Game.applyEvent g = some g' ∧ Shaped roster n g' := by
  induction events generalizing g with
  | nil => exact ⟨g, rfl, h⟩
  | cons e events ih =>
    obtain ⟨htype, hfit⟩ := hfits e List.mem_cons_self
    obtain ⟨g₁, happly, hg₁⟩ := h.applyEvent htype hfit
    obtain ⟨g', hfold, hg'⟩ := ih hg₁ fun e' he' => hfits e' (List.mem_cons_of_mem e he')
    exact ⟨g', by rw [List.foldlM_cons, happly]; exact hfold, hg'⟩

theorem Shaped.created (hk : 0 < roster.length) {e : DomainEvent} {gameID : ℤ}
    (htype : e.type = .gameCreated)
    (hpayload : e.payload = .gameCreated ⟨gameID, n, roster⟩) :
    ∃ g', g.applyEvent e = some g' ∧ Shaped roster n g' := by
  have hgrid : ∃ grid, Game.makeEmptyGrid n = some grid := ⟨_, if_neg (by omega)⟩
  obtain ⟨grid, hgrid⟩ := hgrid
  refine ⟨_, by simp [Game.applyEvent, htype, hpayload, hgrid]; rfl, rfl, rfl, ⟨⟨0, hk⟩, rfl⟩,
    fun c => ⟨_, at2?_makeEmptyGrid hgrid c, rfl, rfl⟩⟩

theorem Represents.shaped {pos : BoardPosition n roster.length} (h : Represents roster n g pos) :
    Shaped roster n g := by
  refine ⟨h.boardSize, ?_, ⟨pos.turn, h.turn⟩, fun c => ⟨_, h.box c, rfl, rfl⟩⟩
  apply List.ext_getElem
  · simp [h.length]
  · intro i hi hi'
    have hlt : i < roster.length := by simpa using hi'
    have hplayer := h.player ⟨i, hlt⟩
    rw [at?_natCast] at hplayer
    obtain ⟨hi₁, heq⟩ := List.getElem?_eq_some_iff.mp hplayer
    simp only [List.getElem_map]
    rw [heq]
    rfl

theorem applyEvent_endedAt {e : DomainEvent} (htype : e.type = e.payload.type)
    (h : g.applyEvent e = some g') :
    g'.endedAt = if e.payload.terminal then some e.occurredAt else g.endedAt := by
  have happlied := applied htype h
  generalize e.payload = payload at happlied ⊢
  cases happlied <;> simp [incrementVersion, Payload.terminal]

theorem applyEvent_hasEnded {e : DomainEvent} (htype : e.type = e.payload.type)
    (h : g.applyEvent e = some g') :
    g'.hasEnded = (g.hasEnded || e.payload.terminal) := by
  rw [hasEnded, hasEnded, applyEvent_endedAt htype h]
  cases e.payload.terminal <;> simp

theorem foldlM_endedAt {t : Time} {events : List DomainEvent}
    (h : ∀ e ∈ events, e.type = e.payload.type ∧ e.occurredAt = t)
    (hfold : events.foldlM Game.applyEvent g = some g') :
    g'.endedAt = if events.any fun e => e.payload.terminal then some t else g.endedAt := by
  induction events generalizing g with
  | nil =>
    obtain rfl := Option.some.inj hfold
    rfl
  | cons e events ih =>
    rw [List.foldlM_cons] at hfold
    obtain ⟨g₁, happly, hfold⟩ := Option.bind_eq_some_iff.mp hfold
    obtain ⟨htype, htime⟩ := h e List.mem_cons_self
    rw [ih (fun e' he' => h e' (List.mem_cons_of_mem e he')) hfold, applyEvent_endedAt htype happly,
      htime, List.any_cons]
    cases e.payload.terminal <;> simp

theorem foldlM_hasEnded {events : List DomainEvent}
    (htypes : ∀ e ∈ events, e.type = e.payload.type) (h : events.foldlM Game.applyEvent g = some g') :
    g'.hasEnded = (g.hasEnded || events.any fun e => e.payload.terminal) := by
  induction events generalizing g with
  | nil =>
    obtain rfl := Option.some.inj h
    simp
  | cons e events ih =>
    rw [List.foldlM_cons] at h
    obtain ⟨g₁, happly, hfold⟩ := Option.bind_eq_some_iff.mp h
    rw [ih (fun e' he' => htypes e' (List.mem_cons_of_mem e he')) hfold,
      applyEvent_hasEnded (htypes e List.mem_cons_self) happly, List.any_cons, Bool.or_assoc]

theorem raise_hasEnded {p : Payload} (h : g.raise now p.type p = some g') :
    g'.hasEnded = (g.hasEnded || p.terminal) := by
  obtain ⟨g₁, happly, rfl⟩ := raise_eq_some h
  have hended : g₁.hasEnded = (g.hasEnded || p.terminal) :=
    applyEvent_hasEnded (e := g.eventOf now p) rfl happly
  exact hended

theorem raiseAll_endedAt {payloads : List Payload} (h : g.raiseAll now payloads = some g') :
    g'.endedAt = if payloads.any Payload.terminal then some now else g.endedAt := by
  induction payloads generalizing g with
  | nil =>
    obtain rfl := Option.some.inj h
    rfl
  | cons p payloads ih =>
    obtain ⟨g₁, hfirst, hrest⟩ := Option.bind_eq_some_iff.mp h
    obtain ⟨g₂, happly, rfl⟩ := raise_eq_some hfirst
    have hended : g₂.endedAt = if p.terminal then some now else g.endedAt :=
      applyEvent_endedAt (e := g.eventOf now p) rfl happly
    have hrecord : (g₂.recordEvent (g.eventOf now p)).endedAt = g₂.endedAt := rfl
    rw [ih hrest, hrecord, hended, List.any_cons]
    cases p.terminal <;> simp

theorem raiseAll_hasEnded {payloads : List Payload} (h : g.raiseAll now payloads = some g') :
    g'.hasEnded = (g.hasEnded || payloads.any Payload.terminal) := by
  induction payloads generalizing g with
  | nil =>
    obtain rfl := Option.some.inj h
    simp
  | cons p payloads ih =>
    obtain ⟨g₁, hfirst, hrest⟩ := Option.bind_eq_some_iff.mp h
    rw [ih hrest, raise_hasEnded hfirst, List.any_cons, Bool.or_assoc]

/-- The game becomes the other by raising payloads with a property. -/
def Game.Records (P : Payload → Prop) (now : Time) (g g' : Game) : Prop :=
  ∃ payloads, (∀ p ∈ payloads, P p) ∧ g.raiseAll now payloads = some g'

namespace Game

variable {P : Payload → Prop} {h : Game}

theorem Records.refl (g : Game) : Records P now g g := ⟨[], by simp, rfl⟩

theorem Records.trans (hgg' : Records P now g g') (hg'h : Records P now g' h) :
    Records P now g h := by
  obtain ⟨ps, hps, hraise⟩ := hgg'
  obtain ⟨qs, hqs, hraise'⟩ := hg'h
  refine ⟨ps ++ qs, fun p hp => ?_, by rw [raiseAll_append, hraise]; exact hraise'⟩
  exact (List.mem_append.mp hp).elim (hps p) (hqs p)

theorem records_of_raise {p : Payload} (hp : P p)
    (hraise : g.raise now p.type p = some g') : Records P now g g' :=
  ⟨[p], by simpa using hp, by rw [raiseAll_cons, hraise]; rfl⟩

theorem Records.imp {Q : Payload → Prop} (hr : Records P now g g') (hPQ : ∀ p, P p → Q p) :
    Records Q now g g' := by
  obtain ⟨payloads, hall, hraise⟩ := hr
  exact ⟨payloads, fun p hp => hPQ p (hall p hp), hraise⟩

theorem Records.shaped (hr : Records P now g g') (hg : Shaped roster n g)
    (hfits : ∀ p, P p → p.Fits n roster.length) : Shaped roster n g' := by
  obtain ⟨payloads, hall, hraise⟩ := hr
  exact hg.of_raiseAll (fun p hp => hfits p (hall p hp)) hraise

theorem Records.hasEnded (hr : Records P now g g') (hP : ∀ p, P p → p.terminal = false) :
    g'.hasEnded = g.hasEnded := by
  obtain ⟨payloads, hall, hraise⟩ := hr
  have hnone : payloads.any Payload.terminal = false :=
    List.any_eq_false.mpr fun p hp => Bool.eq_false_iff.mp (hP p (hall p hp))
  rw [raiseAll_hasEnded hraise, hnone, Bool.or_false]

/-- A command that is accepted: the game goes on, and becomes the other by raising the payload
that stands for the command, and then payloads that follow from it. -/
structure Changes (roster : List Player) (n : ℕ) (first : Payload) (now : Time) (g g' : Game) :
    Prop where
  running : g.hasEnded = false
  fits : first.Fits n roster.length
  raised : ∃ payloads, (∀ p ∈ payloads, first.Follows n roster.length p) ∧
    g.raiseAll now (first :: payloads) = some g'

theorem Changes.raises {first : Payload} (hc : Changes roster n first now g g') :
    ∃ payloads, (∀ q, .gameCreated q ∉ payloads) ∧ g.raiseAll now payloads = some g' := by
  obtain ⟨payloads, hrest, hraise⟩ := hc.raised
  refine ⟨first :: payloads, fun q hq => ?_, hraise⟩
  have hfits : (Payload.gameCreated q).Fits n roster.length := by
    rcases List.mem_cons.mp hq with rfl | hq
    · exact hc.fits
    · exact (hrest _ hq).fits
  obtain ⟨act, hden⟩ := hfits
  cases hden

theorem Changes.of_raise {first : Payload} (hrun : g.hasEnded = false)
    (hfits : first.Fits n roster.length) (hraise : g.raise now first.type first = some g')
    (hrest : Records (first.Follows n roster.length) now g' h) :
    Changes roster n first now g h := by
  obtain ⟨payloads, hall, hraises⟩ := hrest
  refine ⟨hrun, hfits, payloads, hall, ?_⟩
  rw [raiseAll_cons, hraise]
  exact hraises

end Game

namespace Shaped

variable {P : Payload → Prop}

theorem nextTurn (h : Shaped roster n g) : ∃ t : Fin roster.length, g.nextTurn = some t.val := by
  obtain ⟨t, ht⟩ := h.turn
  refine ⟨nextSeat t, ?_⟩
  rw [Game.nextTurn, h.length, if_neg t.pos.ne', ht, nextSeat]
  norm_cast

theorem findCompletableBox (h : Shaped roster n g) {row col : ℤ} {box : Box}
    (hbox : g.findCompletableBox row col = some (some box)) :
    ∃ c : Cell n, box.row = c.1.val ∧ box.col = c.2.val := by
  unfold Game.findCompletableBox at hbox
  split at hbox
  · cases hbox
  case isFalse hin =>
    obtain ⟨c, rfl, rfl⟩ := exists_cell_of_not_outside h.boardSize (Bool.eq_false_iff.mpr hin)
    obtain ⟨box', hat, hrow, hcol⟩ := h.cell c
    obtain ⟨box₁, hat₁, heq⟩ := Option.bind_eq_some_iff.mp hbox
    obtain rfl := Option.some.inj (hat.symm.trans hat₁)
    split at heq
    · simp at heq
    · obtain rfl := Option.some.inj (Option.some.inj heq)
      exact ⟨c, hrow, hcol⟩

theorem findNewlyCompletedBoxes (h : Shaped roster n g) {move : Move} {boxes : List Box}
    (hboxes : g.findNewlyCompletedBoxes move = some boxes) :
    ∀ box ∈ boxes, ∃ c : Cell n, box.row = c.1.val ∧ box.col = c.2.val := by
  obtain ⟨own, hown, hboxes⟩ := Option.bind_eq_some_iff.mp hboxes
  obtain ⟨adjacent, hadjacent, hboxes⟩ := Option.bind_eq_some_iff.mp hboxes
  obtain rfl := Option.some.inj hboxes
  intro box hbox
  rcases List.mem_append.mp hbox with hbox | hbox
  · obtain rfl := Option.mem_toList.mp hbox
    exact h.findCompletableBox hown
  · obtain rfl := Option.mem_toList.mp hbox
    unfold Game.findCompletableAdjacent at hadjacent
    dsimp only at hadjacent
    split at hadjacent
    · exact h.findCompletableBox hadjacent
    · cases hadjacent

theorem validateMove (h : Shaped roster n g) {move : Move}
    (hvalid : g.validateMove move = some (.ok ())) :
    g.hasEnded = false ∧ (∃ t : Fin roster.length, move.turnOrder = t.val) ∧
      (Payload.moveApplied ⟨move.turnOrder, move.row, move.col, move.edge.toString⟩).Fits n
        roster.length := by
  obtain ⟨hturn, hin, havailable, hrun⟩ := validateMove_eq_ok hvalid
  obtain ⟨turnOrder, row, col, edge⟩ := move
  dsimp only at hturn hin havailable ⊢
  obtain ⟨t, ht⟩ := h.turn
  obtain ⟨c, rfl, rfl⟩ := exists_cell_of_not_outside h.boardSize hin
  refine ⟨hrun, ⟨t, hturn.trans ht⟩, ?_⟩
  rcases exists_side_or_other edge with ⟨s, rfl⟩ | ⟨name, rfl⟩
  · exact ⟨_, .moveApplied turnOrder c s⟩
  · obtain ⟨box, hat, -⟩ := h.cell c
    simp [Game.isEdgeAvailable, hin, hat] at havailable

theorem passTurn (h : Shaped roster n g) (hpass : g.passTurn now = some g') :
    ∃ t : Fin roster.length, g.nextTurn = some t.val ∧
      g.raise now .turnPassed (.turnPassed ⟨t.val⟩) = some g' := by
  obtain ⟨next, hnext, hraise⟩ := Option.bind_eq_some_iff.mp hpass
  obtain ⟨t, ht⟩ := h.nextTurn
  obtain rfl := Option.some.inj (hnext.symm.trans ht)
  exact ⟨t, ht, hraise⟩

theorem endIfOver {boxes : List Box} {result : MoveResult} (hrun : g.hasEnded = false)
    (hP : ∀ winnerID, P (.gameEnded ⟨winnerID⟩)) (h : g.endIfOver now boxes = some (g', result)) :
    Records P now g g' ∧ g'.hasEnded = result.gameOver := by
  rcases (endIfOver_eq_some h).2 with ⟨rfl, hgoing⟩ | ⟨hraise, hover⟩
  · exact ⟨.refl g', hrun.trans hgoing.symm⟩
  · refine ⟨records_of_raise (hP _) hraise, ?_⟩
    rw [raise_hasEnded (p := .gameEnded _) hraise, hover, hrun]
    rfl

theorem follows_gameEnded (first : Payload) (winnerID : Option ℤ) :
    first.Follows n k (.gameEnded ⟨winnerID⟩) :=
  ⟨⟨_, .gameEnded winnerID⟩, by simp, by simp⟩

theorem applyMove (h : Shaped roster n g) {move : Move} {result : MoveResult}
    (hmove : g.applyMove now move = some (g', .ok result)) :
    Changes roster n (.moveApplied ⟨move.turnOrder, move.row, move.col, move.edge.toString⟩)
      now g g' ∧ g'.hasEnded = result.gameOver := by
  obtain ⟨g₁, boxes, g₂, g₃, hvalid, hmoved, hboxes, hcompleted, hpassed, hended⟩ :=
    applyMove_eq_ok hmove
  obtain ⟨hrun, ⟨t, ht⟩, hfits⟩ := h.validateMove hvalid
  have h₁ : Shaped roster n g₁ := h.of_raise hfits hmoved
  set first : Payload :=
    .moveApplied ⟨move.turnOrder, move.row, move.col, move.edge.toString⟩ with hfirst
  -- no payload before the last ends the game
  set P : Payload → Prop := fun p => first.Follows n roster.length p ∧ p.terminal = false
  have hcells := h₁.findNewlyCompletedBoxes hboxes
  have hrecords₂ : Records P now g₁ g₂ := by
    refine ⟨_, fun p hp => ?_, (raiseCompleted_eq now move.turnOrder g₁ boxes).symm.trans hcompleted⟩
    obtain ⟨box, hbox, rfl⟩ := List.mem_map.mp hp
    obtain ⟨c, hrow, hcol⟩ := hcells box hbox
    rw [hrow, hcol, ht]
    exact ⟨⟨⟨_, .boxCompleted c t⟩, by simp, by simp⟩, rfl⟩
  have h₂ : Shaped roster n g₂ := hrecords₂.shaped h₁ fun p hp => hp.1.fits
  have hrecords₃ : Records P now g₂ g₃ := by
    unfold Game.passUnlessCompleted at hpassed
    split at hpassed
    · obtain ⟨t, -, hraise⟩ := h₂.passTurn hpassed
      exact records_of_raise (p := .turnPassed _)
        ⟨⟨⟨_, .turnPassed t⟩, by simp, by simp [hfirst]⟩, rfl⟩ hraise
    · obtain rfl := Option.some.inj hpassed
      exact .refl g₂
  have hrecords := hrecords₂.trans hrecords₃
  have hrun₃ : g₃.hasEnded = false := by
    rw [hrecords.hasEnded fun p hp => hp.2, raise_hasEnded (p := first) hmoved, hrun]
    rfl
  obtain ⟨hrecords₄, hover⟩ := endIfOver hrun₃ (follows_gameEnded first) hended
  exact ⟨.of_raise hrun hfits hmoved ((hrecords.imp fun p hp => hp.1).trans hrecords₄), hover⟩

theorem passTurnOnTimeout (h : Shaped roster n g) {result : MoveResult}
    (hpass : g.passTurnOnTimeout now = some (g', .ok result)) :
    ∃ next, g.nextTurn = some next ∧ Changes roster n (.turnPassed ⟨next⟩) now g g' ∧
      g'.hasEnded = result.gameOver := by
  obtain ⟨hrun, g₁, hpassed, hended⟩ := passTurnOnTimeout_eq_ok hpass
  obtain ⟨t, ht, hraise⟩ := h.passTurn hpassed
  have hrun₁ : g₁.hasEnded = false := by
    rw [raise_hasEnded (p := .turnPassed _) hraise, hrun]
    rfl
  obtain ⟨hrecords, hover⟩ := endIfOver hrun₁ (follows_gameEnded (.turnPassed ⟨t.val⟩)) hended
  exact ⟨t.val, ht, .of_raise hrun ⟨_, .turnPassed t⟩ hraise hrecords, hover⟩

theorem forfeit (hrun : g.hasEnded = false) {playerID : ℤ}
    (hforfeit : g.forfeit now playerID = some g') :
    ∃ winnerID, Changes roster n (.gameForfeited ⟨playerID, winnerID⟩) now g g' ∧
      g'.hasEnded = true := by
  have hraise : g.raise now .gameForfeited _ = some g' := hforfeit
  refine ⟨_, .of_raise hrun ⟨_, .gameForfeited _ _⟩ hraise (.refl g'), ?_⟩
  rw [raise_hasEnded (p := .gameForfeited _) hraise, hrun]
  rfl

end Shaped

end DotsAndBoxes
