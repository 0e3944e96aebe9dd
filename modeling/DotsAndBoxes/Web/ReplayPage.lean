import DotsAndBoxes.Library.Runs
import DotsAndBoxes.Service.Requests
import DotsAndBoxes.Web.Replay

/-! # The replay page

The page plays back the log of a game that may still be played. Its keys, its slider and its clock
move a step along the snapshots, and an answer of the server replaces the log while they do. The
snapshots of a longer log are those of the shorter one and more, so a step shows what it has shown
before.
-/

namespace DotsAndBoxes.Web

open Slices Enclosure Game Runs

structure Display where
  grid : List (List Box)
  scores : ℤ → Option ℤ
  lastMove : Option MoveAppliedPayload

def ReplayState.display (s : ReplayState) : Display := ⟨s.grid, s.scores, s.lastMove⟩

def speedOptions : List ℤ := [2000, 1000, 500, 250]

/-- The game and the log that were received, with the snapshots of the log, and the place in
them. -/
structure ReplayPage where
  gameState : Option Game := none
  events : Option (List DomainEvent) := none
  replayStates : List ReplayState := []
  currentStep : ℤ := 0
  isPlaying : Bool := false
  speedIndex : ℕ := 1

namespace ReplayPage

def totalSteps (page : ReplayPage) : ℤ := page.replayStates.length

def currentState (page : ReplayPage) : Option ReplayState := at? page.replayStates page.currentStep

/-- The page is past its loading text and the one about a game without events, and has its
slider. -/
def ready (page : ReplayPage) : Bool :=
  page.gameState.isSome && page.events.isSome && !decide (page.totalSteps ≤ 1)

def shown (page : ReplayPage) : Option ReplayState :=
  if page.ready then page.currentState else none

/-- A log comes in. A log that cannot be projected throws. -/
def receive (events : List DomainEvent) (page : ReplayPage) : Exec ReplayPage := do
  let replayStates ← buildReplayStates events
  return { page with events := some events, replayStates }

def stopPlayback (page : ReplayPage) : ReplayPage := { page with isPlaying := false }

def startPlayback (page : ReplayPage) : ReplayPage :=
  { page with
    currentStep := if page.currentStep ≥ page.totalSteps - 1 then 0 else page.currentStep
    isPlaying := true }

def togglePlay (page : ReplayPage) : ReplayPage :=
  if page.isPlaying then page.stopPlayback else page.startPlayback

def stepForward (page : ReplayPage) : ReplayPage :=
  { page.stopPlayback with currentStep := min (page.currentStep + 1) (page.totalSteps - 1) }

def stepBackward (page : ReplayPage) : ReplayPage :=
  { page.stopPlayback with currentStep := max (page.currentStep - 1) 0 }

def goToStart (page : ReplayPage) : ReplayPage := { page.stopPlayback with currentStep := 0 }

def goToEnd (page : ReplayPage) : ReplayPage :=
  { page.stopPlayback with currentStep := page.totalSteps - 1 }

def slide (value : ℤ) (page : ReplayPage) : ReplayPage :=
  { page.stopPlayback with currentStep := value }

def cycleSpeed (page : ReplayPage) : ReplayPage :=
  { page with speedIndex := (page.speedIndex + 1) % speedOptions.length }

/-- The interval of the clock runs out. The clock runs only while the page is playing. -/
def tick (page : ReplayPage) : ReplayPage :=
  if page.isPlaying then
    if page.currentStep ≥ page.totalSteps - 1 then page.stopPlayback
    else { page with currentStep := page.currentStep + 1 }
  else page

end ReplayPage

/-- The events that a command raises on the game that it loads. -/
def raisedBy (db : Database) (gameID : ℤ) (c : Command) (rows : List EventRow) :
    Exec (List DomainEvent) :=
  match db.loadEvents gameID rows with
  | .error _ => some []
  | .ok domainEvents => do
    let g ← Game.loadFromEvents domainEvents
    let (g, _) ← g.execute c
    return g.uncommittedEvents

/-- A command has loaded the rows, and has still to append what it has raised. -/
structure Unappended where
  loaded : List EventRow
  raised : List DomainEvent

/-- The stored game with the commands under way, the answer on its way to the page, and the page. -/
structure Viewing where
  rows : List EventRow
  unappended : List Unappended := []
  answer : Option (List DomainEvent) := none
  page : ReplayPage := {}

inductive ReplayAct where
  /-- A command of a player, or of a timer, loads the game. -/
  | load (c : Command)
  | append (i : ℕ)
  /-- The query for the game is answered. -/
  | fetchGame
  /-- The server reads the log for the page. A later answer takes the place of an earlier one. -/
  | answer
  | receive
  | togglePlay
  | stepForward
  | stepBackward
  | goToStart
  | goToEnd
  /-- The slider has a value for each snapshot. -/
  | slide (value : ℤ)
  | cycleSpeed
  | tick
  deriving DecidableEq, Repr

/-- What an act does to the page by itself. -/
def ReplayAct.perform : ReplayAct → ReplayPage → ReplayPage
  | .togglePlay => .togglePlay
  | .stepForward => .stepForward
  | .stepBackward => .stepBackward
  | .goToStart => .goToStart
  | .goToEnd => .goToEnd
  | .slide value => .slide value
  | .cycleSpeed => .cycleSpeed
  | .tick => .tick
  | _ => id

def ReplayAct.Local (page : ReplayPage) : ReplayAct → Prop
  | .load _ => False
  | .append _ => False
  | .fetchGame => False
  | .answer => False
  | .receive => False
  | .slide value => page.ready = true ∧ 0 ≤ value ∧ value ≤ page.totalSteps - 1
  | _ => True

inductive Viewing.Step (db : Database) (gameID : ℤ) : Viewing → ReplayAct → Viewing → Prop where
  | load {w : Viewing} {c : Command} {raised : List DomainEvent} :
      raisedBy db gameID c w.rows = some raised →
      Step db gameID w (.load c) { w with unappended := w.unappended ++ [⟨w.rows, raised⟩] }
  | append {w : Viewing} {i : ℕ} {change : Unappended} : w.unappended[i]? = some change →
      Step db gameID w (.append i)
        { w with
          rows := db.appendEvents w.rows change.raised
          unappended := w.unappended.eraseIdx i }
  | fetchGame {w : Viewing} {g : Game} : db.findByID gameID w.rows = some (.ok (some g)) →
      Step db gameID w .fetchGame { w with page := { w.page with gameState := some g } }
  | answer {w : Viewing} {log : List DomainEvent} : db.loadEvents gameID w.rows = .ok log →
      Step db gameID w .answer { w with answer := some log }
  | receive {w : Viewing} {log : List DomainEvent} {page : ReplayPage} : w.answer = some log →
      w.page.receive log = some page →
      Step db gameID w .receive { w with answer := none, page }
  | perform {w : Viewing} {act : ReplayAct} : act.Local w.page →
      Step db gameID w act { w with page := act.perform w.page }

/-- Events are only appended to the log that was loaded for them. -/
def Viewing.InTurn (w : Viewing) (act : ReplayAct) : Prop :=
  ∀ i change, act = .append i → w.unappended[i]? = some change → change.raised ≠ [] →
    change.loaded = w.rows

section Continued

variable {b b' : Builder} {e : DomainEvent} {log log' new : List DomainEvent}

/-- The first of the events does not go on with what came before: it is a move, or it passes the
turn, or it ends the game. -/
def Begins (new : List DomainEvent) : Prop :=
  ∀ e ∈ new.head?, e.type = e.payload.type ∧ (∀ c, e.payload ≠ .gameCreated c) ∧
    ∀ c, e.payload ≠ .boxCompleted c

/-- The log has been continued by the events of commands. -/
inductive Continues (log : List DomainEvent) : List DomainEvent → Prop where
  | refl : Continues log log
  | append {log' new : List DomainEvent} : Continues log log' → Begins new →
      Continues log (log' ++ new)

theorem Continues.trans {log'' : List DomainEvent} (h : Continues log log')
    (h' : Continues log' log'') : Continues log log'' := by
  induction h' with
  | refl => exact h
  | append _ hnew ih => exact ih.append hnew

theorem Continues.isPrefix (h : Continues log log') : log <+: log' := by
  induction h with
  | refl => exact List.prefix_refl log
  | append _ _ ih => exact ih.trans (List.prefix_append _ _)

theorem Builder.states_prefix_flush (b : Builder) : b.states <+: b.flush.states := by
  unfold Builder.flush
  split
  · exact List.prefix_append _ _
  · exact List.prefix_refl _

theorem Builder.states_prefix_project (h : b.project e = some b') : b.states <+: b'.states := by
  obtain ⟨type, _, _, _, payload⟩ := e
  unfold Builder.project at h
  split at h
  case h_1 =>
    obtain rfl := Option.some.inj h
    exact List.prefix_append _ _
  case h_2 =>
    obtain ⟨grid, -, h⟩ := Option.bind_eq_some_iff.mp h
    obtain rfl := Option.some.inj h
    exact List.prefix_refl _
  case h_3 =>
    obtain ⟨grid, -, h⟩ := Option.bind_eq_some_iff.mp h
    obtain rfl := Option.some.inj h
    exact List.prefix_refl _
  case h_7 =>
    obtain rfl := Option.some.inj h
    exact List.prefix_refl _
  case h_8 => cases h
  all_goals
    obtain rfl := Option.some.inj h
    exact List.prefix_append _ _

theorem Builder.states_prefix_event (h : b.event e = some b') : b.states <+: b'.states := by
  unfold Builder.event at h
  split at h
  · exact b.states_prefix_flush.trans (Builder.states_prefix_project h)
  · exact Builder.states_prefix_project h

theorem Builder.states_prefix_foldlM (h : log.foldlM Builder.event b = some b') :
    b.states <+: b'.states := by
  induction log generalizing b with
  | nil =>
    obtain rfl := Option.some.inj h
    exact List.prefix_refl _
  | cons e log ih =>
    obtain ⟨b₁, hevent, hrest⟩ := Option.bind_eq_some_iff.mp h
    exact (Builder.states_prefix_event hevent).trans (ih hrest)

/-- A pending move is shown, or its snapshot differs from what is shown next in the turn alone. -/
theorem Builder.display_prefix_event (hb : Begins [e]) (h : b.event e = some b') :
    b.flush.states.map ReplayState.display <+: b'.states.map ReplayState.display := by
  obtain ⟨htype, hcreated, hcompleted⟩ := hb e rfl
  have hpending : ∀ s, b'.states = b.states ++ [s] → s.display = b.snapshot.display →
      b.flush.states.map ReplayState.display <+: b'.states.map ReplayState.display := by
    intro s hs hsame
    rw [hs, List.map_append, List.map_singleton, hsame]
    unfold Builder.flush
    split
    · simp [Builder.push]
    · exact List.prefix_append _ _
  obtain ⟨type, occurredAt, aggregateID, version, payload⟩ := e
  dsimp only at htype hcreated hcompleted
  subst htype
  cases payload with
  | gameCreated c => exact absurd rfl (hcreated c)
  | boxCompleted c => exact absurd rfl (hcompleted c)
  | moveApplied p =>
    have hmove : (Payload.moveApplied p).type = .moveApplied := rfl
    rw [Builder.event, if_pos hmove] at h
    exact (Builder.states_prefix_project h).map _
  | turnPassed p =>
    obtain rfl := Option.some.inj h
    exact hpending _ rfl rfl
  | gameEnded p =>
    obtain rfl := Option.some.inj h
    exact hpending _ rfl rfl
  | gameForfeited p =>
    obtain rfl := Option.some.inj h
    exact hpending _ rfl rfl

/-- A log that is continued by the events of a command is shown as before, and then further. -/
theorem display_prefix_append {states states' : List ReplayState} (hnew : Begins new)
    (h : buildReplayStates log = some states) (h' : buildReplayStates (log ++ new) = some states') :
    states.map ReplayState.display <+: states'.map ReplayState.display := by
  obtain ⟨b, hbuilt, hb⟩ := Option.bind_eq_some_iff.mp h
  obtain rfl := Option.some.inj hb
  obtain ⟨b', hbuilt', hb'⟩ := Option.bind_eq_some_iff.mp h'
  obtain rfl := Option.some.inj hb'
  rw [List.foldlM_append, hbuilt, Option.bind_eq_bind, Option.bind_some] at hbuilt'
  cases new with
  | nil =>
    obtain rfl := Option.some.inj hbuilt'
    exact List.prefix_refl _
  | cons e new =>
    obtain ⟨b₁, hevent, hrest⟩ := Option.bind_eq_some_iff.mp hbuilt'
    have hfirst := Builder.display_prefix_event (e := e) (by simpa [Begins] using hnew) hevent
    have hlater := (Builder.states_prefix_foldlM hrest).trans b'.states_prefix_flush
    exact hfirst.trans (hlater.map _)

theorem Continues.display_isPrefix {states states' : List ReplayState} (h : Continues log log')
    (hbuilt : buildReplayStates log = some states)
    (hbuilt' : buildReplayStates log' = some states') :
    states.map ReplayState.display <+: states'.map ReplayState.display := by
  induction h generalizing states' with
  | refl =>
    obtain rfl := Option.some.inj (hbuilt.symm.trans hbuilt')
    exact List.prefix_refl _
  | @append log' new _ hnew ih =>
    obtain ⟨b, hfold, -⟩ := Option.bind_eq_some_iff.mp hbuilt'
    rw [List.foldlM_append] at hfold
    obtain ⟨b₁, hfold₁, -⟩ := Option.bind_eq_some_iff.mp hfold
    have hbetween : buildReplayStates log' = some b₁.flush.states := by
      rw [buildReplayStates, hfold₁]
      rfl
    exact (ih hbetween).trans (display_prefix_append hnew hbetween hbuilt')

end Continued

section Stored

variable {n k : ℕ} {roster : List Player} {g : Game} {pos : BoardPosition n roster.length}
  {gameID : ℤ} {rows rows' : List EventRow} {log : List DomainEvent}

theorem begins_stamped {turn turn' : ℤ} {ended ended' : Bool} {payloads : List Payload}
    (h : Added k turn ended payloads turn' ended') (now : Time) (aggregateID : String)
    (version : ℤ) : Begins (stamped now aggregateID version payloads) := by
  have hhead : ∀ q ∈ payloads.head?, (∀ c, q ≠ .gameCreated c) ∧ ∀ c, q ≠ .boxCompleted c := by
    cases h with
    | nothing => simp
    | round hround => exact hround.adjacent.2
    | terminal hend => exact hend.adjacent.2
  intro e he
  have hmem := List.mem_of_mem_head? he
  refine ⟨type_of_mem_stamped hmem, hhead e.payload ?_⟩
  rw [← map_payload_stamped now aggregateID version payloads, List.head?_map]
  exact Option.mem_map_of_mem _ he

theorem loadEvents_eq (hs : Stored gameID g rows) (db : Database) :
    db.loadEvents gameID rows = rows.mapM (EventRow.load gameID) := by
  rw [Database.loadEvents, db.orderByVersion_eq hs.ordered]

theorem storedStep_of_raisedBy {db : Database} {c : Command} {raised : List DomainEvent}
    (h : raisedBy db gameID c rows = some raised) :
    ∃ outcome, storedStep db gameID c rows = some (db.appendEvents rows raised, outcome) := by
  unfold raisedBy at h
  unfold storedStep
  cases hload : db.loadEvents gameID rows with
  | error e =>
    rw [hload] at h
    obtain rfl := Option.some.inj h
    exact ⟨_, by rw [Database.appendEvents, List.map_nil, List.append_nil]⟩
  | ok domainEvents =>
    rw [hload] at h
    obtain ⟨g, hfold, h⟩ := Option.bind_eq_some_iff.mp h
    obtain ⟨⟨g', reply⟩, hexec, h⟩ := Option.bind_eq_some_iff.mp h
    obtain rfl := Option.some.inj h
    exact ⟨⟨reply.mapError .move, some g'.view⟩, by simp [hfold, hexec]⟩

theorem begins_raisedBy (ha : Archived gameID n roster rows g pos) (db : Database) {c : Command}
    {raised : List DomainEvent} (h : raisedBy db gameID c rows = some raised)
    (hload : db.loadEvents gameID rows = .ok log) :
    ∃ new, (db.appendEvents rows raised).mapM (EventRow.load gameID) = .ok (log ++ new) ∧
      Begins new := by
  obtain ⟨es, g₀, hload', hfold, hr⟩ := ha.stored.loadEvents db
  obtain rfl := Except.ok.inj (hload.symm.trans hload')
  obtain ⟨g', reply, now, payloads, acts, hexec, hperf, hadded⟩ :=
    (ha.toTracks.sameView hr.sameView).execute c
  obtain ⟨hraised, -, -⟩ := raiseAll_records (gameCreated_notMem hperf.denotes) hperf.raised
  rw [hr.clean, List.nil_append] at hraised
  obtain rfl : g'.uncommittedEvents = raised := by
    simpa [raisedBy, hload, hfold, hexec] using h
  have hbegins := begins_stamped hadded now g₀.aggregateID g₀.version
  refine ⟨g'.uncommittedEvents.map (db.loaded gameID), ?_, ?_⟩
  · have hread : rows.mapM (EventRow.load gameID) = .ok log :=
      (loadEvents_eq ha.stored db).symm.trans hload
    rw [hraised, Database.appendEvents, List.mapM_append, hread,
      mapM_load_row db gameID fun e he => type_of_mem_stamped he]
    rfl
  · intro e he
    rw [hraised, List.head?_map] at he
    obtain ⟨e₀, he₀, rfl⟩ := Option.mem_map.mp he
    exact hbegins e₀ he₀

/-- The log starts with the creation of a game, and the viewer can project the rest. -/
structure Followable (n k : ℕ) (log : List DomainEvent) : Prop where
  playable : Playable n k log
  created : ∃ id seats, (∀ p ∈ seats, p.score = 0) ∧
    log.head?.map (·.payload) = some (.gameCreated ⟨id, n, seats⟩)

/-- The snapshots are those of ever longer parts of the log, up to all of it. -/
def Portrays (log seen : List DomainEvent) (states : List ReplayState) : Prop :=
  ∃ cuts : List ℕ, cuts.head? = some 1 ∧ cuts.getLast? = some seen.length ∧ cuts.IsChain (· < ·) ∧
    List.Forall₂ (ShowsAt log) cuts states

theorem Followable.built (h : Followable n k log) :
    ∃ states, buildReplayStates log = some states ∧ Portrays log log states := by
  obtain ⟨id, seats, hscores, hhead⟩ := h.created
  have hpos : 0 < log.length := by
    by_contra hempty
    obtain rfl := List.eq_nil_of_length_eq_zero (Nat.eq_zero_of_not_pos hempty)
    cases hhead
  obtain ⟨b, cuts, shown, hbuilt, hshown, -⟩ :=
    exists_shown h.playable hhead hscores (log.length - 1) (by omega)
  rw [Nat.sub_add_cancel hpos] at hbuilt hshown
  rw [List.take_length] at hbuilt
  obtain ⟨cuts', hflush⟩ := hshown.flush
  refine ⟨b.flush.states, ?_, cuts', hflush.first, hflush.last, ?_, hflush.states⟩
  · rw [buildReplayStates, hbuilt]
    rfl
  · exact hflush.steps.imp fun _ _ hs => hs.1

theorem le_getLast_of_mem {cuts : List ℕ} {last m : ℕ} (hcuts : cuts.IsChain (· < ·))
    (hlast : cuts.getLast? = some last) (hm : m ∈ cuts) : m ≤ last := by
  obtain ⟨init, rfl⟩ := List.getLast?_eq_some_iff.mp hlast
  rcases List.mem_append.mp hm with hinit | hm
  · exact (List.pairwise_append.mp hcuts.pairwise).2.2 m hinit last (by simp) |>.le
  · exact (List.mem_singleton.mp hm).le

theorem Portrays.of_isPrefix {log log' : List DomainEvent} {states : List ReplayState}
    (h : Portrays log log states) (hle : log <+: log') : Portrays log' log states := by
  obtain ⟨cuts, hfirst, hlast, hcuts, hstates⟩ := h
  refine ⟨cuts, hfirst, hlast, hcuts, ?_⟩
  have hshows := (List.forall₂_and_left cuts states).mpr
    ⟨fun m hm => le_getLast_of_mem hcuts hlast hm, hstates⟩
  refine hshows.imp fun m s ⟨hm, g, hg, hs⟩ => ⟨g, ?_, hs⟩
  obtain ⟨rest, rfl⟩ := hle
  rwa [List.take_append_of_le_length hm]

/-- The log that has been received is continued by the answer on its way, and this by the log that
is stored. What is still to be appended was raised on the rows that were loaded for it. -/
structure Viewing.Kept (db : Database) (gameID : ℤ) (n : ℕ) (roster : List Player)
    (log : List DomainEvent) (w : Viewing) : Prop where
  archived : ∃ g pos, Archived gameID n roster w.rows g pos
  denoting : Denoting n roster.length gameID w.rows
  loaded : db.loadEvents gameID w.rows = .ok log
  unappended : ∀ change ∈ w.unappended, ∃ c,
    raisedBy db gameID c change.loaded = some change.raised
  answered : ∀ answer, w.answer = some answer →
    Followable n roster.length answer ∧ Continues answer log
  received : ∀ seen, w.page.events = some seen →
    buildReplayStates seen = some w.page.replayStates ∧ Followable n roster.length seen ∧
      Continues seen log ∧ ∀ answer, w.answer = some answer → Continues seen answer
  empty : w.page.events = none → w.page.replayStates = []

theorem ReplayAct.perform_frame (act : ReplayAct) (page : ReplayPage) :
    (act.perform page).events = page.events ∧
      (act.perform page).replayStates = page.replayStates := by
  cases act with
  | togglePlay =>
    simp only [perform, ReplayPage.togglePlay]
    split_ifs <;> exact ⟨rfl, rfl⟩
  | tick =>
    simp only [perform, ReplayPage.tick]
    split_ifs <;> exact ⟨rfl, rfl⟩
  | _ => exact ⟨rfl, rfl⟩

namespace Viewing.Kept

variable {db : Database} {w w' : Viewing} {act : ReplayAct}

theorem followable (h : w.Kept db gameID n roster log) (hscores : ∀ p ∈ roster, p.score = 0) :
    Followable n roster.length log := by
  obtain ⟨g, pos, ha⟩ := h.archived
  obtain ⟨hplayable, id, hhead⟩ := playable_of_loadEvents ha h.denoting h.loaded
  exact ⟨hplayable, id, roster, hscores, hhead⟩

theorem receive (h : w.Kept db gameID n roster log) {answer : List DomainEvent}
    (hanswer : w.answer = some answer) : ∃ page, w.page.receive answer = some page := by
  obtain ⟨states, hbuilt, -⟩ := (h.answered answer hanswer).1.built
  exact ⟨_, by simp [ReplayPage.receive, hbuilt]; rfl⟩

theorem append (h : w.Kept db gameID n roster log) {i : ℕ} {change : Unappended}
    (hchange : w.unappended[i]? = some change) (hturn : w.InTurn (.append i)) :
    ∃ log', Viewing.Kept db gameID n roster log'
      { w with
        rows := db.appendEvents w.rows change.raised
        unappended := w.unappended.eraseIdx i } := by
  have herase : ∀ change ∈ w.unappended.eraseIdx i, ∃ c,
      raisedBy db gameID c change.loaded = some change.raised :=
    fun other hother => h.unappended other (List.mem_of_mem_eraseIdx hother)
  by_cases hnone : change.raised = []
  · refine ⟨log, ?_⟩
    rw [hnone, Database.appendEvents, List.map_nil, List.append_nil]
    exact ⟨h.archived, h.denoting, h.loaded, herase, h.answered, h.received, h.empty⟩
  · obtain ⟨c, hraised⟩ := h.unappended change (List.mem_of_getElem? hchange)
    rw [hturn i change rfl hchange hnone] at hraised
    obtain ⟨g, pos, ha⟩ := h.archived
    obtain ⟨new, hread, hnew⟩ := begins_raisedBy ha db hraised h.loaded
    obtain ⟨outcome, hstored⟩ := storedStep_of_raisedBy hraised
    have hrun : storedRun db gameID [c] w.rows = some (db.appendEvents w.rows change.raised) := by
      rw [storedRun, List.foldlM_cons, hstored]
      rfl
    obtain ⟨hden, g', pos', ha'⟩ := h.denoting.run ha db hrun
    have hmore : Continues log (log ++ new) := Continues.refl.append hnew
    refine ⟨log ++ new, ⟨g', pos', ha'⟩, hden, ?_, herase, fun answer hanswer => ?_,
      fun seen hseen => ?_, h.empty⟩
    · rw [loadEvents_eq ha'.stored, hread]
    · obtain ⟨hfollow, hcont⟩ := h.answered answer hanswer
      exact ⟨hfollow, hcont.trans hmore⟩
    · obtain ⟨hbuilt, hfollow, hcont, hanswer⟩ := h.received seen hseen
      exact ⟨hbuilt, hfollow, hcont.trans hmore, hanswer⟩

theorem step (h : w.Kept db gameID n roster log) (hscores : ∀ p ∈ roster, p.score = 0)
    (hstep : Step db gameID w act w') (hturn : w.InTurn act) :
    (∃ log', w'.Kept db gameID n roster log') ∧
      w.page.replayStates.map ReplayState.display <+:
        w'.page.replayStates.map ReplayState.display := by
  cases hstep with
  | @load c raised hraised =>
    refine ⟨⟨log, h.archived, h.denoting, h.loaded, ?_, h.answered, h.received, h.empty⟩,
      List.prefix_refl _⟩
    intro change hchange
    rcases List.mem_append.mp hchange with hold | hnew
    · exact h.unappended change hold
    · obtain rfl := List.mem_singleton.mp hnew
      exact ⟨c, hraised⟩
  | append hchange => exact ⟨h.append hchange hturn, List.prefix_refl _⟩
  | fetchGame =>
    exact ⟨⟨log, h.archived, h.denoting, h.loaded, h.unappended, h.answered, h.received, h.empty⟩,
      List.prefix_refl _⟩
  | @answer log' hload =>
    obtain rfl := Except.ok.inj (h.loaded.symm.trans hload)
    refine ⟨⟨log, h.archived, h.denoting, h.loaded, h.unappended, ?_, fun seen hseen => ?_,
      h.empty⟩, List.prefix_refl _⟩
    · rintro _ ⟨⟩
      exact ⟨h.followable hscores, .refl⟩
    · obtain ⟨hbuilt, hfollow, hcont, -⟩ := h.received seen hseen
      refine ⟨hbuilt, hfollow, hcont, ?_⟩
      rintro _ ⟨⟩
      exact hcont
  | @receive answer page hanswer hreceive =>
    obtain ⟨hfollow, hcont⟩ := h.answered answer hanswer
    obtain ⟨states, hbuilt, hpage⟩ := Option.bind_eq_some_iff.mp hreceive
    obtain rfl := Option.some.inj hpage
    refine ⟨⟨log, h.archived, h.denoting, h.loaded, h.unappended, by simp, ?_, by simp⟩, ?_⟩
    · rintro _ ⟨⟩
      exact ⟨hbuilt, hfollow, hcont, by simp⟩
    · cases hseen : w.page.events with
      | none =>
        rw [h.empty hseen]
        exact List.nil_prefix
      | some seen =>
        obtain ⟨hbuilt', -, -, hlater⟩ := h.received seen hseen
        exact (hlater answer hanswer).display_isPrefix hbuilt' hbuilt
  | perform hlocal =>
    obtain ⟨hevents, hstates⟩ := act.perform_frame w.page
    refine ⟨⟨log, h.archived, h.denoting, h.loaded, h.unappended, h.answered,
      fun seen hseen => ?_, fun hnone => ?_⟩, ?_⟩
    · rw [hstates]
      exact h.received seen (hevents ▸ hseen)
    · rw [hstates]
      exact h.empty (hevents ▸ hnone)
    · rw [hstates]

end Viewing.Kept

namespace ReplayPage

/-- The step is that of a snapshot, or the one before the first, or the first before a log has come
in. -/
structure InRange (page : ReplayPage) : Prop where
  lower : -1 ≤ page.currentStep
  upper : page.currentStep < max 1 page.totalSteps
  speed : page.speedIndex < speedOptions.length

def Forward (act : ReplayAct) : Prop := act = .stepForward ∨ act = .goToEnd

theorem totalSteps_nonneg (page : ReplayPage) : 0 ≤ page.totalSteps := Int.natCast_nonneg _

theorem totalSteps_pos {page : ReplayPage} : 0 < page.totalSteps ↔ page.replayStates ≠ [] := by
  rw [totalSteps, Int.natCast_pos, List.length_pos_iff]

theorem InRange.perform {page : ReplayPage} (h : page.InRange) {act : ReplayAct}
    (hlocal : act.Local page) : (act.perform page).InRange := by
  obtain ⟨hlower, hupper, hspeed⟩ := h
  have htotal := page.totalSteps_nonneg
  cases act with
  | load | append | fetchGame | answer | receive => exact hlocal.elim
  | togglePlay =>
    simp only [ReplayAct.perform, togglePlay]
    split_ifs
    · exact ⟨hlower, hupper, hspeed⟩
    · refine ⟨?_, ?_, hspeed⟩ <;> simp only [startPlayback, totalSteps] at * <;> split_ifs <;> omega
  | stepForward =>
    refine ⟨?_, ?_, hspeed⟩ <;>
      simp only [ReplayAct.perform, stepForward, stopPlayback, totalSteps] at * <;> omega
  | stepBackward =>
    refine ⟨?_, ?_, hspeed⟩ <;>
      simp only [ReplayAct.perform, stepBackward, stopPlayback, totalSteps] at * <;> omega
  | goToStart =>
    refine ⟨?_, ?_, hspeed⟩ <;>
      simp only [ReplayAct.perform, goToStart, stopPlayback, totalSteps] at * <;> omega
  | goToEnd =>
    refine ⟨?_, ?_, hspeed⟩ <;>
      simp only [ReplayAct.perform, goToEnd, stopPlayback, totalSteps] at * <;> omega
  | slide value =>
    obtain ⟨-, hfirst, hlast⟩ := hlocal
    refine ⟨?_, ?_, hspeed⟩ <;>
      simp only [ReplayAct.perform, slide, stopPlayback, totalSteps] at * <;> omega
  | cycleSpeed => exact ⟨hlower, hupper, Nat.mod_lt _ (by decide)⟩
  | tick =>
    simp only [ReplayAct.perform, tick]
    split_ifs with hplaying hend
    · exact ⟨hlower, hupper, hspeed⟩
    · refine ⟨?_, ?_, hspeed⟩ <;> simp only [totalSteps] at * <;> omega
    · exact ⟨hlower, hupper, hspeed⟩

/-- The step stays on a snapshot unless the page is moved on when there is none. -/
theorem nonneg_perform_iff {page : ReplayPage} (hstep : 0 ≤ page.currentStep) {act : ReplayAct}
    (hlocal : act.Local page) :
    0 ≤ (act.perform page).currentStep ↔ (Forward act → page.replayStates ≠ []) := by
  have htotal := page.totalSteps_nonneg
  rw [← totalSteps_pos]
  have hother (hforward : ¬ Forward act) (hnonneg : 0 ≤ (act.perform page).currentStep) :
      0 ≤ (act.perform page).currentStep ↔ (Forward act → 0 < page.totalSteps) :=
    iff_of_true hnonneg fun hf => absurd hf hforward
  cases act with
  | load | append | fetchGame | answer | receive => exact hlocal.elim
  | stepForward =>
    simp only [Forward, true_or, true_implies, ReplayAct.perform, stepForward]
    omega
  | goToEnd =>
    simp only [Forward, or_true, true_implies, ReplayAct.perform, goToEnd]
    omega
  | togglePlay =>
    refine hother (by simp [Forward]) ?_
    simp only [ReplayAct.perform, togglePlay]
    split_ifs
    · exact hstep
    · simp only [startPlayback]
      split_ifs <;> omega
  | stepBackward => exact hother (by simp [Forward]) (le_max_right _ _)
  | goToStart => exact hother (by simp [Forward]) le_rfl
  | slide value => exact hother (by simp [Forward]) hlocal.2.1
  | cycleSpeed => exact hother (by simp [Forward]) hstep
  | tick =>
    refine hother (by simp [Forward]) ?_
    simp only [ReplayAct.perform, tick]
    split_ifs
    · exact hstep
    · change 0 ≤ page.currentStep + 1
      omega
    · exact hstep

theorem InRange.longer {page page' : ReplayPage} (h : page.InRange)
    (hstep : page'.currentStep = page.currentStep) (hspeed : page'.speedIndex = page.speedIndex)
    (htotal : page.totalSteps ≤ page'.totalSteps) : page'.InRange :=
  ⟨hstep ▸ h.lower, hstep ▸ h.upper.trans_le (max_le_max le_rfl htotal), hspeed ▸ h.speed⟩

theorem ready_iff {page : ReplayPage} : page.ready = true ↔
    page.gameState.isSome ∧ page.events.isSome ∧ 1 < page.totalSteps := by
  simp [ready, and_assoc]

/-- A step that is not the one before the first is shown once the page is ready. -/
theorem InRange.shown_iff {page : ReplayPage} (h : page.InRange) :
    page.shown.isSome ↔ page.gameState.isSome ∧ page.events.isSome ∧ 1 < page.totalSteps ∧
      0 ≤ page.currentStep := by
  have hupper := h.upper
  unfold shown
  split_ifs with hready
  · obtain ⟨hgame, hevents, htotal⟩ := ready_iff.mp hready
    rw [and_iff_right hgame, and_iff_right hevents, and_iff_right htotal, currentState, at?]
    split_ifs with hstep
    · have hlt : page.currentStep.toNat < page.replayStates.length := by
        simp only [totalSteps] at hupper htotal
        omega
      simp [hstep, hlt]
    · simp [hstep]
  · simp only [Option.isSome_none, Bool.false_eq_true, false_iff]
    rintro ⟨hgame, hevents, htotal, -⟩
    exact hready (ready_iff.mpr ⟨hgame, hevents, htotal⟩)

/-- A page that is left playing shows the snapshots in turn, and stops at the last. -/
theorem iterate_tick {page : ReplayPage} (hplaying : page.isPlaying = true)
    (hle : page.currentStep ≤ page.totalSteps - 1) (m : ℕ) :
    (tick^[m] page).currentStep = min (page.currentStep + m) (page.totalSteps - 1) ∧
      ((tick^[m] page).isPlaying = true ↔ page.currentStep + m ≤ page.totalSteps - 1) ∧
      (tick^[m] page).replayStates = page.replayStates := by
  induction m with
  | zero => simp [hplaying, hle]
  | succ m ih =>
    obtain ⟨hstep, hplay, hstates⟩ := ih
    have htotal : (tick^[m] page).totalSteps = page.totalSteps := by rw [totalSteps, hstates]; rfl
    rw [Function.iterate_succ_apply', tick]
    push_cast
    split_ifs with hm hend
    · have hgo := hplay.mp hm
      rw [htotal, hstep] at hend
      refine ⟨?_, ?_, hstates⟩
      · change (tick^[m] page).currentStep = _
        omega
      · simp only [stopPlayback, Bool.false_eq_true, false_iff]
        omega
    · have hgo := hplay.mp hm
      rw [htotal, hstep] at hend
      refine ⟨?_, ?_, hstates⟩
      · change (tick^[m] page).currentStep + 1 = _
        omega
      · change (tick^[m] page).isPlaying = true ↔ _
        rw [hplay]
        omega
    · have hover : ¬ page.currentStep + m ≤ page.totalSteps - 1 := mt hplay.mpr hm
      refine ⟨by omega, ?_, hstates⟩
      rw [hplay]
      omega

end ReplayPage

namespace Viewing

variable {db : Database} {w w' : Viewing} {act : ReplayAct}

theorem Kept.inRange (h : w.Kept db gameID n roster log) (hrange : w.page.InRange)
    (hscores : ∀ p ∈ roster, p.score = 0) (hstep : Step db gameID w act w') (hturn : w.InTurn act) :
    w'.page.InRange ∧ (0 ≤ w.page.currentStep →
      (0 ≤ w'.page.currentStep ↔ (ReplayPage.Forward act → w.page.replayStates ≠ []))) := by
  obtain ⟨-, hmore⟩ := h.step hscores hstep hturn
  have hlength := hmore.length_le
  simp only [List.length_map] at hlength
  cases hstep with
  | load | append | answer =>
    exact ⟨hrange, fun hnonneg => iff_of_true hnonneg (by simp [ReplayPage.Forward])⟩
  | fetchGame =>
    exact ⟨⟨hrange.lower, hrange.upper, hrange.speed⟩,
      fun hnonneg => iff_of_true hnonneg (by simp [ReplayPage.Forward])⟩
  | @receive answer page hanswer hreceive =>
    obtain ⟨states, hbuilt, hpage⟩ := Option.bind_eq_some_iff.mp hreceive
    obtain rfl := Option.some.inj hpage
    exact ⟨hrange.longer rfl rfl (Int.ofNat_le.mpr hlength),
      fun hnonneg => iff_of_true hnonneg (by simp [ReplayPage.Forward])⟩
  | perform hlocal =>
    exact ⟨hrange.perform hlocal, fun hnonneg => ReplayPage.nonneg_perform_iff hnonneg hlocal⟩

def Sound (db : Database) (gameID : ℤ) (n : ℕ) (roster : List Player) (w : Viewing) : Prop :=
  (∃ log, w.Kept db gameID n roster log) ∧ w.page.InRange

theorem Sound.step (h : w.Sound db gameID n roster) (hscores : ∀ p ∈ roster, p.score = 0)
    (hstep : Step db gameID w act w') (hturn : w.InTurn act) : w'.Sound db gameID n roster := by
  obtain ⟨⟨log, hkept⟩, hrange⟩ := h
  exact ⟨(hkept.step hscores hstep hturn).1, (hkept.inRange hrange hscores hstep hturn).1⟩

structure Later (db : Database) (gameID : ℤ) (n : ℕ) (roster : List Player) (page : ReplayPage)
    (w : Viewing) : Prop where
  sound : w.Sound db gameID n roster
  more : page.replayStates.map ReplayState.display <+:
    w.page.replayStates.map ReplayState.display

theorem Later.step {page : ReplayPage} (h : Later db gameID n roster page w)
    (hscores : ∀ p ∈ roster, p.score = 0) (hstep : Step db gameID w act w') (hturn : w.InTurn act) :
    Later db gameID n roster page w' := by
  obtain ⟨log, hkept⟩ := h.sound.1
  exact ⟨h.sound.step hscores hstep hturn, h.more.trans (hkept.step hscores hstep hturn).2⟩

def fresh (db : Database) (gameID : ℤ) (g : Game) : Viewing where
  rows := db.createdRows gameID g

theorem sound_fresh (hn : 0 < n) (hk : 0 < roster.length) {now : Time} {tempID : Option ℤ}
    (hnew : Game.newGame now tempID n roster = some g) (db : Database) (gameID : ℤ) :
    (fresh db gameID g).Sound db gameID n roster := by
  have hcreated := archived_createdRows hn hk db hnew gameID
  obtain ⟨log, h, hload, -⟩ := hcreated.stored.loadEvents db
  have hrange : ({} : ReplayPage).InRange := ⟨by decide, by decide, by decide⟩
  exact ⟨⟨log, ⟨_, _, hcreated⟩, denoting_createdRows hn hk db hnew gameID, hload, nofun, nofun,
    nofun, fun _ => rfl⟩, hrange⟩

/-- On every run of the page, of the commands to the game and of the answers of the server, in
which events are only appended to the log that was loaded for them, no answer throws, and the
snapshots are those of ever longer parts of the stored log, up to all that has been received. They
stay when more is received. A board is shown once the game and a log with more than one snapshot
have been received, unless the step is before the first, and it never is exactly if no key moves on
a page without snapshots. A page that is left playing shows the snapshots in turn up to the last. -/
theorem replay_page_follows_game (hn : 0 < n) (hk : 0 < roster.length)
    (hscores : ∀ p ∈ roster, p.score = 0) {now : Time} {tempID : Option ℤ}
    (hnew : Game.newGame now tempID n roster = some g) {run rest : List (ReplayAct × Viewing)}
    (hrun : Along (Step db gameID) (fresh db gameID g) (run ++ rest))
    (hturn : Along (fun w act _ => w.InTurn act) (fresh db gameID g) (run ++ rest)) :
    let w := last (fresh db gameID g) run
    (∀ answer, w.answer = some answer → ∃ page, w.page.receive answer = some page) ∧
    (∃ log, db.loadEvents gameID w.rows = .ok log ∧
      ∀ seen, w.page.events = some seen →
        seen <+: log ∧ Portrays log seen w.page.replayStates) ∧
    w.page.replayStates.map ReplayState.display <+:
      (last w rest).page.replayStates.map ReplayState.display ∧
    (w.page.shown.isSome ↔ w.page.gameState.isSome ∧ w.page.events.isSome ∧
      1 < w.page.totalSteps ∧ 0 ≤ w.page.currentStep) ∧
    ((∀ t ∈ visited (fresh db gameID g) run, 0 ≤ t.page.currentStep) ↔
      Along (fun t act _ => ReplayPage.Forward act → t.page.replayStates ≠ [])
        (fresh db gameID g) run) ∧
    (w.page.isPlaying = true → 0 < w.page.totalSteps → ∀ m : ℕ,
      (ReplayPage.tick^[m] w.page).currentStep =
          min (w.page.currentStep + m) (w.page.totalSteps - 1) ∧
        ((ReplayPage.tick^[m] w.page).isPlaying = true ↔
          w.page.currentStep + m ≤ w.page.totalSteps - 1)) := by
  intro w
  have hsound := sound_fresh hn hk hnew db gameID
  obtain ⟨hbefore, hafter⟩ := along_append.mp (hrun.and hturn)
  have hw : w.Sound db gameID n roster :=
    hbefore.inv_last hsound fun _ _ _ hs hstep => hs.step hscores hstep.1 hstep.2
  obtain ⟨⟨log, hkept⟩, hrange⟩ := hw
  refine ⟨fun answer hanswer => hkept.receive hanswer, ⟨log, hkept.loaded, fun seen hseen => ?_⟩,
    ?_, hrange.shown_iff, ?_, fun hplaying htotal m => ?_⟩
  · obtain ⟨hbuilt, hfollow, hcont, -⟩ := hkept.received seen hseen
    obtain ⟨states, hbuilt', hportrays⟩ := hfollow.built
    obtain rfl := Option.some.inj (hbuilt.symm.trans hbuilt')
    exact ⟨hcont.isPrefix, hportrays.of_isPrefix hcont.isPrefix⟩
  · have hlater : Later db gameID n roster w.page (last w rest) :=
      hafter.inv_last ⟨⟨⟨log, hkept⟩, hrange⟩, List.prefix_refl _⟩
        fun s act t hs hstep => hs.step hscores hstep.1 hstep.2
    exact hlater.more
  · refine visited_good_iff (Q := fun t => 0 ≤ t.page.currentStep)
      (fun t => t.Sound db gameID n roster ∧ 0 ≤ t.page.currentStep) hbefore le_rfl
      ⟨hsound, le_rfl⟩ ?_ ?_
    · rintro s act t ⟨⟨⟨log, hkept⟩, hrange⟩, hnonneg⟩ ⟨hstep, hturn⟩
      exact (hkept.inRange hrange hscores hstep hturn).2 hnonneg
    · rintro s act t ⟨hs, hnonneg⟩ ⟨hstep, hturn⟩ hmeets
      obtain ⟨⟨log, hkept⟩, hrange⟩ := id hs
      exact ⟨hs.step hscores hstep hturn,
        ((hkept.inRange hrange hscores hstep hturn).2 hnonneg).mpr hmeets⟩
  · have hone : 1 ≤ w.page.totalSteps := htotal
    have hupper := hrange.upper
    rw [max_eq_right hone] at hupper
    obtain ⟨hstep, hplay, -⟩ := ReplayPage.iterate_tick hplaying (Int.le_sub_one_of_lt hupper) m
    exact ⟨hstep, hplay⟩

theorem Sound.exists_received (h : w.Sound db gameID n roster)
    (hscores : ∀ p ∈ roster, p.score = 0) : ∃ w₁ w₂, Step db gameID w .answer w₁ ∧
      Step db gameID w₁ .receive w₂ ∧ w₂.unappended = w.unappended ∧ w₂.rows = w.rows ∧
      w₂.Sound db gameID n roster := by
  obtain ⟨log, hkept⟩ := h.1
  have hanswer : Step db gameID w .answer { w with answer := some log } := .answer hkept.loaded
  have hsound := h.step hscores hanswer nofun
  obtain ⟨log', hkept'⟩ := hsound.1
  obtain ⟨page, hpage⟩ := hkept'.receive rfl
  exact ⟨_, _, hanswer, .receive rfl hpage, rfl, rfl, hsound.step hscores (.receive rfl hpage) nofun⟩

/-- A command that has loaded the game can append to it when no other is under way. -/
theorem Sound.exists_command (h : w.Sound db gameID n roster)
    (hscores : ∀ p ∈ roster, p.score = 0) (hnone : w.unappended = []) (c : Command) :
    ∃ w₁ w₂, Step db gameID w (.load c) w₁ ∧ Step db gameID w₁ (.append 0) w₂ ∧
      w₁.InTurn (.append 0) ∧ w₂.unappended = [] ∧ w₂.Sound db gameID n roster := by
  obtain ⟨⟨log, hkept⟩, -⟩ := id h
  obtain ⟨g, pos, ha⟩ := hkept.archived
  obtain ⟨es, g₀, hload, hfold, hr⟩ := ha.stored.loadEvents db
  obtain ⟨g', reply, -, -, -, hexec, -, -⟩ := (ha.toTracks.sameView hr.sameView).execute c
  have hraised : raisedBy db gameID c w.rows = some g'.uncommittedEvents := by
    simp [raisedBy, hload, hfold, hexec]
  set change : Unappended := ⟨w.rows, g'.uncommittedEvents⟩
  have hone : w.unappended ++ [change] = [change] := by rw [hnone, List.nil_append]
  have hloaded : Step db gameID w (.load c) { w with unappended := [change] } :=
    hone ▸ Step.load hraised
  have hturn : Viewing.InTurn { w with unappended := [change] } (.append 0) := by
    rintro _ other ⟨⟩ hother -
    obtain rfl := Option.some.inj hother
    rfl
  have happended : Step db gameID { w with unappended := [change] } (.append 0) _ := .append rfl
  exact ⟨_, _, hloaded, happended, hturn, rfl,
    (h.step hscores hloaded nofun).step hscores happended hturn⟩

theorem replay_page_follows_game_duel : ∃ w₁ w₂ w₃ w₄ w₅ w₆ w₇,
    Along (Step .byInsertion 9) (fresh .byInsertion 9 duelStart)
      [(.answer, w₁), (.receive, w₂), (.load (.applyMove 1 ⟨0, 0, 0, .bottom⟩), w₃),
        (.append 0, w₄), (.answer, w₅), (.receive, w₆), (.fetchGame, w₇)] ∧
    w₂.page.replayStates.map ReplayState.display <+:
      w₇.page.replayStates.map ReplayState.display ∧
    ∃ log, Database.byInsertion.loadEvents 9 w₂.rows = .ok log ∧
      ∀ seen, w₂.page.events = some seen →
        seen <+: log ∧ Portrays log seen w₂.page.replayStates := by
  have hnew : Game.newGame 0 (some 1) (2 : ℕ) duel = some duelStart := by decide
  have hsound := sound_fresh (by decide) (by decide) hnew .byInsertion 9
  obtain ⟨w₁, w₂, h₁, h₂, hnone, -, hsound₂⟩ := hsound.exists_received (by decide)
  obtain ⟨w₃, w₄, h₃, h₄, hturn, -, hsound₄⟩ :=
    hsound₂.exists_command (by decide) hnone (.applyMove 1 ⟨0, 0, 0, .bottom⟩)
  obtain ⟨w₅, w₆, h₅, h₆, -, -, hsound₆⟩ := hsound₄.exists_received (by decide)
  obtain ⟨w₇, h₇⟩ : ∃ w₇, Step .byInsertion 9 w₆ .fetchGame w₇ := by
    obtain ⟨⟨log, hkept⟩, -⟩ := hsound₆
    obtain ⟨g, pos, ha⟩ := hkept.archived
    have hsize : g.boardSize ≠ 0 := by
      rw [ha.boardSize]
      decide
    obtain ⟨g₀, hfind, -⟩ := ha.stored.exists_findByID hsize .byInsertion
    exact ⟨_, .fetchGame hfind⟩
  have hrun : Along (Step .byInsertion 9) (fresh .byInsertion 9 duelStart)
      ([(.answer, w₁), (.receive, w₂)] ++ [(.load (.applyMove 1 ⟨0, 0, 0, .bottom⟩), w₃),
        (.append 0, w₄), (.answer, w₅), (.receive, w₆), (.fetchGame, w₇)]) :=
    ⟨h₁, h₂, h₃, h₄, h₅, h₆, h₇, trivial⟩
  have hturns : Along (fun w act _ => w.InTurn act) (fresh .byInsertion 9 duelStart)
      ([(.answer, w₁), (.receive, w₂)] ++ [(.load (.applyMove 1 ⟨0, 0, 0, .bottom⟩), w₃),
        (.append 0, w₄), (.answer, w₅), (.receive, w₆), (.fetchGame, w₇)]) :=
    ⟨nofun, nofun, nofun, hturn, nofun, nofun, nofun, trivial⟩
  obtain ⟨-, hlog, hmore, -⟩ :=
    replay_page_follows_game (by decide) (by decide) (by decide) hnew hrun hturns
  exact ⟨w₁, w₂, w₃, w₄, w₅, w₆, w₇, hrun, hmore, hlog⟩

end Viewing

end Stored

end DotsAndBoxes.Web
