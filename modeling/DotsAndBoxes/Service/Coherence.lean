import DotsAndBoxes.Service.BotLoops

/-! # Coherent worlds

Whatever the calls do and however they interleave, the game can be loaded, and a call in
flight holds a game that it loaded from rows of the past, or what it made of such a game.
-/

namespace DotsAndBoxes

open Slices Enclosure Runs Game

variable {n : ℕ} {roster : List Player} {g g' : Game} {now : Time} {db : Database} {gameID : ℤ}
  {rows : List EventRow} {task : Task} {todo : List Effect}

/-- The game of the roster is stored: by intact rows, or live in memory. -/
inductive Store.Keeps (gameID : ℤ) (roster : List Player) (n : ℕ) : Store → Prop where
  | persisted {rows : List EventRow} {projection : Projection} :
      Intact gameID roster n rows → Keeps gameID roster n (.persisted rows projection)
  | bot {g : Game} : BotGame roster n g → Keeps gameID roster n (.bot g)

def Store.ended : Store → Bool
  | .persisted rows _ => rows.any EventRow.terminal
  | .bot g => g.hasEnded

def World.game (db : Database) (gameID : ℤ) (w : World) : Option Game :=
  match w.store with
  | .bot g => some g
  | .persisted rows _ =>
    match db.findByID gameID rows with
    | some (.ok g) => g
    | _ => none

structure Fetched (db : Database) (gameID : ℤ) (roster : List Player) (n : ℕ)
    (base : List EventRow) (g : Game) : Prop extends Loaded roster n base g where
  intact : Intact gameID roster n base
  found : db.findByID gameID base = some (.ok (some g))

theorem Intact.fetched (h : Intact gameID roster n rows) (hk : 0 < roster.length)
    (db : Database) : ∃ g, Fetched db gameID roster n rows g := by
  obtain ⟨g, hfound, hloaded⟩ := h.findByID hk db
  exact ⟨g, hloaded, h, hfound⟩

theorem Intact.fetched_of_findByID (h : Intact gameID roster n rows) (hk : 0 < roster.length)
    (hfound : db.findByID gameID rows = some (.ok (some g))) :
    Fetched db gameID roster n rows g := by
  obtain ⟨g₁, hfound₁, hloaded⟩ := h.findByID hk db
  obtain rfl : g₁ = g := by simpa using hfound₁.symm.trans hfound
  exact ⟨hloaded, h, hfound⟩

/-- What a call has made of a game that it loaded from the rows. -/
def Prepared (db : Database) (gameID : ℤ) (roster : List Player) (n : ℕ) (task : Task)
    (base : List EventRow) (g' : Game) (todo : List Effect) : Prop :=
  ∃ now g, Fetched db gameID roster n base g ∧ task.Succeeds false now g g' todo

/-- A call has recorded the payload that stands for it, on a game that went on. -/
theorem Prepared.recording {base : List EventRow}
    (h : Prepared db gameID roster n task base g' todo) :
    ∃ g first, Fetched db gameID roster n base g ∧ g.hasEnded = false ∧
      Task.Succeeds.First g task first ∧
      Recording roster n first g g' g'.uncommittedEvents ∧
      (.stopTimer ∈ todo ↔ g'.hasEnded = true) := by
  obtain ⟨now, g, hg, hsucceeds⟩ := h
  obtain ⟨first, hfirst, hchanges, hstops⟩ := hsucceeds.changes hg.shaped
  obtain ⟨new, hrecording⟩ := hchanges.recording
  obtain rfl : g'.uncommittedEvents = new := by rw [hrecording.events, hg.clean, List.nil_append]
  exact ⟨g, first, hg, hchanges.running, hfirst, hrecording, hstops⟩

/-- Appending what a call has prepared, to rows of any later time, leaves them intact. -/
theorem Intact.appendPrepared {base : List EventRow} (h : Intact gameID roster n rows)
    (hp : Prepared db gameID roster n task base g' todo) :
    Intact gameID roster n (db.appendEvents rows g'.uncommittedEvents) ∧
      (db.appendEvents rows g'.uncommittedEvents).any EventRow.terminal =
        (rows.any EventRow.terminal || g'.hasEnded) := by
  obtain ⟨g, first, hg, -, -, hrecording, -⟩ := hp.recording
  have hpos := hg.intact.pos
  have hversion := hg.version
  constructor
  · apply h.append
    intro e he
    obtain ⟨htype, hfits, hlater⟩ := hrecording.typed e he
    exact ⟨htype, hfits, by omega⟩
  · rw [any_terminal_appendEvents fun e he => (hrecording.typed e he).1, hrecording.ended]

/-- A call in flight holds what it has loaded, or what it has made of it. Only bot loops sleep. -/
def Stage.Consistent (db : Database) (gameID : ℤ) (roster : List Player) (n : ℕ) (task : Task) :
    Stage → Prop
  | .loaded base g => Fetched db gameID roster n base g
  | .changed base g todo => Prepared db gameID roster n task base g todo
  | .checking => task = .playBotTurn
  | .asleep => task = .playBotTurn
  | .moved _ => task = .playBotTurn
  | _ => True

theorem consistent_loopCheck (h : task = .playBotTurn) :
    g.loopCheck.Consistent db gameID roster n task := by
  unfold Game.loopCheck Game.loopEnd
  split
  · trivial
  · split
    · trivial
    · split
      · trivial
      · exact h

theorem consistent_wokenStage (h : task = .playBotTurn) (woken : Woken) :
    (woken.stage g).Consistent db gameID roster n task := by
  cases woken with
  | noMove g' => exact h
  | moved move g' result => exact h
  | _ => trivial

structure World.Coherent (db : Database) (gameID : ℤ) (roster : List Player) (n : ℕ)
    (w : World) : Prop where
  keeps : w.store.Keeps gameID roster n
  calls : ∀ i task stage, w.calls i = some ⟨task, stage⟩ →
    stage.Consistent db gameID roster n task

namespace World

variable {w w' : World} {act : Act} {i : ℕ} {stage : Stage}

theorem Coherent.congr (h : w.Coherent db gameID roster n) (hstore : w'.store = w.store)
    (hcalls : w'.calls = w.calls) : w'.Coherent db gameID roster n :=
  ⟨hstore ▸ h.keeps, hcalls ▸ h.calls⟩

theorem Coherent.intact (h : w.Coherent db gameID roster n) {projection : Projection}
    (hstore : w.store = .persisted rows projection) : Intact gameID roster n rows := by
  have hkeeps := h.keeps
  rw [hstore] at hkeeps
  cases hkeeps with
  | persisted hintact => exact hintact

theorem Coherent.botGame (h : w.Coherent db gameID roster n) (hstore : w.store = .bot g) :
    BotGame roster n g := by
  have hkeeps := h.keeps
  rw [hstore] at hkeeps
  cases hkeeps with
  | bot hg => exact hg

theorem Coherent.set (h : w.Coherent db gameID roster n)
    (hstage : stage.Consistent db gameID roster n task) :
    (w.set i task stage).Coherent db gameID roster n := by
  constructor
  · exact h.keeps
  · intro j task' stage' hj
    by_cases hji : j = i
    · subst hji
      rw [set_calls_self] at hj
      cases hj
      exact hstage
    · rw [set_calls_of_ne hji] at hj
      exact h.calls j task' stage' hj

theorem Coherent.restore (h : w.Coherent db gameID roster n) {store : Store}
    (hstore : store.Keeps gameID roster n) :
    Coherent db gameID roster n { w with store } :=
  ⟨hstore, h.calls⟩

theorem Coherent.perform (h : w.Coherent db gameID roster n) (e : Effect) :
    (w.perform db gameID e).Coherent db gameID roster n := by
  constructor
  · have hkeeps := h.keeps
    cases e <;> simp only [World.perform] <;> try exact hkeeps
    case updateProjection g =>
      cases hstore : w.store with
      | persisted rows projection => exact .persisted (h.intact hstore)
      | bot g => exact hkeeps
    case publishIfOver =>
      cases hstore : w.store with
      | persisted rows projection => exact hkeeps
      | bot g => by_cases hended : g.hasEnded = true <;> simpa [hended, hstore] using hkeeps
  · intro i task stage hcall
    rw [perform_calls] at hcall
    exact h.calls i task stage hcall

theorem Coherent.step (h : w.Coherent db gameID roster n) (hk : 0 < roster.length)
    (hseat : Seated roster) (hstep : Step db gameID w act w') :
    w'.Coherent db gameID roster n := by
  cases hstep with
  | elapse => exact h.congr rfl rfl
  | disconnect => exact h.congr rfl rfl
  | reconnect => exact h.congr rfl rfl
  | receive => exact h.set trivial
  | tick => exact h.set trivial
  | @graceOver i timer userID =>
    have hw : Coherent db gameID roster n { w with timer := some (timer.graceOver userID) } :=
      h.congr rfl rfl
    exact hw.set trivial
  | @advance i task stage stage' hcall hadvance =>
    cases hadvance with
    | malformed => exact h.set trivial
    | load _ hstore hfound => exact h.set ((h.intact hstore).fetched_of_findByID hk hfound)
    | unreadable => exact h.set trivial
    | refuse => exact h.set trivial
    | @apply base g g' todo hchange =>
      exact h.set ⟨w.now, g, h.calls i task _ hcall, Task.change_eq_ok hchange⟩
    | excluded => exact h.set trivial
    | notKicked => exact h.set trivial
    | check => exact h.set (consistent_loopCheck (h.calls i task _ hcall))
  | fail _ hfails =>
    cases hfails with
    | load => exact h.set trivial
    | append => exact h.set trivial
    | updateProjection => exact h.set trivial
  | @append i task base rows projection g todo hcall hstore =>
    obtain ⟨hintact, -⟩ := (h.intact hstore).appendPrepared (h.calls i task _ hcall)
    exact (h.restore (.persisted hintact)).set trivial
  | @exclusive i task g g' todo hcall _ hstore hchange =>
    obtain ⟨c, reply, hc⟩ := (Task.change_eq_ok hchange).execute
    exact (h.restore (.bot ((h.botGame hstore).execute hc))).set trivial
  | effect => exact (h.perform _).set trivial
  | @kick i j =>
    have hw : (w.set j .playBotTurn .checking).Coherent db gameID roster n := h.set rfl
    exact hw.set trivial
  | @wake i task g chance woken hcall hstore hwake =>
    have hg := h.botGame hstore
    exact (h.restore (.bot (hg.round (hg.botRound hseat hwake)))).set
      (consistent_wokenStage (h.calls i task _ hcall) woken)
  | @publish i task g ended hcall hstore =>
    have hw : Coherent db gameID roster n { w with bus := w.bus ++ [.state g] } := h.congr rfl rfl
    have htask : task = .playBotTurn := h.calls i task _ hcall
    apply hw.set
    cases ended with
    | true => trivial
    | false => exact htask

theorem Coherent.run (h : w.Coherent db gameID roster n) (hk : 0 < roster.length)
    (hseat : Seated roster) {run : List (Act × World)} (hrun : Along (Step db gameID) w run) :
    (last w run).Coherent db gameID roster n :=
  hrun.inv_last h fun _ _ _ hw hstep => hw.step hk hseat hstep

theorem Coherent.game (h : w.Coherent db gameID roster n) (hk : 0 < roster.length) :
    ∃ g, w.game db gameID = some g ∧ Shaped roster n g ∧ g.hasEnded = w.store.ended := by
  unfold World.game
  cases hstore : w.store with
  | bot g => exact ⟨g, rfl, (h.botGame hstore).shaped, rfl⟩
  | persisted rows projection =>
    obtain ⟨g, hfetched⟩ := (h.intact hstore).fetched hk db
    exact ⟨g, by simp [hfetched.found], hfetched.shaped, hfetched.ended⟩

end World

theorem intact_create (db : Database) {tempID : Option ℤ}
    (hnew : newGame now tempID n roster = some g) (hrows : db.create gameID g = .ok (g', rows)) :
    Intact gameID roster n rows := by
  rw [newGame_eq] at hnew
  obtain ⟨grid, -, rfl⟩ := Option.map_eq_some_iff.mp hnew
  obtain ⟨-, -, rfl⟩ := Database.create_eq_ok hrows
  set created : DomainEvent := ⟨.gameCreated, now, "", 1, .gameCreated ⟨gameID, n, roster⟩⟩
  have hholds : (db.row created).Holds created.payload := EventRow.holds_row rfl
  exact ⟨db.row created, [], rfl, rfl, hholds, by simp⟩

/-- A game is created by seating its roster. A persisted one is loaded from the rows of its
creation. -/
structure World.Begins (db : Database) (gameID : ℤ) (roster : List Player) (n : ℕ) (g : Game)
    (w : World) : Prop where
  coherent : w.Coherent db gameID roster n
  size : 0 < n
  count : 2 ≤ roster.length
  seated : Seated roster
  new : ∃ now tempID, newGame now tempID n roster = some g
  timer : w.timer = none
  kind : (w.store = .bot g ∧ w.calls = World.creating
      [.publishState g, .startTimer g, .kickBot true]) ∨
    ∃ g' rows, db.create gameID g = .ok (g', rows) ∧ w.store = .persisted rows (.create g') ∧
      w.calls = World.creating [.publishCreated g', .startTimer g']

theorem World.Created.begins {w : World} (h : World.Created db gameID w) :
    ∃ n roster g, w.Begins db gameID roster n g := by
  have hcalls (roster : List Player) (n i : ℕ) (task : Task) (stage : Stage)
      (hcall : w.calls i = some ⟨task, stage⟩) : stage.Consistent db gameID roster n task := by
    obtain ⟨todo, hcalls⟩ := h.calls
    rw [hcalls] at hcall
    obtain ⟨rfl, rfl, rfl⟩ := World.eq_of_creating hcall
    trivial
  cases h with
  | @persisted s s' now shuffle usernames playerIDs boardSize g hcreate hid =>
    obtain ⟨n, roster, g₀, rows, hn, hk, hseat, hnew, hrows, rfl⟩ := createGame_seats hcreate
    obtain rfl := Option.some.inj ((Server.create_gameID hrows).symm.trans hid)
    refine ⟨n, roster, g₀, ⟨.persisted ?_, hcalls _ n⟩, hn, hk, hseat, ⟨now, _, hnew⟩, rfl,
      .inr ⟨g, rows, hrows, by simp, rfl⟩⟩
    simpa using intact_create db hnew hrows
  | @bot s s' now shuffle usernames playerIDs numBots boardSize g hcreate hid =>
    obtain ⟨n, roster, hn, hk, hseat, hnew, -⟩ := createBotGame_seats hcreate
    have hg : BotGame roster n g := botGame_newGame hn (by omega) hnew
    exact ⟨n, roster, g, ⟨.bot hg, hcalls _ n⟩, hn, hk, hseat, ⟨now, _, hnew⟩, rfl,
      .inl ⟨rfl, rfl⟩⟩

theorem World.Created.coherent {w : World} (h : World.Created db gameID w) :
    ∃ (n : ℕ) (roster : List Player), 0 < n ∧ 2 ≤ roster.length ∧ Seated roster ∧
      w.Coherent db gameID roster n := by
  obtain ⟨n, roster, g, hw⟩ := h.begins
  exact ⟨n, roster, hw.size, hw.count, hw.seated, hw.coherent⟩

theorem World.Created.running {w : World} (h : World.Created db gameID w) :
    w.store.ended = false := by
  obtain ⟨n, roster, g, hw⟩ := h.begins
  obtain ⟨now, tempID, hnew⟩ := hw.new
  rw [newGame_eq] at hnew
  obtain ⟨grid, -, rfl⟩ := Option.map_eq_some_iff.mp hnew
  rcases hw.kind with ⟨hstore, -⟩ | ⟨g', rows, hrows, hstore, -⟩
  · rw [hstore]
    rfl
  · obtain ⟨-, rfl, rfl⟩ := Database.create_eq_ok hrows
    rw [hstore]
    rfl

end DotsAndBoxes
