import DotsAndBoxes.Service.Callers

/-! # Passes of the timer

The timer finds the deadline of a seat expired, and then asks for a pass. The pass takes the
turn from whoever has it when it reads the game. It is the seat that ran out of time if the
timer knew whose turn it was, and nobody else has changed the turn in between.
-/

namespace DotsAndBoxes

open Slices Enclosure Runs Game

variable {n : ℕ} {roster : List Player} {g g' : Game} {now : Time} {db : Database} {gameID : ℤ}
  {task : Task} {todo : List Effect}

def Stage.early : Stage → Bool
  | .started => true
  | .loaded _ _ => true
  | .changed _ _ _ => true
  | _ => false

def Stage.base : Stage → Option (List EventRow)
  | .loaded base _ => some base
  | .changed base _ _ => some base
  | _ => none

namespace World

variable {w w' : World} {act : Act} {i j : ℕ} {seat : ℤ}

def turn (db : Database) (gameID : ℤ) (w : World) : Option ℤ :=
  (w.game db gameID).map (·.currentTurn)

def Waiting (i : ℕ) (seat : ℤ) (w : World) : Prop :=
  ∃ stage, w.calls i = some ⟨.passTurn seat, stage⟩ ∧ stage.early = true

def Renews (seat : ℤ) (w : World) : Effect → Prop
  | .switchTurn newTurn => newTurn = seat ∧ ∃ timer, w.timer = some timer ∧ timer.activeTurn ≠ seat
  | .startTimer g => (w.shown g).currentTurn = seat ∧ w.timer = none
  | _ => False

/-- The timer gives the seat no time. -/
def OutOfTime (seat : ℤ) (now : Time) (timer : Option GameTimer) : Prop :=
  ∀ t, timer = some t → t.activeTurn = seat → t.turnEndsAt < now

/-- A step that lets a pass take the turn from a seat that has not run out of time. -/
inductive PassFault (db : Database) (gameID : ℤ) (w : World) : Act → World → Prop where
  /-- The timer finds the deadline of a seat expired whose turn it is not. -/
  | stale {i : ℕ} {timer : GameTimer} {w' : World} : w.timer = some timer →
      w.turn db gameID ≠ some timer.activeTurn → PassFault db gameID w (.tick i) w'
  /-- While a pass is under way, something else changes the turn. -/
  | overtaken {j : ℕ} {seat : ℤ} {act : Act} {w' : World} : w.Waiting j seat →
      act.call ≠ some j → w'.turn db gameID ≠ w.turn db gameID → PassFault db gameID w act w'
  /-- While a pass is under way, its seat gets a new deadline. -/
  | renewed {i j : ℕ} {seat : ℤ} {task : Task} {answer : Answer} {e : Effect}
      {rest : List Effect} {w' : World} : w.Waiting j seat →
      w.calls i = some ⟨task, .finishing answer (e :: rest)⟩ → w.Renews seat e →
      PassFault db gameID w (.effect i) w'

/-- A pass of the timer that takes effect takes the turn from the seat whose deadline was found
expired, and passes it on. That seat has got no later deadline since. -/
def PassesExpired (db : Database) (gameID : ℤ) (w : World) (act : Act) (w' : World) : Prop :=
  ∀ i seat stage, act = .append i ∨ act = .exclusive i →
    w.calls i = some ⟨.passTurn seat, stage⟩ →
    (∃ g next rest, w.game db gameID = some g ∧ g.currentTurn = seat ∧ g.nextTurn = some next ∧
      w'.log = w.log ++ .turnPassed ⟨next⟩ :: rest) ∧
    OutOfTime seat w.now w.timer

/-- The seat has run out of time, and it is still its turn. -/
structure RanOut (db : Database) (gameID : ℤ) (seat : ℤ) (w : World) : Prop where
  turn : w.turn db gameID = some seat
  expired : OutOfTime seat w.now w.timer

/-- A pass under way is for a seat that has run out of time, and is the only one. -/
structure Timely (db : Database) (gameID : ℤ) (roster : List Player) (n : ℕ) (w : World) : Prop
    extends w.Coherent db gameID roster n where
  alone : ∀ i j seat seat', w.Waiting i seat → w.Waiting j seat' → i = j
  ranOut : ∀ i seat, w.Waiting i seat → w.RanOut db gameID seat
  loaded : ∀ i seat stage base g, w.calls i = some ⟨.passTurn seat, stage⟩ →
    stage.base = some base → Fetched db gameID roster n base g → g.currentTurn = seat

theorem early_loopCheck (g : Game) : g.loopCheck.early = false := by
  unfold Game.loopCheck Game.loopEnd
  split
  · rfl
  · split
    · rfl
    · split <;> rfl

/-- A call that is under way after its step has loaded a game, or changed the one it has loaded.
Nothing else has changed. -/
theorem Step.early (h : Step db gameID w act w') (hact : act.call = some i) {before after : Stage}
    (hbefore : w.calls i = some ⟨task, before⟩) (hafter : w'.calls i = some ⟨task, after⟩)
    (hearly : after.early = true) : w' = w.set i task after ∧
      ((∃ rows projection g, before = .started ∧ w.store = .persisted rows projection ∧
          after = .loaded rows g) ∨
        ∃ base g g' todo, before = .loaded base g ∧ after = .changed base g' todo) := by
  cases h with
  | elapse => cases hact
  | disconnect => cases hact
  | reconnect => cases hact
  | receive => cases hact
  | tick => cases hact
  | graceOver => cases hact
  | advance hcall hadvance =>
    cases hact
    cases hbefore.symm.trans hcall
    cases hafter.symm.trans set_calls_self
    refine ⟨rfl, ?_⟩
    cases hadvance with
    | malformed => cases hearly
    | load _ hstore => exact .inl ⟨_, _, _, rfl, hstore, rfl⟩
    | unreadable => cases hearly
    | refuse => cases hearly
    | apply => exact .inr ⟨_, _, _, _, rfl, rfl⟩
    | excluded => cases hearly
    | notKicked => cases hearly
    | check =>
      rw [early_loopCheck] at hearly
      cases hearly
  | fail hcall hfails =>
    cases hact
    cases hafter.symm.trans set_calls_self
    cases hfails <;> cases hearly
  | append =>
    cases hact
    cases hafter.symm.trans set_calls_self
    cases hearly
  | exclusive =>
    cases hact
    cases hafter.symm.trans set_calls_self
    cases hearly
  | effect =>
    cases hact
    cases hafter.symm.trans set_calls_self
    cases hearly
  | kick =>
    cases hact
    cases hafter.symm.trans set_calls_self
    cases hearly
  | @wake _ _ _ _ woken =>
    cases hact
    cases hafter.symm.trans set_calls_self
    cases woken <;> cases hearly
  | @publish _ _ _ ended =>
    cases hact
    cases hafter.symm.trans set_calls_self
    cases ended <;> cases hearly

/-- The rows that a call holds have been loaded before, or are what was stored just now. -/
theorem Step.base (h : Step db gameID w act w') {stage : Stage} {base : List EventRow}
    (hcall : w'.calls i = some ⟨task, stage⟩) (hbase : stage.base = some base) :
    (∃ stage₀, w.calls i = some ⟨task, stage₀⟩ ∧ stage₀.base = some base) ∨
      w.calls i = some ⟨task, .started⟩ ∧ ∃ projection, w.store = .persisted base projection := by
  by_cases hact : act.call = some i
  · obtain ⟨task, before, after, hbefore, hafter⟩ := h.task hact
    cases hcall.symm.trans hafter
    have hearly : stage.early = true := by
      cases stage <;> first | rfl | cases hbase
    obtain ⟨-, hstages⟩ := h.early hact hbefore hafter hearly
    rcases hstages with ⟨rows, projection, _, rfl, hstore, rfl⟩ | ⟨_, _, _, _, rfl, rfl⟩
    · cases hbase
      exact .inr ⟨hbefore, projection, hstore⟩
    · exact .inl ⟨_, hbefore, hbase⟩
  · rcases h.calls hact with heq | ⟨-, job, hstarts, heq⟩
    · exact .inl ⟨stage, heq ▸ hcall, hbase⟩
    · cases hcall.symm.trans heq
      cases hstarts <;> cases hbase

/-- A pass under way has come in from the timer, or has been under way before. -/
theorem Step.waiting (h : Step db gameID w act w') (hi : w'.Waiting i seat) :
    (w.Waiting i seat ∧ (act.call = some i → ∃ task stage, w' = w.set i task stage)) ∨
      act = .tick i ∧ ¬ w.Passing ∧ ∃ timer, w.timer = some timer ∧ timer.activeTurn = seat ∧
        timer.turnEndsAt < w.now ∧ w' = w.set i (.passTurn seat) .started := by
  obtain ⟨stage, hcall, hearly⟩ := hi
  by_cases hact : act.call = some i
  · obtain ⟨task, before, after, hbefore, hafter⟩ := h.task hact
    cases hcall.symm.trans hafter
    obtain ⟨hw', hstages⟩ := h.early hact hbefore hafter hearly
    refine .inl ⟨⟨before, hbefore, ?_⟩, fun _ => ⟨_, _, hw'⟩⟩
    rcases hstages with ⟨_, _, _, rfl, -, -⟩ | ⟨_, _, _, _, rfl, -⟩ <;> rfl
  · rcases h.calls hact with heq | ⟨-, job, hstarts, heq⟩
    · exact .inl ⟨⟨stage, heq ▸ hcall, hearly⟩, fun hcontra => absurd hcontra hact⟩
    · cases hcall.symm.trans heq
      cases hstarts with
      | receive hclient => cases hclient
      | tick htimer hends hpassing =>
        refine .inr ⟨rfl, hpassing, _, htimer, rfl, hends, ?_⟩
        cases h with
        | tick _ htimer' =>
          cases htimer.symm.trans htimer'
          rfl

/-- Changes of a timer that keep its turn and its deadline leave a seat out of time. -/
theorem OutOfTime.map (h : OutOfTime seat w.now w.timer) {change : GameTimer → GameTimer}
    (hturn : ∀ timer, (change timer).activeTurn = timer.activeTurn)
    (hends : ∀ timer, (change timer).turnEndsAt = timer.turnEndsAt) :
    OutOfTime seat w.now (w.timer.map change) := by
  intro timer htimer hseat
  obtain ⟨timer₀, htimer₀, rfl⟩ := Option.map_eq_some_iff.mp htimer
  rw [hends]
  exact h timer₀ htimer₀ ((hturn timer₀).symm.trans hseat)

theorem OutOfTime.switchTurn (h : OutOfTime seat w.now w.timer) {newTurn : ℤ}
    (hrenews : ¬ w.Renews seat (.switchTurn newTurn)) :
    OutOfTime seat w.now (w.timer.map (·.switchTurn w.now newTurn)) := by
  intro timer htimer hseat
  obtain ⟨timer₀, htimer₀, rfl⟩ := Option.map_eq_some_iff.mp htimer
  unfold GameTimer.switchTurn at hseat ⊢
  split at hseat
  case isTrue hkeep =>
    rw [if_pos hkeep]
    exact h timer₀ htimer₀ hseat
  case isFalse hswitch =>
    refine absurd ⟨hseat, timer₀, htimer₀, fun hactive => hswitch (.inr ?_)⟩ hrenews
    exact hactive.trans hseat.symm

theorem OutOfTime.startTimer (h : OutOfTime seat w.now w.timer)
    (hrenews : ¬ w.Renews seat (.startTimer g)) : OutOfTime seat w.now (some (w.timer.getD
      (.start w.now gameID (w.shown g).players (w.shown g).currentTurn))) := by
  intro timer htimer hseat
  cases htimer
  cases htimer₀ : w.timer with
  | none =>
    rw [htimer₀] at hseat
    exact absurd ⟨hseat, htimer₀⟩ hrenews
  | some timer₀ =>
    rw [htimer₀] at hseat
    exact h timer₀ htimer₀ hseat

theorem OutOfTime.perform (h : OutOfTime seat w.now w.timer) {e : Effect}
    (hrenews : ¬ w.Renews seat e) :
    OutOfTime seat w.now (w.perform db gameID e).timer := by
  cases e with
  | updateProjection g =>
    simp only [World.perform]
    split <;> exact h
  | switchTurn newTurn => exact h.switchTurn hrenews
  | stopTimer => exact fun timer htimer => by cases htimer
  | stopAfterGrace => exact fun timer htimer => by cases htimer
  | startTimer g => exact h.startTimer hrenews
  | publishCreated g => exact h
  | publishState g => exact h
  | publishCompleted g => exact h
  | publishIfOver =>
    simp only [World.perform]
    split
    · split <;> exact h
    · exact h
  | kickBot atStart => exact h

theorem Step.outOfTime (h : Step db gameID w act w') (hout : OutOfTime seat w.now w.timer)
    (hrenews : ∀ i task answer e rest, act = .effect i →
      w.calls i = some ⟨task, .finishing answer (e :: rest)⟩ → ¬ w.Renews seat e) :
    OutOfTime seat w'.now w'.timer := by
  cases h with
  | @elapse d hd =>
    intro timer htimer hseat
    exact (hout timer htimer hseat).trans_le (le_add_of_nonneg_right hd)
  | disconnect => exact hout.map (by simp) (by simp)
  | reconnect => exact hout.map (by simp) (by simp)
  | receive => exact hout
  | tick => exact hout
  | @graceOver i timer userID _ htimer =>
    intro timer' htimer' hseat
    cases htimer'
    exact hout timer htimer hseat
  | advance => exact hout
  | fail => exact hout
  | append => exact hout
  | exclusive => exact hout
  | effect hcall =>
    rw [set_now, set_timer, perform_now]
    exact hout.perform (hrenews _ _ _ _ _ rfl hcall)
  | kick => exact hout
  | wake => exact hout
  | publish => exact hout

theorem Waiting.passing (h : w.Waiting i seat) : w.Passing := by
  obtain ⟨stage, hcall, hearly⟩ := h
  refine ⟨i, seat, stage, hcall, ?_⟩
  rintro answer rfl
  cases hearly

theorem turn_of_fetched {base : List EventRow} {projection : Projection}
    (hstore : w.store = .persisted base projection) (hg : Fetched db gameID roster n base g) :
    w.turn db gameID = some g.currentTurn := by
  simp [turn, game, hstore, hg.found]

theorem turn_of_bot (hstore : w.store = .bot g) : w.turn db gameID = some g.currentTurn := by
  simp [turn, game, hstore]

theorem turn_congr (h : w'.store = w.store) : w'.turn db gameID = w.turn db gameID := by
  simp only [turn, game, h]

theorem Timely.step (h : w.Timely db gameID roster n) (hk : 0 < roster.length)
    (hseat : Seated roster) (hstep : Step db gameID w act w')
    (hfault : ¬ PassFault db gameID w act w') : w'.Timely db gameID roster n := by
  constructor
  · exact h.toCoherent.step hk hseat hstep
  · intro i j seat seat' hi hj
    rcases hstep.waiting hi with ⟨hi, -⟩ | ⟨hacti, hpassing, -⟩
    · rcases hstep.waiting hj with ⟨hj, -⟩ | ⟨-, hpassing, -⟩
      · exact h.alone i j seat seat' hi hj
      · exact absurd hi.passing hpassing
    · rcases hstep.waiting hj with ⟨hj, -⟩ | ⟨hactj, -⟩
      · exact absurd hj.passing hpassing
      · exact Act.tick.inj (hacti.symm.trans hactj)
  · intro i seat hi
    rcases hstep.waiting hi with ⟨hi, hown⟩ | ⟨rfl, -, timer, htimer, rfl, hends, rfl⟩
    · have hran := h.ranOut i seat hi
      constructor
      · rw [← hran.turn]
        by_cases hact : act.call = some i
        · obtain ⟨task, stage, rfl⟩ := hown hact
          exact turn_congr rfl
        · by_contra hturn
          exact hfault (.overtaken hi hact hturn)
      · apply hstep.outOfTime hran.expired
        rintro j task answer e rest rfl hcall hrenews
        exact hfault (.renewed hi hcall hrenews)
    · constructor
      · by_contra hturn
        exact hfault (.stale htimer hturn)
      · intro t ht _
        obtain rfl := Option.some.inj (htimer.symm.trans ht)
        exact hends
  · intro i seat stage base g hcall hbase hg
    rcases hstep.base hcall hbase with ⟨stage₀, hcall₀, hbase₀⟩ | ⟨hcall₀, projection, hstore⟩
    · exact h.loaded i seat stage₀ base g hcall₀ hbase₀ hg
    · have hturn := (h.ranOut i seat ⟨.started, hcall₀, rfl⟩).turn
      exact Option.some.inj ((turn_of_fetched hstore hg).symm.trans hturn)

theorem Timely.passesExpired (h : w.Timely db gameID roster n) (hk : 0 < roster.length)
    (hseat : Seated roster) (hstep : Step db gameID w act w') :
    PassesExpired db gameID w act w' := by
  intro i seat stage hact hcall
  obtain ⟨new, hadds, hlog⟩ := h.adds hseat hstep
  cases hadds with
  | nothing hnot => exact absurd hact (not_or.mpr (hnot i))
  | bot => simp at hact
  | @call _ j task stage' g g' first new hact' hcall' hfinds hshaped hfirst hrecording =>
    obtain rfl : i = j := by
      rcases hact with rfl | rfl <;> simpa using hact'
    cases hcall.symm.trans hcall'
    cases hfirst with
    | @pass _ next hnext =>
      obtain ⟨rest, hmap, -⟩ := hrecording.payloads
      have hwaiting : w.Waiting i seat := by
        cases hfinds <;> exact ⟨_, hcall, rfl⟩
      have hran := h.ranOut i seat hwaiting
      obtain ⟨g₀, hgame, hturn⟩ := Option.map_eq_some_iff.mp hran.turn
      have hsame : g.currentTurn = seat := by
        cases hfinds with
        | live hstore => exact Option.some.inj ((turn_of_bot hstore).symm.trans hran.turn)
        | loaded hg => exact h.loaded i seat _ _ g hcall rfl hg
      obtain ⟨g₁, hgame₁, hshaped₀, -⟩ := h.toCoherent.game hk
      obtain rfl := Option.some.inj (hgame₁.symm.trans hgame)
      refine ⟨⟨g₁, next, rest, hgame, hturn, ?_, hmap ▸ hlog⟩, hran.expired⟩
      rw [← hnext, nextTurn, nextTurn, hshaped₀.length, hshaped.length, hturn, hsame]

theorem Created.timely (h : Created db gameID w) : ∃ (n : ℕ) (roster : List Player),
    0 < roster.length ∧ Seated roster ∧ w.Timely db gameID roster n := by
  obtain ⟨n, roster, -, hk, hseat, hw⟩ := h.coherent
  obtain ⟨todo, hcalls⟩ := h.calls
  have hnone (i : ℕ) (seat : ℤ) (stage : Stage) :
      w.calls i ≠ some ⟨.passTurn seat, stage⟩ := by
    intro hcall
    rw [hcalls] at hcall
    obtain ⟨-, htask, -⟩ := eq_of_creating hcall
    cases htask
  refine ⟨n, roster, by omega, hseat, hw, ?_, ?_, ?_⟩
  · rintro i j seat seat' ⟨stage, hcall, -⟩
    exact absurd hcall (hnone i seat stage)
  · rintro i seat ⟨stage, hcall, -⟩
    exact absurd hcall (hnone i seat stage)
  · intro i seat stage base g hcall
    exact absurd hcall (hnone i seat stage)

/-- While no step is a fault, the timer passes the turns of seats that have run out of time. -/
theorem passes_expired (h : Created db gameID w) {run : List (Act × World)}
    (hrun : Along (Step db gameID) w run)
    (hfaults : Along (fun w act w' => ¬ PassFault db gameID w act w') w run) :
    Along (PassesExpired db gameID) w run := by
  obtain ⟨n, roster, hk, hseat, hw⟩ := h.timely
  refine ((hrun.and hfaults).with_inv hw fun _ _ _ hw hstep =>
    hw.step hk hseat hstep.1 hstep.2).imp ?_
  rintro w act w' ⟨⟨hstep, -⟩, hw⟩
  exact hw.passesExpired hk hseat hstep

def underWay (j : ℕ) (w : World) : Bool :=
  match w.calls j with
  | some ⟨.passTurn _, stage⟩ => stage.early
  | _ => false

/-- The timer knows whose turn it is, if it finds a deadline expired. -/
def knowsTurn (db : Database) (gameID : ℤ) (w : World) : Act → Bool
  | .tick _ => w.timer.all fun timer => w.turn db gameID = some timer.activeTurn
  | _ => true

/-- A pass under way takes all the steps, and the timer knows whose turn it is. -/
def undisturbed (db : Database) (gameID : ℤ) (m : ℕ) (w : World) (act : Act) : Bool :=
  ((List.range m).all fun j => !w.underWay j || act.call = some j) && w.knowsTurn db gameID act

theorem Waiting.underWay (h : w.Waiting i seat) : w.underWay i = true := by
  obtain ⟨stage, hcall, hearly⟩ := h
  rw [World.underWay, hcall]
  exact hearly

theorem Numbered.not_passFault {m : ℕ} (h : w.Numbered m)
    (hundisturbed : w.undisturbed db gameID m act = true) : ¬ PassFault db gameID w act w' := by
  rw [undisturbed, Bool.and_eq_true, List.all_eq_true] at hundisturbed
  obtain ⟨hpasses, htick⟩ := hundisturbed
  have hown (j : ℕ) (seat : ℤ) (hj : w.Waiting j seat) : act.call = some j := by
    have hlt : j < m := by
      by_contra hge
      obtain ⟨stage, hcall, -⟩ := hj
      rw [h j (by omega)] at hcall
      cases hcall
    simpa [hj.underWay] using hpasses j (List.mem_range.mpr hlt)
  intro hfault
  cases hfault with
  | stale htimer hturn =>
    rw [knowsTurn, htimer] at htick
    exact hturn (by simpa using htick)
  | overtaken hj hact => exact hact (hown _ _ hj)
  | renewed hj hcall =>
    cases hown _ _ hj
    obtain ⟨stage, hcall', hearly⟩ := hj
    cases hcall.symm.trans hcall'
    cases hearly

def timelyPass : List Order :=
  [.go 0, .go 0, .elapse (turnTimeLimit + 1), .tick 1, .go 1, .go 1, .go 1]

theorem passes_expired_duel : ∃ run,
    duelWorld.play .byInsertion 1 .first 2 timelyPass = some run ∧
      Along (PassesExpired .byInsertion 1) duelWorld run := by
  have hsome : ((duelWorld.play .byInsertion 1 .first 2 timelyPass).map fun run =>
      decide (Along (fun w act _ => w.undisturbed .byInsertion 1 2 act = true) duelWorld run)) =
      some true := by
    decide +kernel
  obtain ⟨run, hplay, hundisturbed⟩ := Option.map_eq_some_iff.mp hsome
  have hnumbered := numbered_duelWorld (m := 2) (by omega)
  have hfaults : Along (fun w act w' => ¬ PassFault .byInsertion 1 w act w') duelWorld run := by
    refine (((along_numbered hnumbered hplay).and (of_decide_eq_true hundisturbed)).imp ?_)
    rintro w act w' ⟨hw, hundisturbed⟩
    exact hw.not_passFault hundisturbed
  exact ⟨run, hplay, passes_expired created_duelWorld (along_play hnumbered hplay) hfaults⟩

/-- The timer finds the deadline of the first seat expired. Before the pass has loaded the game,
the player of that seat moves. -/
def latePass : List Order :=
  [.go 0, .go 0, .elapse (turnTimeLimit + 1), .tick 1,
    .receive 2 (.makeMove (some 7) 7 0 0 "top"), .go 2, .go 2, .go 2, .go 2, .go 2, .go 2, .go 1,
    .go 1]

def passReady (i : ℕ) (w : World) : Bool :=
  match w.calls i, w.store with
  | some ⟨.passTurn seat, .changed _ _ _⟩, .persisted _ _ => seat = 0
  | _, _ => false

/-- The second player loses the turn right after it has begun. -/
theorem turn_of_other_passed : Created .byInsertion 1 duelWorld ∧
    ∃ run, Along (Step .byInsertion 1) duelWorld run ∧
      ¬ Along (PassesExpired .byInsertion 1) duelWorld run := by
  have hsome : ((duelWorld.play .byInsertion 1 .first 3 latePass).map fun run =>
      (passReady 1 (last duelWorld run), (last duelWorld run).turn .byInsertion 1)) =
      some (true, some 1) := by
    decide +kernel
  obtain ⟨run, hplay, hlast⟩ := Option.map_eq_some_iff.mp hsome
  obtain ⟨hready, hturn⟩ := Prod.mk.inj hlast
  have hrun := along_play (numbered_duelWorld (m := 3) (by omega)) hplay
  unfold passReady at hready
  split at hready
  case h_1 seat base g todo rows projection hcall hstore =>
    obtain rfl : seat = 0 := by simpa using hready
    refine ⟨created_duelWorld, _, hrun.snoc (.append hcall hstore), fun hexpired => ?_⟩
    obtain ⟨⟨g, -, -, hgame, hseat, -⟩, -⟩ :=
      (along_append.mp hexpired).2.1 1 0 _ (.inl rfl) hcall
    rw [turn, hgame, Option.map_some, hseat] at hturn
    cases hturn
  case h_2 => cases hready

end World

end DotsAndBoxes
