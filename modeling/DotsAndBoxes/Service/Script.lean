import DotsAndBoxes.Service.Turns
import DotsAndBoxes.Service.World

/-! # Scripts

The stage of a call determines its next step, but for the luck of a bot. So a script that
says which call goes on next, and what comes in meanwhile, can be run.
-/

namespace DotsAndBoxes

open Runs

namespace World

variable {db : Database} {gameID : ℤ} {w w' : World} {act : Act} {i m : ℕ}

/-- The next step of a call, unless it starts a bot loop. -/
def next (db : Database) (gameID : ℤ) (chance : Chance) (i : ℕ) (w : World) :
    Option (Act × World) :=
  match w.calls i with
  | none => none
  | some ⟨task, stage⟩ =>
    match stage, w.store with
    | .started, .persisted rows _ =>
      match task.edgeError, db.findByID gameID rows with
      | some e, _ => some (.advance i, w.set i task (.finishing (.refused e) []))
      | none, some (.ok (some g)) => some (.advance i, w.set i task (.loaded rows g))
      | none, some (.error e) =>
        some (.advance i, w.set i task (.finishing (.refused (.load e)) task.atLast))
      | none, _ => none
    | .started, .bot g =>
      match task.edgeError, task.change true w.now g with
      | some e, _ => some (.advance i, w.set i task (.finishing (.refused e) []))
      | none, some (.error e) =>
        some (.advance i, w.set i task (.finishing (.refused e) task.atLast))
      | none, some (.ok (g', todo)) =>
        some (.exclusive i, set i task (.finishing .done todo) { w with store := .bot g' })
      | none, none => none
    | .loaded base g, _ =>
      match task.change false w.now g with
      | some (.error e) =>
        some (.advance i, w.set i task (.finishing (.refused e) task.atLast))
      | some (.ok (g', todo)) => some (.advance i, w.set i task (.changed base g' todo))
      | none => none
    | .changed _ g todo, .persisted rows projection =>
      some (.append i, set i task (.finishing .done todo)
        { w with store := .persisted (db.appendEvents rows g.uncommittedEvents) projection })
    | .finishing answer (.kickBot atStart :: rest), _ =>
      if w.kicks atStart then none
      else some (.advance i, w.set i task (.finishing answer rest))
    | .finishing answer (e :: rest), _ =>
      some (.effect i, set i task (.finishing answer rest) (w.perform db gameID e))
    | .checking, .bot g => some (.advance i, w.set i task g.loopCheck)
    | .asleep, .bot g => (g.wake chance w.now).map fun woken =>
      (.wake i, set i task (woken.stage g) { w with store := .bot (woken.game g) })
    | .moved ended, .bot g =>
      some (.publish i,
        set i task (if ended then g.loopEnd else .checking) { w with bus := w.bus ++ [.state g] })
    | _, _ => none

theorem step_of_next {chance : Chance} (h : w.next db gameID chance i = some (act, w')) :
    Step db gameID w act w' := by
  unfold next at h
  split at h
  · cases h
  case h_2 task stage hcall =>
    split at h
    case h_1 rows projection hstore =>
      split at h
      case h_1 _ e he => cases h; exact .advance hcall (.malformed he)
      case h_2 g he hg => cases h; exact .advance hcall (.load he hstore hg)
      case h_3 e he hg => cases h; exact .advance hcall (.unreadable he hstore hg)
      case h_4 => cases h
    case h_2 g hstore =>
      split at h
      case h_1 _ e he => cases h; exact .advance hcall (.malformed he)
      case h_2 e he hg => cases h; exact .advance hcall (.excluded he hstore hg)
      case h_3 g' todo he hg => cases h; exact .exclusive hcall he hstore hg
      case h_4 => cases h
    case h_3 base g =>
      split at h
      case h_1 e hg => cases h; exact .advance hcall (.refuse hg)
      case h_2 g' todo hg => cases h; exact .advance hcall (.apply hg)
      case h_3 => cases h
    case h_4 g todo rows projection hstore => cases h; exact .append hcall hstore
    case h_5 answer atStart rest =>
      split at h
      · cases h
      case isFalse hidle =>
        cases h
        exact .advance hcall (.notKicked (Bool.eq_false_iff.mpr hidle))
    case h_6 answer e rest hkick =>
      cases h
      exact .effect hcall fun atStart heq => hkick atStart heq
    case h_7 g hstore => cases h; exact .advance hcall (.check hstore)
    case h_8 g hstore =>
      obtain ⟨woken, hwake, heq⟩ := Option.map_eq_some_iff.mp h
      cases heq
      exact .wake hcall hstore hwake
    case h_9 ended g hstore => cases h; exact .publish hcall hstore
    case h_10 => cases h

inductive Order where
  | elapse (d : Time)
  | disconnect (userID : ℤ)
  | receive (i : ℕ) (task : Task)
  | tick (i : ℕ)
  | graceOver (i : ℕ) (userID : ℤ)
  | go (i : ℕ)
  | kick (i j : ℕ)
  | fail (i : ℕ)

def Job.passing (job : Job) : Bool :=
  match job with
  | ⟨.passTurn _, .finishing _ []⟩ => false
  | ⟨.passTurn _, _⟩ => true
  | _ => false

/-- The step that the line orders, on a world whose calls have numbers below `m`. -/
def obey (db : Database) (gameID : ℤ) (chance : Chance) (m : ℕ) (w : World) :
    Order → Option (Act × World)
  | .elapse d => if 0 ≤ d then some (.elapse d, { w with now := w.now + d }) else none
  | .disconnect userID => some (.disconnect userID,
      { w with timer := w.timer.map (·.handleDisconnect w.now userID) })
  | .receive i task =>
    if i < m ∧ (w.calls i).isNone ∧ task.fromClient then some (.receive i, w.set i task .started)
    else none
  | .tick i =>
    match w.timer with
    | none => none
    | some timer =>
      if i < m ∧ (w.calls i).isNone ∧ timer.turnEndsAt < w.now ∧
          (List.range m).all (fun j => !(w.calls j).any Job.passing) then
        some (.tick i, w.set i (.passTurn timer.activeTurn) .started)
      else none
  | .graceOver i userID =>
    match w.timer with
    | none => none
    | some timer =>
      if i < m ∧ (w.calls i).isNone ∧ (timer.disconnectTimers userID).any (· ≤ w.now) then
        some (.graceOver i,
          set i (.graceOver userID) .started { w with timer := some (timer.graceOver userID) })
      else none
  | .go i => if i < m then w.next db gameID chance i else none
  | .kick i j =>
    match w.calls i with
    | some ⟨task, .finishing answer (.kickBot atStart :: rest)⟩ =>
      if i < m ∧ j < m ∧ w.kicks atStart ∧ (w.calls j).isNone then
        some (.kick i j, set i task (.finishing answer rest) (w.set j .playBotTurn .checking))
      else none
    | _ => none
  | .fail i =>
    match w.calls i with
    | some ⟨task, .changed _ _ _⟩ =>
      if i < m then some (.fail i, w.set i task (.finishing .notAppended task.atLast)) else none
    | _ => none

def Numbered (m : ℕ) (w : World) : Prop := ∀ i, m ≤ i → w.calls i = none

def play (db : Database) (gameID : ℤ) (chance : Chance) (m : ℕ) :
    World → List Order → Option (List (Act × World))
  | _, [] => some []
  | w, order :: orders => do
    let (act, w') ← w.obey db gameID chance m order
    let run ← play db gameID chance m w' orders
    return (act, w') :: run

theorem Numbered.set (h : w.Numbered m) (hi : i < m) (task : Task) (stage : Stage) :
    (w.set i task stage).Numbered m := by
  intro j hj
  rw [set_calls_of_ne (by omega)]
  exact h j hj

theorem calls_of_next {chance : Chance} (h : w.next db gameID chance i = some (act, w')) {j : ℕ}
    (hj : j ≠ i) : w'.calls j = w.calls j := by
  unfold next at h
  split at h
  · cases h
  case h_2 task stage hcall =>
    split at h
    case h_1 => split at h <;> cases h <;> exact set_calls_of_ne hj
    case h_2 => split at h <;> cases h <;> exact set_calls_of_ne hj
    case h_3 => split at h <;> cases h <;> exact set_calls_of_ne hj
    case h_4 => cases h; exact set_calls_of_ne hj
    case h_5 => split at h <;> cases h; exact set_calls_of_ne hj
    case h_6 answer e rest _ =>
      cases h
      rw [set_calls_of_ne hj, perform_calls]
    case h_7 => cases h; exact set_calls_of_ne hj
    case h_8 g hstore =>
      obtain ⟨woken, hwake, heq⟩ := Option.map_eq_some_iff.mp h
      cases heq
      exact set_calls_of_ne hj
    case h_9 => cases h; exact set_calls_of_ne hj
    case h_10 => cases h

theorem Numbered.next (h : w.Numbered m) (hi : i < m) {chance : Chance}
    (hnext : w.next db gameID chance i = some (act, w')) : w'.Numbered m := by
  intro j hj
  rw [calls_of_next hnext (by omega)]
  exact h j hj

theorem step_of_obey (h : w.Numbered m) {chance : Chance} {order : Order}
    (hobey : w.obey db gameID chance m order = some (act, w')) :
    Step db gameID w act w' ∧ w'.Numbered m := by
  cases order with
  | elapse d =>
    simp only [obey] at hobey
    split at hobey
    case isTrue hd => cases hobey; exact ⟨.elapse hd, h⟩
    case isFalse => cases hobey
  | disconnect userID => cases hobey; exact ⟨.disconnect, h⟩
  | receive i task =>
    simp only [obey] at hobey
    split at hobey
    case isTrue hif =>
      obtain ⟨hi, hfresh, hclient⟩ := hif
      cases hobey
      exact ⟨.receive (by simpa using hfresh) hclient, h.set hi task .started⟩
    case isFalse => cases hobey
  | tick i =>
    simp only [obey] at hobey
    split at hobey
    case h_1 => cases hobey
    case h_2 timer htimer =>
      split at hobey
      case isTrue hif =>
        obtain ⟨hi, hfresh, hends, hidle⟩ := hif
        cases hobey
        refine ⟨.tick (by simpa using hfresh) htimer hends ?_, h.set hi _ .started⟩
        rintro ⟨j, seat, stage, hcall, hgoing⟩
        rcases Nat.lt_or_ge j m with hj | hj
        · have hnot := List.all_eq_true.mp hidle j (List.mem_range.mpr hj)
          rw [hcall] at hnot
          unfold Job.passing at hnot
          cases stage with
          | finishing answer todo =>
            cases todo with
            | nil => exact hgoing answer rfl
            | cons e rest => simp at hnot
          | _ => simp at hnot
        · rw [h j hj] at hcall
          cases hcall
      case isFalse => cases hobey
  | graceOver i userID =>
    simp only [obey] at hobey
    split at hobey
    case h_1 => cases hobey
    case h_2 timer htimer =>
      split at hobey
      case isTrue hif =>
        obtain ⟨hi, hfresh, hends⟩ := hif
        cases hobey
        exact ⟨.graceOver (by simpa using hfresh) htimer hends,
          Numbered.set (w := { w with timer := some (timer.graceOver userID) }) h hi _ .started⟩
      case isFalse => cases hobey
  | go i =>
    simp only [obey] at hobey
    split at hobey
    case isTrue hi => exact ⟨step_of_next hobey, h.next hi hobey⟩
    case isFalse => cases hobey
  | kick i j =>
    simp only [obey] at hobey
    split at hobey
    case h_1 task answer atStart rest hcall =>
      split at hobey
      case isTrue hif =>
        obtain ⟨hi, hj, hkicks, hfresh⟩ := hif
        cases hobey
        exact ⟨.kick hcall hkicks (by simpa using hfresh), (h.set hj _ _).set hi _ _⟩
      case isFalse => cases hobey
    case h_2 => cases hobey
  | fail i =>
    simp only [obey] at hobey
    split at hobey
    case h_1 task base g todo hcall =>
      split at hobey
      case isTrue hi =>
        cases hobey
        exact ⟨.fail hcall .append, h.set hi _ _⟩
      case isFalse => cases hobey
    case h_2 => cases hobey

/-- The run of a script is a run of the world, whose calls keep numbers below `m`. -/
theorem steps_of_play (h : w.Numbered m) {chance : Chance} {orders : List Order}
    {run : List (Act × World)} (hplay : w.play db gameID chance m orders = some run) :
    Along (fun w act w' => Step db gameID w act w' ∧ w.Numbered m) w run ∧
      (last w run).Numbered m := by
  induction orders generalizing w run with
  | nil => cases hplay; exact ⟨trivial, h⟩
  | cons order orders ih =>
    obtain ⟨⟨act, w'⟩, hobey, hplay⟩ := Option.bind_eq_some_iff.mp hplay
    obtain ⟨rest, hrest, heq⟩ := Option.bind_eq_some_iff.mp hplay
    cases heq
    obtain ⟨hstep, hnumbered⟩ := step_of_obey h hobey
    obtain ⟨hrun, hlast⟩ := ih hnumbered hrest
    exact ⟨⟨⟨hstep, h⟩, hrun⟩, hlast⟩

theorem along_play (h : w.Numbered m) {chance : Chance} {orders : List Order}
    {run : List (Act × World)} (hplay : w.play db gameID chance m orders = some run) :
    Along (Step db gameID) w run :=
  (steps_of_play h hplay).1.imp fun _ _ _ => And.left

theorem along_numbered (h : w.Numbered m) {chance : Chance} {orders : List Order}
    {run : List (Act × World)} (hplay : w.play db gameID chance m orders = some run) :
    Along (fun w _ _ => w.Numbered m) w run :=
  (steps_of_play h hplay).1.imp fun _ _ _ => And.right

theorem Numbered.play (h : w.Numbered m) {chance : Chance} {orders : List Order}
    {run : List (Act × World)} (hplay : w.play db gameID chance m orders = some run) :
    (last w run).Numbered m :=
  (steps_of_play h hplay).2

def returned : Stage → Bool
  | .finishing _ [] => true
  | _ => false

def returnedBelow (m : ℕ) (w : World) : Bool :=
  (List.range m).all fun i => (w.calls i).all fun job => returned job.stage

theorem Numbered.idle (h : w.Numbered m) (hreturned : w.returnedBelow m = true) : w.Idle := by
  intro i task stage hcall
  rcases Nat.lt_or_ge i m with hi | hi
  · have hjob := List.all_eq_true.mp hreturned i (List.mem_range.mpr hi)
    rw [hcall] at hjob
    change returned stage = true at hjob
    unfold returned at hjob
    split at hjob
    · exact ⟨_, rfl⟩
    · cases hjob
  · rw [h i hi] at hcall
    cases hcall

def botDuelGame : Game :=
  (((Server.boot 1 fun _ => []).createBotGame 0 .keep (fun _ => "") [7] 1 5).bind
    fun (_, game) => game.toOption).getD {}

def botDuelWorld : World where
  now := 0
  store := .bot botDuelGame
  timer := none
  bus := []
  calls := creating [.publishState botDuelGame, .startTimer botDuelGame, .kickBot true]

theorem created_botDuelWorld (db : Database) : Created db 10000 botDuelWorld := by
  have hcreate : (Server.boot 1 fun _ => []).createBotGame 0 .keep (fun _ => "") [7] 1 5 =
      some (_, .ok botDuelGame) := rfl
  exact .bot hcreate rfl

theorem numbered_botDuelWorld (hm : 0 < m) : botDuelWorld.Numbered m := by
  intro i hi
  have hne : i ≠ 0 := by omega
  simp [botDuelWorld, creating, hne]

/-- The server and the game after two humans have started a game. -/
def duelStart : Exec (Server × Except CreationError Game) :=
  (Server.boot 1 fun _ => []).createGame .byInsertion 0 .keep (fun _ => "") [7, 8] 5

def duelGame : Game := (duelStart.bind fun (_, game) => game.toOption).getD {}

def duelWorld : World where
  now := 0
  store := .persisted ((duelStart.map fun (s, _) => s.events 1).getD []) (.create duelGame)
  timer := none
  bus := []
  calls := creating [.publishCreated duelGame, .startTimer duelGame]

theorem created_duelWorld : Created .byInsertion 1 duelWorld := by
  have hcreate : (Server.boot 1 fun _ => []).createGame .byInsertion 0 .keep (fun _ => "") [7, 8] 5 =
      some (_, .ok duelGame) := rfl
  exact .persisted hcreate rfl

theorem numbered_duelWorld (hm : 0 < m) : duelWorld.Numbered m := by
  intro i hi
  have hne : i ≠ 0 := by omega
  simp [duelWorld, creating, hne]

def moveThenForfeit : List Order :=
  let go (i m : ℕ) : List Order := List.replicate m (.go i)
  go 0 2 ++ [.receive 1 (.makeMove (some 7) 7 0 0 "top")] ++ go 1 6 ++
    [.receive 2 (.forfeit 8)] ++ go 2 7

end World

end DotsAndBoxes
