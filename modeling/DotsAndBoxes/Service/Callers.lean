import DotsAndBoxes.Service.Coherence

/-! # Who plays

A move request names a player in its body, and the game service looks up the seat of that
player. Neither it nor the handler compares the player with the user of the session. A
forfeit names the user of the session, but nobody asks whether that user has a seat.
-/

namespace DotsAndBoxes

open Slices Enclosure Runs Game

variable {n : ℕ} {roster : List Player} {g g' : Game} {now : Time} {db : Database} {gameID : ℤ}
  {rows : List EventRow} {task : Task} {todo : List Effect}

theorem Shaped.at?_players (h : Shaped roster n g) {t : ℤ} {player : Player}
    (hp : at? g.players t = some player) :
    ∃ p, at? roster t = some p ∧ p.userID = player.userID ∧ p.turnOrder = player.turnOrder := by
  unfold at? at hp ⊢
  split at hp
  case isFalse => cases hp
  case isTrue ht =>
    rw [if_pos ht]
    have hmap : (roster.map Player.unscored)[t.toNat]? = some player.unscored := by
      rw [← h.players, List.getElem?_map, hp]
      rfl
    rw [List.getElem?_map] at hmap
    obtain ⟨p, hp, hsame⟩ := Option.map_eq_some_iff.mp hmap
    have huser : p.unscored.userID = player.unscored.userID := congrArg _ hsame
    have hturn : p.unscored.turnOrder = player.unscored.turnOrder := congrArg _ hsame
    exact ⟨p, hp, huser, hturn⟩

theorem Shaped.turnOrder_getElem (h : Shaped roster n g) (hseat : Seated roster) {i : ℕ}
    (hi : i < g.players.length) : g.players[i].turnOrder = i := by
  have hat : at? g.players (i : ℤ) = some g.players[i] := by
    rw [at?_natCast, List.getElem?_eq_getElem hi]
  obtain ⟨p, hp, -, hturn⟩ := h.at?_players hat
  have hlt : i < roster.length := h.length ▸ hi
  rw [at?_natCast, List.getElem?_eq_getElem hlt] at hp
  rw [← hturn, ← Option.some.inj hp]
  exact (hseat ⟨i, hlt⟩).1

theorem Shaped.seatOf (h : Shaped roster n g) (hseat : Seated roster) {playerID t : ℤ}
    (ht : g.seatOf playerID = some t) : (at? roster t).bind (·.userID) = some playerID := by
  obtain ⟨player, hfind, rfl⟩ := Option.map_eq_some_iff.mp ht
  have huser : player.userID = some playerID := by simpa using List.find?_some hfind
  obtain ⟨i, hi, rfl⟩ := List.getElem_of_mem (List.mem_of_find?_eq_some hfind)
  have hat : at? g.players (i : ℤ) = some g.players[i] := by
    rw [at?_natCast, List.getElem?_eq_getElem hi]
  obtain ⟨p, hp, huser₀, -⟩ := h.at?_players hat
  rw [h.turnOrder_getElem hseat hi, hp, Option.bind_some, huser₀, huser]

theorem Shaped.userID_of_current (h : Shaped roster n g) {player : Player} {userID : ℤ}
    (hplayer : g.getCurrentPlayer = some player) (huser : player.userID = some userID) :
    (at? roster g.currentTurn).bind (·.userID) = some userID := by
  unfold getCurrentPlayer at hplayer
  split at hplayer
  · cases hplayer
  · obtain ⟨p, hp, huser₀, -⟩ := h.at?_players hplayer
    rw [hp, Option.bind_some, huser₀, huser]

/-- The payloads in the log of the game, as they were recorded. -/
def World.log (w : World) : List Payload :=
  match w.store with
  | .bot g => g.uncommittedEvents.map (·.payload)
  | .persisted rows _ => rows.filterMap fun row => row.decode.toOption

def World.userAt (turn : ℤ) (w : World) : Option ℤ :=
  match w.log with
  | .gameCreated created :: _ => (at? created.players turn).bind (·.userID)
  | _ => none

namespace World

variable {w w' : World} {act : Act}

theorem Coherent.log (h : w.Coherent db gameID roster n) :
    ∃ id rest, w.log = .gameCreated ⟨id, n, roster⟩ :: rest := by
  unfold World.log
  cases hstore : w.store with
  | bot g =>
    obtain ⟨pos, hlive⟩ := (h.botGame hstore).live
    exact hlive.recorded.word.created_first
  | persisted rows projection =>
    obtain ⟨created, rest, rfl, -, hcreated, -⟩ := (h.intact hstore).rows
    exact ⟨gameID, _, by simp [hcreated.decode, Except.toOption]; rfl⟩

theorem Coherent.userAt (h : w.Coherent db gameID roster n) (turn : ℤ) :
    w.userAt turn = (at? roster turn).bind (·.userID) := by
  obtain ⟨id, rest, hlog⟩ := h.log
  rw [World.userAt, hlog]

theorem perform_log (e : Effect) : (w.perform db gameID e).log = w.log := by
  unfold World.log
  cases e <;> simp only [perform]
  case updateProjection g => cases hstore : w.store <;> simp [hstore]
  case publishIfOver =>
    cases hstore : w.store with
    | persisted rows projection => simp [hstore]
    | bot g => by_cases hended : g.hasEnded = true <;> simp [hended, hstore]

/-- The game that a call is to change: the live one, or the one it has loaded. -/
inductive Finds (db : Database) (gameID : ℤ) (roster : List Player) (n : ℕ) (w : World) :
    Stage → Game → Prop where
  | live {g : Game} : w.store = .bot g → Finds db gameID roster n w .started g
  | loaded {base : List EventRow} {g g' : Game} {todo : List Effect} :
      Fetched db gameID roster n base g → Finds db gameID roster n w (.changed base g' todo) g

/-- What a step adds to the log: nothing, or what a call has recorded that takes effect, or the
move of a bot loop. -/
inductive Adds (db : Database) (gameID : ℤ) (roster : List Player) (n : ℕ) (w : World) :
    Act → List Payload → Prop where
  | nothing {act : Act} : (∀ i, act ≠ .append i ∧ act ≠ .exclusive i) →
      Adds db gameID roster n w act []
  | call {act : Act} {i : ℕ} {task : Task} {stage : Stage} {g g' : Game} {first : Payload}
      {new : List DomainEvent} : act = .append i ∨ act = .exclusive i →
      w.calls i = some ⟨task, stage⟩ → Finds db gameID roster n w stage g → Shaped roster n g →
      Task.Succeeds.First g task first → Recording roster n first g g' new →
      Adds db gameID roster n w act (new.map (·.payload))
  | bot {i : ℕ} {g g' : Game} {player : Player} {userID : ℤ} {move : Move}
      {new : List DomainEvent} : w.calls i = some ⟨.playBotTurn, .asleep⟩ → Shaped roster n g →
      g.getCurrentPlayer = some player → player.userID = some userID → userID < 0 →
      move.turnOrder = g.currentTurn →
      Recording roster n
        (.moveApplied ⟨move.turnOrder, move.row, move.col, move.edge.toString⟩) g g' new →
      Adds db gameID roster n w (.wake i) (new.map (·.payload))

theorem Coherent.adds (h : w.Coherent db gameID roster n) (hseat : Seated roster)
    (hstep : Step db gameID w act w') :
    ∃ new, Adds db gameID roster n w act new ∧ w'.log = w.log ++ new := by
  have hnothing (hact : ∀ i, act ≠ .append i ∧ act ≠ .exclusive i) (hlog : w'.log = w.log) :
      ∃ new, Adds db gameID roster n w act new ∧ w'.log = w.log ++ new :=
    ⟨[], .nothing hact, by rw [hlog, List.append_nil]⟩
  cases hstep with
  | elapse => exact hnothing (by simp) rfl
  | disconnect => exact hnothing (by simp) rfl
  | reconnect => exact hnothing (by simp) rfl
  | receive => exact hnothing (by simp) rfl
  | tick => exact hnothing (by simp) rfl
  | graceOver => exact hnothing (by simp) rfl
  | advance => exact hnothing (by simp) rfl
  | fail => exact hnothing (by simp) rfl
  | @append i task base rows projection g' todo hcall hstore =>
    obtain ⟨g, first, hg, -, hfirst, hrecording, -⟩ := Prepared.recording (h.calls i task _ hcall)
    refine ⟨_, .call (.inl rfl) hcall (.loaded hg) hg.shaped hfirst hrecording, ?_⟩
    have hread : (g'.uncommittedEvents.map db.row).filterMap (fun row => row.decode.toOption) =
        g'.uncommittedEvents.map (·.payload) := by
      rw [List.filterMap_map, ← List.filterMap_eq_map]
      apply List.filterMap_congr
      intro e he
      rw [Function.comp_apply, (EventRow.holds_row (hrecording.typed e he).1).decode]
      rfl
    simp [World.log, hstore, Database.appendEvents, List.filterMap_append, hread]
  | @exclusive i task g g' todo hcall hedge hstore hchange =>
    have hshaped := (h.botGame hstore).shaped
    obtain ⟨first, hfirst, hchanges, -⟩ := (Task.change_eq_ok hchange).changes hshaped
    obtain ⟨new, hrecording⟩ := hchanges.recording
    refine ⟨_, .call (.inr rfl) hcall (.live hstore) hshaped hfirst hrecording, ?_⟩
    simp [World.log, hstore, hrecording.events]
  | effect => exact hnothing (by simp) (perform_log _)
  | kick => exact hnothing (by simp) rfl
  | @wake i task g chance woken hcall hstore hwake =>
    have hshaped := (h.botGame hstore).shaped
    cases (h.botGame hstore).botRound hseat hwake with
    | idle => exact hnothing (by simp) (by simp [World.log, hstore, Woken.game])
    | @moved player userID move g' result hrun hplayer huser hbot _ hturn _ hmove =>
      obtain ⟨new, hrecording⟩ := (hshaped.applyMove hmove).1.recording
      have htask : task = .playBotTurn := h.calls i task _ hcall
      rw [htask] at hcall
      refine ⟨_, .bot hcall hshaped hplayer huser hbot hturn hrecording, ?_⟩
      simp [World.log, hstore, Woken.game, hrecording.events]
  | publish => exact hnothing (by simp) rfl

/-- The move was caused by a request of the user who sits on the seat, or the seat is that of a
bot and its loop made the move. -/
def CausedByOwner (w : World) (act : Act) (p : MoveAppliedPayload) : Prop :=
  (∃ i userID playerID row col name stage, act.call = some i ∧
    w.calls i = some ⟨.makeMove (some userID) playerID row col name, stage⟩ ∧ 0 ≤ userID ∧
    w.userAt p.turnOrder = some userID) ∨
  ∃ i userID stage, act.call = some i ∧ w.calls i = some ⟨.playBotTurn, stage⟩ ∧ userID < 0 ∧
    w.userAt p.turnOrder = some userID

/-- The moves that the step adds to the log were caused by the owners of their seats. -/
def OwnersMove (w : World) (act : Act) (w' : World) : Prop :=
  ∀ new, w'.log = w.log ++ new → ∀ p, .moveApplied p ∈ new → CausedByOwner w act p

/-- A move request that takes effect comes from the session of the player that it names, who is
no bot. -/
def SessionsMove (w : World) (act : Act) (_ : World) : Prop :=
  ∀ i session playerID row col name stage, act = .append i ∨ act = .exclusive i →
    w.calls i = some ⟨.makeMove session playerID row col name, stage⟩ →
    session = some playerID ∧ 0 ≤ playerID

theorem Coherent.ownersMove (h : w.Coherent db gameID roster n) (hseat : Seated roster)
    (hstep : Step db gameID w act w') (hsessions : SessionsMove w act w') :
    OwnersMove w act w' := by
  intro new hlog p hp
  obtain ⟨new', hadds, hlog'⟩ := h.adds hseat hstep
  obtain rfl : new = new' := List.append_cancel_left (hlog.symm.trans hlog')
  cases hadds with
  | nothing => cases hp
  | @call _ i task stage g g' first new hact hcall _ hshaped hfirst hrecording =>
    obtain rfl := hrecording.first_of_move hp
    cases hfirst with
    | @move session playerID row col _ name edge hseatOf =>
      obtain ⟨rfl, hhuman⟩ := hsessions i session playerID row col name stage hact hcall
      have huser := hshaped.seatOf hseat hseatOf
      refine .inl ⟨i, playerID, playerID, row, col, name, stage, ?_, hcall, hhuman, ?_⟩
      · rcases hact with rfl | rfl <;> rfl
      · rw [h.userAt]
        exact huser
  | @bot i g g' player userID move new hcall hshaped hplayer huser hbot hturn hrecording =>
    obtain rfl := Payload.moveApplied.inj (hrecording.first_of_move hp)
    refine .inr ⟨i, userID, .asleep, rfl, hcall, hbot, ?_⟩
    rw [h.userAt, hturn]
    exact hshaped.userID_of_current hplayer huser

theorem Coherent.sessionsMove (h : w.Coherent db gameID roster n) (hseat : Seated roster)
    (hstep : Step db gameID w act w') (howners : OwnersMove w act w') :
    SessionsMove w act w' := by
  intro i session playerID row col name stage hact hcall
  obtain ⟨new, hadds, hlog⟩ := h.adds hseat hstep
  cases hadds with
  | nothing hnot => exact absurd hact (not_or.mpr (hnot i))
  | @call _ j task stage' g g' first new hact' hcall' _ hshaped hfirst hrecording =>
    obtain rfl : i = j := by
      rcases hact with rfl | rfl <;> simpa using hact'
    have hactCall : act.call = some i := by
      rcases hact with rfl | rfl <;> rfl
    rw [hcall] at hcall'
    cases hcall'
    cases hfirst with
    | @move _ _ _ _ turnOrder _ edge hseatOf =>
      obtain ⟨rest, hmap, -⟩ := hrecording.payloads
      have huser : w.userAt turnOrder = some playerID := by
        rw [h.userAt]
        exact hshaped.seatOf hseat hseatOf
      obtain ⟨j, userID, _, _, _, _, _, hj, hcall', hhuman, howner⟩ | ⟨j, _, _, hj, hcall', -⟩ :=
        howners _ hlog _ (hmap ▸ List.mem_cons_self)
      · obtain rfl := Option.some.inj (hactCall.symm.trans hj)
        rw [hcall] at hcall'
        cases hcall'
        obtain rfl := Option.some.inj (huser.symm.trans howner)
        exact ⟨rfl, hhuman⟩
      · obtain rfl := Option.some.inj (hactCall.symm.trans hj)
        rw [hcall] at hcall'
        cases hcall'
  | bot => simp at hact

/-- Every move in the log was caused by the owner of its seat exactly when every move request that
takes effect names the user of its session, who is no bot. -/
theorem moves_are_of_owners_iff (h : Created db gameID w) {run : List (Act × World)}
    (hrun : Along (Step db gameID) w run) :
    Along OwnersMove w run ↔ Along SessionsMove w run := by
  obtain ⟨n, roster, -, hk, hseat, hcoherent⟩ := h.coherent
  refine along_good_iff (fun w => w.Coherent db gameID roster n) hrun hcoherent ?_ ?_
  · intro w act w' hw hstep
    exact ⟨hw.sessionsMove hseat hstep, hw.ownersMove hseat hstep⟩
  · intro w act w' hw hstep _
    exact hw.step (by omega) hseat hstep

/-- A move request for the seat of the human in the bot game, with any session. -/
theorem exists_exclusive_move (db : Database) (session : Option ℤ) : ∃ w',
    Along (Step db 10000) botDuelWorld
      [(.receive 1, botDuelWorld.set 1 (.makeMove session 7 0 0 "top") .started),
        (.exclusive 1, w')] ∧
    w'.log = botDuelWorld.log ++ [.moveApplied ⟨0, 0, 0, "top"⟩, .turnPassed ⟨1⟩] := by
  -- the session is not read, so that of nobody will do
  have hchange : ((Task.makeMove none 7 0 0 "top").change true 0 botDuelGame).map
      (fun result => result.toOption.map fun x => x.1.uncommittedEvents.map (·.payload)) =
      some (some (botDuelGame.uncommittedEvents.map (·.payload) ++
        [.moveApplied ⟨0, 0, 0, "top"⟩, .turnPassed ⟨1⟩])) := by
    decide +kernel
  obtain ⟨result, hresult, hlog⟩ := Option.map_eq_some_iff.mp hchange
  cases result with
  | error e => cases hlog
  | ok x =>
    obtain ⟨g', todo⟩ := x
    exact ⟨_, ⟨.receive rfl rfl, .exclusive set_calls_self rfl rfl hresult, trivial⟩,
      Option.some.inj hlog⟩

theorem moves_are_of_owners_iff_botDuel : ∃ w', Along OwnersMove botDuelWorld
    [(.receive 1, botDuelWorld.set 1 (.makeMove (some 7) 7 0 0 "top") .started),
      (.exclusive 1, w')] := by
  obtain ⟨w', hrun, -⟩ := exists_exclusive_move .byInsertion (some 7)
  refine ⟨w', (moves_are_of_owners_iff (created_botDuelWorld _) hrun).mpr ⟨?_, ?_, trivial⟩⟩
  · rintro i session playerID row col name stage (h | h) <;> cases h
  · rintro i session playerID row col name stage (h | h) hcall
    · cases h
    · cases h
      rw [set_calls_self] at hcall
      cases hcall
      exact ⟨rfl, by omega⟩

/-- A request with the session of another user moves for the human. -/
theorem stranger_moves : Created .byInsertion 10000 botDuelWorld ∧
    ∃ run, Along (Step .byInsertion 10000) botDuelWorld run ∧ ¬ Along OwnersMove botDuelWorld run := by
  obtain ⟨w', hrun, hlog⟩ := exists_exclusive_move .byInsertion (some 8)
  refine ⟨created_botDuelWorld _, _, hrun, fun howners => ?_⟩
  obtain ⟨i, userID, _, _, _, _, _, hi, hcall, -, hseat⟩ | ⟨i, userID, _, hi, hcall, -⟩ :=
    howners.2.1 _ hlog ⟨0, 0, 0, "top"⟩ List.mem_cons_self
  · cases hi
    rw [set_calls_self] at hcall
    cases hcall
    revert hseat
    decide +kernel
  · cases hi
    rw [set_calls_self] at hcall
    cases hcall

end World

def Task.player : Task → Option ℤ
  | .makeMove _ playerID _ _ _ => some playerID
  | .forfeit userID => some userID
  | _ => none

/-- A request that has neither taken effect nor left anything to do. A forfeit may be prepared. -/
def Stage.Repelled (task : Task) : Stage → Prop
  | .started => True
  | .loaded _ _ => True
  | .changed _ _ _ => ∃ userID, task = .forfeit userID
  | .finishing answer todo => answer ≠ .done ∧ todo = []
  | _ => False

namespace World

variable {w w' : World} {act : Act}

/-- The player has no seat. -/
def Outsider (playerID : ℤ) (w : World) : Prop := ∀ turn, w.userAt turn ≠ some playerID

/-- If a request for an outsider takes the step, then nothing else changes, and it does not
succeed. -/
def Repels (w : World) (act : Act) (w' : World) : Prop :=
  ∀ i task stage playerID, act.call = some i → w.calls i = some ⟨task, stage⟩ →
    task.player = some playerID → w.Outsider playerID →
    ∃ stage', w' = w.set i task stage' ∧ ∀ todo, stage' ≠ .finishing .done todo

def MembersForfeit (w : World) (act : Act) (_ : World) : Prop :=
  ∀ i userID stage, act = .append i ∨ act = .exclusive i →
    w.calls i = some ⟨.forfeit userID, stage⟩ → ¬ w.Outsider userID

/-- The call can go on to its refusal by itself, and nothing else changes. -/
def Refuses (db : Database) (gameID : ℤ) (i : ℕ) (task : Task) (w : World) : Prop :=
  ∃ e, Leads (fun w act w' => Step db gameID w act w' ∧ act.call = some i) w
    (w.set i task (.finishing (.refused e) []))

structure Guarded (db : Database) (gameID : ℤ) (roster : List Player) (n : ℕ) (w : World) : Prop
    extends w.Coherent db gameID roster n where
  repelled : ∀ i task stage playerID, w.calls i = some ⟨task, stage⟩ →
    task.player = some playerID → w.Outsider playerID → stage.Repelled task

theorem outsider_of_log {playerID : ℤ} {created : GameCreatedPayload} {rest : List Payload}
    (hlog : w.log = .gameCreated created :: rest)
    (h : ∀ player ∈ created.players, player.userID ≠ some playerID) : w.Outsider playerID := by
  intro turn hturn
  rw [userAt, hlog] at hturn
  obtain ⟨player, hplayer, huser⟩ := Option.bind_eq_some_iff.mp hturn
  exact h player (mem_of_at? hplayer) huser

theorem Coherent.seatOf_of_outsider (h : w.Coherent db gameID roster n) (hseat : Seated roster)
    (hg : Shaped roster n g) {playerID : ℤ} (hout : w.Outsider playerID) :
    g.seatOf playerID = none := by
  by_contra hsome
  obtain ⟨turn, hturn⟩ := Option.ne_none_iff_exists'.mp hsome
  apply hout turn
  rw [h.userAt]
  exact hg.seatOf hseat hturn

theorem Coherent.change_of_outsider (h : w.Coherent db gameID roster n) (hseat : Seated roster)
    (hg : Shaped roster n g) {isBotGame : Bool} {task : Task} {todo : List Effect} {playerID : ℤ}
    (hplayer : task.player = some playerID) (hout : w.Outsider playerID)
    (hchange : task.change isBotGame now g = some (.ok (g', todo))) : task = .forfeit playerID := by
  cases Task.change_eq_ok hchange with
  | move hturn =>
    cases hplayer
    rw [h.seatOf_of_outsider hseat hg hout] at hturn
    cases hturn
  | pass => cases hplayer
  | forfeit =>
    cases hplayer
    rfl
  | grace => cases hplayer

theorem atLast_of_player {task : Task} {playerID : ℤ} (h : task.player = some playerID) :
    task.atLast = [] := by
  cases task <;> first | rfl | cases h

/-- What a request for an outsider does by itself leads to a stage of a request that was
repelled. -/
theorem Guarded.advance (h : w.Guarded db gameID roster n) (hseat : Seated roster) {i : ℕ}
    {task : Task} {stage stage' : Stage} {playerID : ℤ} (hcall : w.calls i = some ⟨task, stage⟩)
    (hplayer : task.player = some playerID) (hout : w.Outsider playerID)
    (hadvance : Advance db gameID w task stage stage') : stage'.Repelled task := by
  have hrepelled := h.repelled i task stage playerID hcall hplayer hout
  have hlast := atLast_of_player hplayer
  cases hadvance with
  | malformed => exact ⟨Answer.noConfusion, rfl⟩
  | load => trivial
  | unreadable => exact ⟨Answer.noConfusion, hlast⟩
  | refuse => exact ⟨Answer.noConfusion, hlast⟩
  | @apply base g g' todo hchange =>
    have hfetched : Fetched db gameID roster n base g := h.calls i task _ hcall
    exact ⟨playerID, h.change_of_outsider hseat hfetched.shaped hplayer hout hchange⟩
  | excluded => exact ⟨Answer.noConfusion, hlast⟩
  | notKicked => cases hrepelled.2
  | check => exact hrepelled.elim

/-- A step of a request for an outsider leads to a stage of a request that was repelled. -/
theorem Guarded.repel (h : w.Guarded db gameID roster n) (hseat : Seated roster)
    (hstep : Step db gameID w act w') (hmembers : MembersForfeit w act w') {i : ℕ} {task : Task}
    {stage : Stage} {playerID : ℤ} (hact : act.call = some i)
    (hcall : w.calls i = some ⟨task, stage⟩) (hplayer : task.player = some playerID)
    (hout : w.Outsider playerID) : ∃ stage', w' = w.set i task stage' ∧ stage'.Repelled task := by
  have hrepelled := h.repelled i task stage playerID hcall hplayer hout
  have hlast := atLast_of_player hplayer
  cases hstep with
  | elapse => cases hact
  | disconnect => cases hact
  | reconnect => cases hact
  | receive => cases hact
  | tick => cases hact
  | graceOver => cases hact
  | advance hcall' hadvance =>
    cases hact
    cases hcall.symm.trans hcall'
    exact ⟨_, rfl, h.advance hseat hcall hplayer hout hadvance⟩
  | fail hcall' hfails =>
    cases hact
    cases hcall.symm.trans hcall'
    refine ⟨_, rfl, ?_⟩
    cases hfails with
    | load => exact ⟨Answer.noConfusion, hlast⟩
    | append => exact ⟨Answer.noConfusion, hlast⟩
    | updateProjection => cases hrepelled.2
  | append hcall' =>
    cases hact
    cases hcall.symm.trans hcall'
    obtain ⟨userID, rfl⟩ := hrepelled
    cases hplayer
    exact absurd hout (hmembers i playerID _ (.inl rfl) hcall)
  | exclusive hcall' _ hstore hchange =>
    cases hact
    cases hcall.symm.trans hcall'
    have hg := (h.botGame hstore).shaped
    obtain rfl := h.change_of_outsider hseat hg hplayer hout hchange
    exact absurd hout (hmembers i playerID _ (.inr rfl) hcall)
  | effect hcall' =>
    cases hact
    cases hcall.symm.trans hcall'
    cases hrepelled.2
  | kick hcall' =>
    cases hact
    cases hcall.symm.trans hcall'
    cases hrepelled.2
  | wake hcall' =>
    cases hact
    cases hcall.symm.trans hcall'
    exact hrepelled.elim
  | publish hcall' =>
    cases hact
    cases hcall.symm.trans hcall'
    exact hrepelled.elim

theorem Guarded.repels (h : w.Guarded db gameID roster n) (hseat : Seated roster)
    (hstep : Step db gameID w act w') (hmembers : MembersForfeit w act w') :
    Repels w act w' := by
  intro i task stage playerID hact hcall hplayer hout
  obtain ⟨stage', hw', hrepelled⟩ := h.repel hseat hstep hmembers hact hcall hplayer hout
  refine ⟨stage', hw', ?_⟩
  rintro todo rfl
  exact hrepelled.1 rfl

theorem membersForfeit_of_repels (hstep : Step db gameID w act w') (hrepels : Repels w act w') :
    MembersForfeit w act w' := by
  rintro i userID stage hact hcall hout
  have hactCall : act.call = some i := by
    rcases hact with rfl | rfl <;> rfl
  obtain ⟨stage', hw', hnot⟩ := hrepels i _ stage userID hactCall hcall rfl hout
  have hstage : w'.calls i = some ⟨.forfeit userID, stage'⟩ := by rw [hw', set_calls_self]
  rcases hact with rfl | rfl
  · cases hstep with
    | append =>
      rw [set_calls_self] at hstage
      cases hstage
      exact hnot _ rfl
  · cases hstep with
    | exclusive =>
      rw [set_calls_self] at hstage
      cases hstage
      exact hnot _ rfl

theorem Guarded.step (h : w.Guarded db gameID roster n) (hk : 0 < roster.length)
    (hseat : Seated roster) (hstep : Step db gameID w act w')
    (hmembers : MembersForfeit w act w') : w'.Guarded db gameID roster n := by
  have hcoherent := h.toCoherent.step hk hseat hstep
  constructor
  · exact hcoherent
  · intro j task stage playerID hcall hplayer hout
    have hsame : w.Outsider playerID := by
      intro turn
      rw [h.userAt, ← hcoherent.userAt]
      exact hout turn
    by_cases hact : act.call = some j
    · obtain ⟨task', before, after, hbefore, hafter⟩ := hstep.task hact
      cases hcall.symm.trans hafter
      obtain ⟨stage', rfl, hrepelled⟩ := h.repel hseat hstep hmembers hact hbefore hplayer hsame
      rw [set_calls_self] at hcall
      cases hcall
      exact hrepelled
    · rcases hstep.calls hact with heq | ⟨-, job, hstarts, heq⟩
      · exact h.repelled j task stage playerID (heq ▸ hcall) hplayer hsame
      · cases hcall.symm.trans heq
        cases hstarts with
        | receive => trivial
        | tick => cases hplayer
        | graceOver => cases hplayer
        | kick => cases hplayer

theorem Coherent.refuses_move (h : w.Coherent db gameID roster n) (hk : 0 < roster.length)
    (hseat : Seated roster) {i : ℕ} {session : Option ℤ} {playerID row col : ℤ} {name : String}
    (hcall : w.calls i = some ⟨.makeMove session playerID row col name, .started⟩)
    (hout : w.Outsider playerID) :
    w.Refuses db gameID i (.makeMove session playerID row col name) := by
  cases hedge : (Task.makeMove session playerID row col name).edgeError with
  | some e => exact ⟨e, [(.advance i, _)], ⟨⟨.advance hcall (.malformed hedge), rfl⟩, trivial⟩, rfl⟩
  | none =>
    have hrefused {g : Game} (hg : Shaped roster n g) (isBotGame : Bool) :
        ∃ e, (Task.makeMove session playerID row col name).change isBotGame w.now g =
          some (.error e) := by
      have hnone := h.seatOf_of_outsider hseat hg hout
      simp only [Task.edgeError] at hedge
      cases hparse : parseEdge name with
      | error e => simp [hparse] at hedge
      | ok edge =>
        cases isBotGame <;>
          exact ⟨_, by simp [Task.change, hparse, makeMoveRequest, Game.makeMove, hnone]; rfl⟩
    cases hstore : w.store with
    | bot g =>
      obtain ⟨e, he⟩ := hrefused (h.botGame hstore).shaped true
      exact ⟨e, [(.advance i, _)], ⟨⟨.advance hcall (.excluded hedge hstore he), rfl⟩, trivial⟩,
        rfl⟩
    | persisted rows projection =>
      obtain ⟨g, hfetched⟩ := (h.intact hstore).fetched hk db
      obtain ⟨e, he⟩ := hrefused hfetched.shaped false
      refine ⟨e, [(.advance i, w.set i _ (.loaded rows g)), (.advance i, _)],
        ⟨⟨.advance hcall (.load hedge hstore hfetched.found), rfl⟩,
          ⟨.advance set_calls_self (.refuse he), rfl⟩, trivial⟩, ?_⟩
      simp [last, World.set, Task.atLast]

/-- The requests for outsiders are all repelled exactly when no forfeit of an outsider takes
effect, and a move request for an outsider never fails to be refused. -/
theorem outsiders_are_repelled_iff (h : Created db gameID w) {run : List (Act × World)}
    (hrun : Along (Step db gameID) w run) :
    (Along Repels w run ↔ Along MembersForfeit w run) ∧
      ∀ i session playerID row col name,
        (last w run).calls i = some ⟨.makeMove session playerID row col name, .started⟩ →
        (last w run).Outsider playerID →
        (last w run).Refuses db gameID i (.makeMove session playerID row col name) := by
  obtain ⟨n, roster, -, hk, hseat, hcoherent⟩ := h.coherent
  have hpos : 0 < roster.length := by omega
  constructor
  · have hguarded : w.Guarded db gameID roster n := by
      constructor
      · exact hcoherent
      · intro i task stage playerID hcall hplayer
        obtain ⟨todo, heq⟩ := h.calls
        rw [heq] at hcall
        obtain ⟨rfl, rfl, rfl⟩ := eq_of_creating hcall
        cases hplayer
    apply along_good_iff (fun w => w.Guarded db gameID roster n) hrun hguarded
    · intro w act w' hw hstep
      exact ⟨membersForfeit_of_repels hstep, hw.repels hseat hstep⟩
    · intro w act w' hw hstep hmembers
      exact hw.step hpos hseat hstep hmembers
  · intro i session playerID row col name hcall hout
    exact (hcoherent.run hpos hseat hrun).refuses_move hpos hseat hcall hout

theorem outsider_botDuelWorld : botDuelWorld.Outsider 8 := by
  have hlog : ∃ created rest, botDuelWorld.log = .gameCreated created :: rest ∧
      ∀ player ∈ created.players, player.userID ≠ some 8 := ⟨_, _, rfl, by decide +kernel⟩
  obtain ⟨created, rest, hlog, hplayers⟩ := hlog
  exact outsider_of_log hlog hplayers

theorem outsiders_are_repelled_iff_botDuel : Along Repels botDuelWorld
      [(.receive 1, botDuelWorld.set 1 (.makeMove (some 8) 8 0 0 "top") .started)] ∧
    Refuses .byInsertion 10000 1 (.makeMove (some 8) 8 0 0 "top")
      (botDuelWorld.set 1 (.makeMove (some 8) 8 0 0 "top") .started) := by
  have hrun : Along (Step .byInsertion 10000) botDuelWorld
      [(.receive 1, botDuelWorld.set 1 (.makeMove (some 8) 8 0 0 "top") .started)] :=
    ⟨.receive rfl rfl, trivial⟩
  obtain ⟨hiff, hrefuses⟩ := outsiders_are_repelled_iff (created_botDuelWorld _) hrun
  constructor
  · refine hiff.mpr ⟨?_, trivial⟩
    rintro i userID stage (h | h) <;> cases h
  · exact hrefuses 1 (some 8) 8 0 0 "top" set_calls_self outsider_botDuelWorld

/-- A forfeit of a user who has no seat ends the game of the human against the bot. -/
theorem outsider_forfeits : Created .byInsertion 10000 botDuelWorld ∧
    ∃ run, Along (Step .byInsertion 10000) botDuelWorld run ∧
      (last botDuelWorld run).store.ended = true ∧ ¬ Along Repels botDuelWorld run := by
  have hchange : ((Task.forfeit 8).change true 0 botDuelGame).map
      (fun result => result.toOption.map fun x => x.1.hasEnded) = some (some true) := by
    decide +kernel
  obtain ⟨result, hresult, hended⟩ := Option.map_eq_some_iff.mp hchange
  cases result with
  | error e => cases hended
  | ok x =>
    obtain ⟨g', todo⟩ := x
    refine ⟨created_botDuelWorld _,
      [(.receive 1, botDuelWorld.set 1 (.forfeit 8) .started), (.exclusive 1, _)],
      ⟨.receive rfl rfl, .exclusive set_calls_self rfl rfl hresult, trivial⟩,
      Option.some.inj hended, fun hrepels => ?_⟩
    obtain ⟨stage', hw', hnot⟩ :=
      hrepels.2.1 1 (.forfeit 8) .started 8 rfl set_calls_self rfl outsider_botDuelWorld
    have hstage := congrArg (fun w => w.calls 1) hw'
    simp only [set_calls_self, Option.some.injEq, Job.mk.injEq, true_and] at hstage
    exact hnot todo hstage.symm

end World

end DotsAndBoxes
