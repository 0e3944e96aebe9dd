import DotsAndBoxes.Service.Coherence
import DotsAndBoxes.Service.Pending

/-! # The timer of a game

A human's move, a pass or a forfeit that ends a game stops its timer. A bot loop that ends one
does not, and the end of a grace period stops the timer even if the forfeit has failed. Where
nothing of this kind happens, every game that rests has a timer exactly while it goes on.
-/

namespace DotsAndBoxes

open Slices Enclosure Runs Game

variable {n : ℕ} {roster : List Player} {g g' : Game} {now : Time} {db : Database} {gameID : ℤ}
  {task : Task} {todo : List Effect}

def Game.OneLeft (g : Game) : Prop :=
  (g.claimed g.boardSize.toNat).card + 1 = 2 * g.boardSize.toNat * (g.boardSize.toNat + 1)

theorem BotRound.oneLeft {pos : BoardPosition n roster.length} (h : Tracks roster n g pos)
    {woken : Woken} (hround : BotRound now g woken) (hrun : g.hasEnded = false)
    (hended : (woken.game g).hasEnded = true) : g.OneLeft ∧ g.botToMove = true := by
  cases hround with
  | idle =>
    have hsame : g.hasEnded = true := hended
    rw [hrun] at hsame
    cases hsame
  | @moved player userID move g' result _ hplayer huser hbot _ _ _ hmove =>
    have hsize : g.boardSize.toNat = n := by
      rw [h.toRepresents.shaped.boardSize]
      exact Int.toNat_natCast n
    constructor
    · rw [OneLeft, hsize]
      exact h.last_of_ended hmove hended
    · simp [botToMove, hrun, hplayer, huser, hbot]

namespace World

variable {w w' : World} {act : Act}

/-- A step that leaves its timer to a game that has ended, or takes it from one that goes on. -/
inductive ClockFault (w : World) : Act → Prop where
  /-- A bot claims the last segment of a game that has a timer. -/
  | botEnds {i : ℕ} {g : Game} : w.store = .bot g → w.timer.isSome = true →
      g.botToMove = true → g.OneLeft → ClockFault w (.wake i)
  /-- The forfeit after a grace period has failed, and its game goes on. -/
  | stopsRunning {i : ℕ} {task : Task} {answer : Answer} {rest : List Effect} :
      w.calls i = some ⟨task, .finishing answer (.stopAfterGrace :: rest)⟩ →
      w.timer.isSome = true → w.store.ended = false → ClockFault w (.effect i)
  /-- The game has ended before its timer starts, and its timer has been stopped. -/
  | startsLate {i : ℕ} {g : Game} {rest : List Effect} :
      w.owed i = .startTimer g :: rest → w.store.ended = true →
      ¬ w.Owes .stopTimer → ClockFault w (.effect i)

/-- A timer that should not be there is about to be stopped, and one that should be there is
about to be started. -/
structure Clocked (db : Database) (gameID : ℤ) (roster : List Player) (n : ℕ) (w : World) : Prop
    extends w.Coherent db gameID roster n where
  ended : w.store.ended = true → w.timer = none ∨ w.Owes .stopTimer
  running : w.store.ended = false → w.timer.isSome = true ∨
    ∃ g, w.Owes (.startTimer g)
  stopping : w.Owes .stopTimer → w.store.ended = true

/-- A step that changes neither whether the game has ended nor what is owed nor whether there is
a timer. -/
theorem Clocked.congr (h : w.Clocked db gameID roster n) (hw : w'.Coherent db gameID roster n)
    (hstore : w'.store.ended = w.store.ended) (htimer : w'.timer.isSome = w.timer.isSome)
    (howed : w'.owed = w.owed) : w'.Clocked db gameID roster n := by
  constructor
  · exact hw
  · intro hended
    rw [hstore] at hended
    rcases h.ended hended with hnone | howes
    · rw [hnone] at htimer
      exact .inl (Option.isSome_eq_false_iff.mp htimer |> Option.isNone_iff_eq_none.mp)
    · exact .inr (howes.congr howed)
  · intro hrun
    rw [hstore] at hrun
    rcases h.running hrun with hsome | ⟨g, howes⟩
    · exact .inl (htimer.trans hsome)
    · exact .inr ⟨g, howes.congr howed⟩
  · intro howes
    rw [hstore]
    exact h.stopping (howes.congr howed.symm)

theorem Clocked.changed (h : w.Clocked db gameID roster n) (hw : w'.Coherent db gameID roster n)
    {i : ℕ} {final : Bool} (hstore : w'.store.ended = (w.store.ended || final))
    (hstops : .stopTimer ∈ todo ↔ final = true) (htimer : w'.timer = w.timer)
    (hnothing : w.owed i = [])
    (howed : w'.owed = Function.update w.owed i (todo.filter Effect.essential)) :
    w'.Clocked db gameID roster n := by
  have howes (e : Effect) := owes_iff_of_changed (e := e) hnothing howed
  have hstop : w'.Owes .stopTimer ↔ final = true ∨ w.Owes .stopTimer := by
    rw [howes, List.mem_filter, ← hstops]
    simp [Effect.essential]
  constructor
  · exact hw
  · intro hended
    rw [hstore, Bool.or_eq_true] at hended
    rw [htimer, hstop]
    rcases hended with hended | hfinal
    · rcases h.ended hended with hnone | howes
      · exact .inl hnone
      · exact .inr (.inr howes)
    · exact .inr (.inl hfinal)
  · intro hrun
    rw [hstore, Bool.or_eq_false_iff] at hrun
    rw [htimer]
    rcases h.running hrun.1 with hsome | ⟨g, howes'⟩
    · exact .inl hsome
    · exact .inr ⟨g, (howes _).mpr (.inr howes')⟩
  · intro howes'
    rw [hstore, Bool.or_eq_true]
    rcases hstop.mp howes' with hfinal | howes'
    · exact .inr hfinal
    · exact .inl (h.stopping howes')

theorem Clocked.carried (h : w.Clocked db gameID roster n) (hw : w'.Coherent db gameID roster n)
    {i : ℕ} {e : Effect} {rest : List Effect} (hi : w.owed i = e :: rest)
    (hstop : e ≠ .stopTimer) (hstart : ∀ g, e ≠ .startTimer g)
    (hstore : w'.store.ended = w.store.ended) (htimer : w'.timer = w.timer)
    (howed : w'.owed = Function.update w.owed i rest) : w'.Clocked db gameID roster n := by
  constructor
  · exact hw
  · intro hended
    rw [hstore] at hended
    rw [htimer]
    rcases h.ended hended with hnone | howes
    · exact .inl hnone
    · exact .inr ((howes.carried hi howed).resolve_left (Ne.symm hstop))
  · intro hrun
    rw [hstore] at hrun
    rw [htimer]
    rcases h.running hrun with hsome | ⟨g, howes⟩
    · exact .inl hsome
    · exact .inr ⟨g, (howes.carried hi howed).resolve_left (Ne.symm (hstart g))⟩
  · intro howes
    rw [hstore]
    exact h.stopping (howes.before hi howed)

theorem perform_ended (e : Effect) : (w.perform db gameID e).store.ended = w.store.ended := by
  cases e <;> simp only [perform]
  case updateProjection g => cases hstore : w.store <;> simp [Store.ended, hstore]
  case publishIfOver =>
    cases hstore : w.store with
    | persisted rows projection => simp [hstore]
    | bot g => by_cases hended : g.hasEnded = true <;> simp [hended, hstore]

theorem Clocked.wake (h : w.Clocked db gameID roster n) (hw : w'.Coherent db gameID roster n)
    {woken : Woken} (hround : BotRound now g woken) (hstore : w.store = .bot g)
    (hstore' : w'.store = .bot (woken.game g)) (htimer : w'.timer = w.timer)
    (howed : w'.owed = w.owed)
    (hnone : w.timer.isSome = true → g.botToMove = true → ¬ g.OneLeft) :
    w'.Clocked db gameID roster n := by
  have hended : w.store.ended = g.hasEnded := by rw [hstore, Store.ended]
  have hended' : w'.store.ended = (woken.game g).hasEnded := by rw [hstore', Store.ended]
  by_cases hsame : (woken.game g).hasEnded = g.hasEnded
  · exact h.congr hw (by rw [hended', hended, hsame]) (congrArg Option.isSome htimer) howed
  obtain ⟨hrun, hover⟩ : g.hasEnded = false ∧ (woken.game g).hasEnded = true := by
    cases hround with
    | idle => exact absurd rfl hsame
    | moved hopen =>
      have hrun : g.hasEnded = false := by simp [hasEnded, hopen]
      rw [hrun] at hsame
      exact ⟨hrun, Bool.eq_true_of_not_eq_false hsame⟩
  obtain ⟨pos, hlive⟩ := (h.botGame hstore).live
  obtain ⟨hleft, hbot⟩ := hround.oneLeft hlive.toTracks hrun hover
  have hstopped : w.timer = none := by
    by_contra hsome
    exact hnone (Option.isSome_iff_ne_none.mpr hsome) hbot hleft
  rw [hover] at hended'
  constructor
  · exact hw
  · exact fun _ => .inl (htimer.trans hstopped)
  · intro hrunning
    rw [hended'] at hrunning
    cases hrunning
  · exact fun _ => hended'

theorem Clocked.step (h : w.Clocked db gameID roster n) (hk : 0 < roster.length)
    (hseat : Seated roster) (hstep : Step db gameID w act w') (hfault : ¬ ClockFault w act) :
    w'.Clocked db gameID roster n := by
  have hw := h.toCoherent.step hk hseat hstep
  cases hstep.does with
  | aside hstore htimer howed => exact h.congr hw (congrArg Store.ended hstore) htimer howed
  | updateProjection _ hi hstore htimer howed =>
    have hended : w'.store.ended = w.store.ended := by
      rw [hstore]
      exact perform_ended _
    exact h.carried hw hi Effect.noConfusion (fun _ => Effect.noConfusion) hended htimer howed
  | failProjection hi hstore htimer howed =>
    exact h.carried hw hi Effect.noConfusion (fun _ => Effect.noConfusion)
      (congrArg Store.ended hstore) htimer howed
  | @stopTimer i rest _ hi hstore htimer howed =>
    have hended : w'.store.ended = true := by
      rw [hstore]
      exact h.stopping ⟨i, hi ▸ List.mem_cons_self⟩
    constructor
    · exact hw
    · exact fun _ => .inl htimer
    · intro hrun
      rw [hended] at hrun
      cases hrun
    · exact fun _ => hended
  | startTimer hi hstore htimer howed =>
    constructor
    · exact hw
    · intro hended
      rw [hstore] at hended
      have howes : w.Owes .stopTimer := by
        by_contra hnot
        exact hfault (.startsLate hi hended hnot)
      exact .inr ((howes.carried hi howed).resolve_left Effect.noConfusion)
    · exact fun _ => .inl htimer
    · intro howes
      rw [hstore]
      exact h.stopping (howes.before hi howed)
  | stopAfterGrace hcall hstore htimer howed =>
    constructor
    · exact hw
    · exact fun _ => .inl htimer
    · intro hrun
      rw [hstore] at hrun
      rcases h.running hrun with hsome | ⟨g, howes⟩
      · exact absurd (.stopsRunning hcall hsome hrun) hfault
      · exact .inr ⟨g, howes.congr howed⟩
    · intro howes
      rw [hstore]
      exact h.stopping (howes.congr howed.symm)
  | @append i task base rows projection g' todo _ hcall hstore hstore' htimer howed =>
    have hprepared : Prepared db gameID roster n task base g' todo := h.calls i task _ hcall
    obtain ⟨g, first, -, -, -, -, hstops⟩ := hprepared.recording
    apply h.changed hw _ hstops htimer (owed_of_calls hcall) howed
    rw [hstore, hstore']
    exact ((h.intact hstore).appendPrepared hprepared).2
  | @exclusive i task g g' todo _ hcall hstore hchange hstore' htimer howed =>
    obtain ⟨first, -, hchanges, hstops⟩ :=
      (Task.change_eq_ok hchange).changes (h.botGame hstore).shaped
    apply h.changed hw _ hstops htimer (owed_of_calls hcall) howed
    rw [hstore, hstore', Store.ended, Store.ended, hchanges.running, Bool.false_or]
  | wake hstore hwake hstore' htimer howed =>
    apply h.wake hw ((h.botGame hstore).botRound hseat hwake) hstore hstore' htimer howed
    exact fun hsome hbot hleft => hfault (.botEnds hstore hsome hbot hleft)

theorem Created.clocked (h : Created db gameID w) : ∃ (n : ℕ) (roster : List Player),
    0 < roster.length ∧ Seated roster ∧ w.Clocked db gameID roster n := by
  obtain ⟨n, roster, g, hw⟩ := h.begins
  have hk := hw.count
  obtain ⟨started, todo, hcalls, howed⟩ : ∃ started todo, w.calls = creating todo ∧
      (Stage.finishing .done todo).owes = [.startTimer started] := by
    rcases hw.kind with ⟨-, hcalls⟩ | ⟨_, _, -, -, hcalls⟩
    · exact ⟨_, _, hcalls, rfl⟩
    · exact ⟨_, _, hcalls, rfl⟩
  refine ⟨n, roster, by omega, hw.seated, hw.coherent, fun _ => .inl hw.timer, fun _ => .inr ?_, ?_⟩
  · refine ⟨started, 0, ?_⟩
    have hcall : w.calls 0 = some ⟨.create, .finishing .done todo⟩ := by
      rw [hcalls, creating, Function.update_self]
    rw [owed_of_calls hcall, howed]
    exact List.mem_singleton_self _
  · intro howes
    obtain ⟨i, task, stage, hcall, he⟩ := howes.call
    rw [hcalls] at hcall
    obtain ⟨-, -, rfl⟩ := eq_of_creating hcall
    rw [howed] at he
    cases List.mem_singleton.mp he

/-- While no step is a fault, a game that rests has a timer exactly while it goes on. -/
theorem timer_iff_running (h : Created db gameID w) {run : List (Act × World)}
    (hrun : Along (Step db gameID) w run) (hfaults : Along (fun w act _ => ¬ ClockFault w act) w run)
    (hidle : (last w run).Idle) :
    ∃ g, (last w run).game db gameID = some g ∧
      ((last w run).timer.isSome = true ↔ g.hasEnded = false) := by
  obtain ⟨n, roster, hk, hseat, hw⟩ := h.clocked
  have hlast : (last w run).Clocked db gameID roster n :=
    (hrun.and hfaults).inv_last hw fun _ _ _ hw hstep => hw.step hk hseat hstep.1 hstep.2
  have hnothing := hidle.not_owes
  obtain ⟨g, hg, -, hended⟩ := hlast.toCoherent.game hk
  refine ⟨g, hg, ?_⟩
  rw [hended]
  constructor
  · intro hsome
    by_contra hover
    rcases hlast.ended (Bool.eq_true_of_not_eq_false hover) with hnone | howes
    · rw [hnone] at hsome
      cases hsome
    · exact hnothing _ howes
  · intro hrunning
    rcases hlast.running hrunning with hsome | ⟨_, howes⟩
    · exact hsome
    · exact absurd howes (hnothing _)

/-- The step is of no bot, stops no timer after a grace period, and starts none for a game that
has ended. -/
def keepsClock (w : World) : Act → Bool
  | .wake _ => false
  | .effect i =>
    (match w.calls i with
    | some ⟨_, .finishing _ (.stopAfterGrace :: _)⟩ => false
    | _ => true) &&
    (match w.owed i with
    | .startTimer _ :: _ => !w.store.ended
    | _ => true)
  | _ => true

theorem not_clockFault_of_keepsClock (h : w.keepsClock act = true) : ¬ ClockFault w act := by
  intro hfault
  cases hfault with
  | botEnds => cases h
  | stopsRunning hcall =>
    rw [keepsClock, hcall] at h
    cases h
  | startsLate howed hended =>
    rw [keepsClock, howed, hended] at h
    simp at h

/-- A player moves, and the other one forfeits. -/
theorem timer_iff_running_duel : ∃ run,
    duelWorld.play .byInsertion 1 .first 3 moveThenForfeit = some run ∧
      ∃ g, (last duelWorld run).game .byInsertion 1 = some g ∧ g.hasEnded = true ∧
        ((last duelWorld run).timer.isSome = true ↔ g.hasEnded = false) := by
  have hsome : ((duelWorld.play .byInsertion 1 .first 3 moveThenForfeit).map fun run =>
      (decide (Along (fun w act _ => w.keepsClock act = true) duelWorld run),
        (last duelWorld run).returnedBelow 3,
        ((last duelWorld run).game .byInsertion 1).all Game.hasEnded)) =
      some (true, true, true) := by
    decide +kernel
  obtain ⟨run, hplay, hlast⟩ := Option.map_eq_some_iff.mp hsome
  obtain ⟨hkeeps, hreturned, hended⟩ := by simpa only [Prod.mk.injEq] using hlast
  have hnumbered := numbered_duelWorld (m := 3) (by omega)
  have hfaults : Along (fun w act _ => ¬ ClockFault w act) duelWorld run :=
    (of_decide_eq_true hkeeps).imp fun _ _ _ => not_clockFault_of_keepsClock
  obtain ⟨g, hg, htimer⟩ := timer_iff_running created_duelWorld (along_play hnumbered hplay) hfaults
    ((hnumbered.play hplay).idle hreturned)
  rw [hg] at hended
  exact ⟨run, hplay, g, hg, by simpa using hended, htimer⟩

/-- The timer passes the turn while a player is gone, and then the forfeit is not appended. -/
def lostForfeit : List Order :=
  let pass (i : ℕ) : List Order :=
    [.elapse (turnTimeLimit + 1), .tick i, .go i, .go i, .go i, .go i, .go i, .go i]
  [.go 0, .go 0, .disconnect 7] ++ pass 1 ++ pass 2 ++ pass 3 ++ pass 4 ++ pass 5 ++
    [.elapse turnTimeLimit, .graceOver 6 7, .go 6, .go 6, .fail 6, .go 6]

/-- A game that goes on has lost its timer. -/
theorem running_without_timer : Created .byInsertion 1 duelWorld ∧
    ∃ run, Along (Step .byInsertion 1) duelWorld run ∧ (last duelWorld run).Idle ∧
      (last duelWorld run).timer = none ∧
      ∃ g, (last duelWorld run).game .byInsertion 1 = some g ∧ g.hasEnded = false := by
  have hsome : ((duelWorld.play .byInsertion 1 .first 7 lostForfeit).map fun run =>
      ((last duelWorld run).returnedBelow 7, (last duelWorld run).timer.isSome,
        ((last duelWorld run).game .byInsertion 1).map Game.hasEnded)) =
      some (true, false, some false) := by
    decide +kernel
  obtain ⟨run, hplay, hlast⟩ := Option.map_eq_some_iff.mp hsome
  obtain ⟨hreturned, htimer, hgame⟩ := by simpa only [Prod.mk.injEq] using hlast
  have hnumbered := numbered_duelWorld (m := 7) (by omega)
  refine ⟨created_duelWorld, run, along_play hnumbered hplay,
    (hnumbered.play hplay).idle hreturned, by simpa using htimer, ?_⟩
  obtain ⟨g, hg, hrunning⟩ := Option.map_eq_some_iff.mp hgame
  exact ⟨g, hg, hrunning⟩

end World

end DotsAndBoxes
