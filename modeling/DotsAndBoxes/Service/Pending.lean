import DotsAndBoxes.Service.World

/-! # What calls have still to do

A call that has changed its game goes on to write the projection and to start or stop the
timer, while other calls run. What it has still to do of this, and what it does next to the
store and the timer, is all that matters for whether they keep up with the game.
-/

namespace DotsAndBoxes

variable {db : Database} {gameID : ℤ}

/-- The projection and the existence of the timer depend on the effect. -/
def Effect.essential : Effect → Bool
  | .updateProjection _ => true
  | .stopTimer => true
  | .startTimer _ => true
  | _ => false

def Stage.owes : Stage → List Effect
  | .finishing _ todo => todo.filter Effect.essential
  | _ => []

namespace World

variable {w w' : World} {act : Act} {i : ℕ} {task : Task} {stage : Stage}

section View

variable {α : Type} (view : Stage → List α)

def viewed (w : World) (i : ℕ) : List α := (w.calls i).elim [] (view ·.stage)

theorem viewed_of_calls (h : w.calls i = some ⟨task, stage⟩) : w.viewed view i = view stage := by
  rw [viewed, h]
  rfl

theorem viewed_eq_nil (h : w.calls i = none) : w.viewed view i = [] := by
  rw [viewed, h]
  rfl

theorem viewed_set :
    (w.set i task stage).viewed view = Function.update (w.viewed view) i (view stage) := by
  ext1 j
  by_cases hji : j = i
  · subst hji
    rw [Function.update_self, viewed_of_calls view set_calls_self]
  · rw [Function.update_of_ne hji, viewed, viewed, set_calls_of_ne hji]

theorem viewed_set_eq (h : view stage = w.viewed view i) :
    (w.set i task stage).viewed view = w.viewed view := by
  rw [viewed_set, h, Function.update_eq_self]

theorem viewed_perform (e : Effect) : (w.perform db gameID e).viewed view = w.viewed view := by
  ext1 j
  rw [viewed, viewed, perform_calls]

end View

def owed (w : World) (i : ℕ) : List Effect := (w.calls i).elim [] (·.stage.owes)

theorem owed_of_calls (h : w.calls i = some ⟨task, stage⟩) : w.owed i = stage.owes :=
  viewed_of_calls Stage.owes h

theorem owed_eq_nil (h : w.calls i = none) : w.owed i = [] := viewed_eq_nil Stage.owes h

@[simp] theorem owed_set : (w.set i task stage).owed = Function.update w.owed i stage.owes :=
  viewed_set Stage.owes

theorem owed_set_eq (h : stage.owes = w.owed i) : (w.set i task stage).owed = w.owed :=
  viewed_set_eq Stage.owes h

theorem owed_perform (e : Effect) : (w.perform db gameID e).owed = w.owed :=
  viewed_perform Stage.owes e

def Owes (e : Effect) (w : World) : Prop := ∃ i, e ∈ w.owed i

section Owes

variable {e e₀ : Effect} {rest todo : List Effect}

theorem Owes.congr (h : w.Owes e) (howed : w'.owed = w.owed) : w'.Owes e := by
  rwa [Owes, howed]

theorem Owes.carried (h : w.Owes e) (hw : w.owed i = e₀ :: rest)
    (howed : w'.owed = Function.update w.owed i rest) : e = e₀ ∨ w'.Owes e := by
  obtain ⟨j, hj⟩ := h
  by_cases hji : j = i
  · subst hji
    rw [hw] at hj
    rcases List.mem_cons.mp hj with rfl | hrest
    · exact .inl rfl
    · exact .inr ⟨j, by rwa [howed, Function.update_self]⟩
  · exact .inr ⟨j, by rwa [howed, Function.update_of_ne hji]⟩

theorem Owes.before (h : w'.Owes e) (hw : w.owed i = e₀ :: rest)
    (howed : w'.owed = Function.update w.owed i rest) : w.Owes e := by
  obtain ⟨j, hj⟩ := h
  rw [howed] at hj
  by_cases hji : j = i
  · subst hji
    rw [Function.update_self] at hj
    exact ⟨j, hw ▸ List.mem_cons_of_mem e₀ hj⟩
  · rw [Function.update_of_ne hji] at hj
    exact ⟨j, hj⟩

/-- A call that has changed its game owes what it is to do, besides all that was owed. -/
theorem owes_iff_of_changed (hw : w.owed i = []) (howed : w'.owed = Function.update w.owed i todo) :
    w'.Owes e ↔ e ∈ todo ∨ w.Owes e := by
  constructor
  · rintro ⟨j, hj⟩
    rw [howed] at hj
    by_cases hji : j = i
    · subst hji
      rw [Function.update_self] at hj
      exact .inl hj
    · rw [Function.update_of_ne hji] at hj
      exact .inr ⟨j, hj⟩
  · rintro (hmem | ⟨j, hj⟩)
    · exact ⟨i, by rwa [howed, Function.update_self]⟩
    · have hji : j ≠ i := by
        rintro rfl
        rw [hw] at hj
        cases hj
      exact ⟨j, by rwa [howed, Function.update_of_ne hji]⟩

theorem Owes.call (h : w.Owes e) :
    ∃ i task stage, w.calls i = some ⟨task, stage⟩ ∧ e ∈ stage.owes := by
  obtain ⟨i, hi⟩ := h
  cases hcall : w.calls i with
  | none =>
    rw [owed_eq_nil hcall] at hi
    cases hi
  | some job =>
    rw [owed_of_calls hcall] at hi
    exact ⟨i, job.task, job.stage, hcall, hi⟩

theorem Idle.not_owes (h : w.Idle) (e : Effect) : ¬ w.Owes e := by
  intro howes
  obtain ⟨i, task, stage, hcall, he⟩ := howes.call
  obtain ⟨answer, rfl⟩ := h i task stage hcall
  cases he

end Owes

/-- What a step does to the store and to the existence of the timer, and what it leaves for the
calls to do. -/
inductive Does (db : Database) (gameID : ℤ) (w : World) : Act → World → Prop where
  | aside {act : Act} {w' : World} : w'.store = w.store → w'.timer.isSome = w.timer.isSome →
      w'.owed = w.owed → Does db gameID w act w'
  | updateProjection {i : ℕ} {task : Task} {answer : Answer} {g : Game}
      {todo rest : List Effect} {w' : World} :
      w.calls i = some ⟨task, .finishing answer (.updateProjection g :: todo)⟩ →
      w.owed i = .updateProjection g :: rest →
      w'.store = (w.perform db gameID (.updateProjection g)).store → w'.timer = w.timer →
      w'.owed = Function.update w.owed i rest → Does db gameID w (.effect i) w'
  | failProjection {i : ℕ} {g : Game} {rest : List Effect} {w' : World} :
      w.owed i = .updateProjection g :: rest → w'.store = w.store → w'.timer = w.timer →
      w'.owed = Function.update w.owed i rest → Does db gameID w (.fail i) w'
  | stopTimer {i : ℕ} {rest : List Effect} {w' : World} : w.owed i = .stopTimer :: rest →
      w'.store = w.store → w'.timer = none → w'.owed = Function.update w.owed i rest →
      Does db gameID w (.effect i) w'
  | startTimer {i : ℕ} {g : Game} {rest : List Effect} {w' : World} :
      w.owed i = .startTimer g :: rest →
      w'.store = w.store → w'.timer.isSome = true → w'.owed = Function.update w.owed i rest →
      Does db gameID w (.effect i) w'
  | stopAfterGrace {i : ℕ} {task : Task} {answer : Answer} {rest : List Effect} {w' : World} :
      w.calls i = some ⟨task, .finishing answer (.stopAfterGrace :: rest)⟩ →
      w'.store = w.store → w'.timer = none → w'.owed = w.owed → Does db gameID w (.effect i) w'
  | append {i : ℕ} {task : Task} {base rows : List EventRow} {projection : Projection} {g : Game}
      {todo : List Effect} {w' : World} : w.calls i = some ⟨task, .changed base g todo⟩ →
      w.store = .persisted rows projection →
      w'.store = .persisted (db.appendEvents rows g.uncommittedEvents) projection →
      w'.timer = w.timer →
      w'.owed = Function.update w.owed i (todo.filter Effect.essential) →
      Does db gameID w (.append i) w'
  | exclusive {i : ℕ} {task : Task} {g g' : Game} {todo : List Effect} {w' : World} :
      w.calls i = some ⟨task, .started⟩ → w.store = .bot g →
      task.change true w.now g = some (.ok (g', todo)) →
      w'.store = .bot g' → w'.timer = w.timer →
      w'.owed = Function.update w.owed i (todo.filter Effect.essential) →
      Does db gameID w (.exclusive i) w'
  | wake {i : ℕ} {g : Game} {chance : Chance} {woken : Woken} {w' : World} :
      w.store = .bot g → g.wake chance w.now = some woken → w'.store = .bot (woken.game g) →
      w'.timer = w.timer → w'.owed = w.owed → Does db gameID w (.wake i) w'

theorem owes_atLast {answer : Answer} : (Stage.finishing answer task.atLast).owes = [] := by
  cases task <;> rfl

theorem owes_loopCheck (g : Game) : g.loopCheck.owes = [] := by
  unfold Game.loopCheck Game.loopEnd
  split
  · rfl
  · split
    · rfl
    · split <;> rfl

theorem owes_wokenStage (woken : Woken) (g : Game) : (woken.stage g).owes = [] := by
  cases woken <;> rfl

theorem Advance.owes {before after : Stage} (h : Advance db gameID w task before after) :
    after.owes = before.owes := by
  cases h with
  | malformed => rfl
  | load => rfl
  | unreadable => exact owes_atLast
  | refuse => exact owes_atLast
  | apply => rfl
  | excluded => exact owes_atLast
  | notKicked => rfl
  | check => exact owes_loopCheck _

theorem Step.does (h : Step db gameID w act w') : Does db gameID w act w' := by
  cases h with
  | elapse => exact .aside rfl rfl rfl
  | disconnect => exact .aside rfl Option.isSome_map rfl
  | reconnect => exact .aside rfl Option.isSome_map rfl
  | receive hfresh => exact .aside rfl rfl (owed_set_eq (owed_eq_nil hfresh).symm)
  | tick hfresh => exact .aside rfl rfl (owed_set_eq (owed_eq_nil hfresh).symm)
  | @graceOver i timer userID hfresh htimer =>
    refine .aside rfl ?_ (owed_set_eq (owed_eq_nil (w := { w with timer := _ }) hfresh).symm)
    rw [htimer]
    rfl
  | advance hcall hadvance =>
    exact .aside rfl rfl (owed_set_eq (hadvance.owes.trans (owed_of_calls hcall).symm))
  | @fail i task stage stage' hcall hfails =>
    cases hfails with
    | load => exact .aside rfl rfl (owed_set_eq (owes_atLast.trans (owed_of_calls hcall).symm))
    | append => exact .aside rfl rfl (owed_set_eq (owes_atLast.trans (owed_of_calls hcall).symm))
    | updateProjection => exact .failProjection (owed_of_calls hcall) rfl rfl owed_set
  | append hcall hstore => exact .append hcall hstore rfl rfl owed_set
  | exclusive hcall _ hstore hchange => exact .exclusive hcall hstore hchange rfl rfl owed_set
  | @effect i task answer e rest hcall hkick =>
    have howed : (set i task (.finishing answer rest) (w.perform db gameID e)).owed =
        Function.update w.owed i (rest.filter Effect.essential) := by
      rw [owed_set, owed_perform]
      rfl
    have hsame (he : e.essential = false) :
        (set i task (.finishing answer rest) (w.perform db gameID e)).owed = w.owed := by
      rw [howed, Function.update_eq_self_iff, owed_of_calls hcall]
      simp [Stage.owes, he]
    cases e with
    | updateProjection g =>
      refine .updateProjection hcall (owed_of_calls hcall) rfl ?_ howed
      simp only [World.perform, set_timer]
      split <;> rfl
    | switchTurn newTurn => exact .aside rfl Option.isSome_map (hsame rfl)
    | stopTimer => exact .stopTimer (owed_of_calls hcall) rfl rfl howed
    | stopAfterGrace => exact .stopAfterGrace hcall rfl rfl (hsame rfl)
    | startTimer g => exact .startTimer (owed_of_calls hcall) rfl rfl howed
    | publishCreated g => exact .aside rfl rfl (hsame rfl)
    | publishState g => exact .aside rfl rfl (hsame rfl)
    | publishCompleted g => exact .aside rfl rfl (hsame rfl)
    | publishIfOver =>
      refine .aside ?_ ?_ (hsame rfl)
      · simp only [World.perform, set_store]
        split
        · split <;> rfl
        · rfl
      · simp only [World.perform, set_timer]
        split
        · split <;> rfl
        · rfl
    | kickBot atStart => exact absurd rfl (hkick atStart)
  | @kick i j task answer atStart rest hcall hkicks hfresh =>
    refine .aside rfl rfl ?_
    have hbegin : (w.set j .playBotTurn .checking).owed = w.owed :=
      owed_set_eq (owed_eq_nil hfresh).symm
    rw [owed_set, hbegin, Function.update_eq_self_iff, owed_of_calls hcall]
    rfl
  | @wake i task g chance woken hcall hstore hwake =>
    refine .wake hstore hwake rfl rfl ?_
    have hnothing : w.owed i = [] := owed_of_calls hcall
    exact owed_set_eq (w := { w with store := _ }) ((owes_wokenStage woken g).trans hnothing.symm)
  | @publish i task g ended hcall hstore =>
    refine .aside rfl rfl (owed_set_eq (w := { w with bus := _ }) ?_)
    have hnothing : w.owed i = [] := owed_of_calls hcall
    refine Eq.trans ?_ hnothing.symm
    cases ended <;> rfl

end World

end DotsAndBoxes
