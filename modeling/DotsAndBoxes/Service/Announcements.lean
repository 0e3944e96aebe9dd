import DotsAndBoxes.Library.Outstanding
import DotsAndBoxes.Service.Clocks

/-! # Announcements of games

The creation of a persisted game and the end of any game are announced on `global:games`, where
the metrics count the games that go on. Each call that stores an end announces it, so one end
has one announcement only while no call stores an end again. The creation of a bot game is
not announced at all.
-/

namespace DotsAndBoxes

open Runs Outstanding

variable {n : ℕ} {roster : List Player} {g g' : Game} {now : Time} {isBotGame : Bool}
  {db : Database} {gameID : ℤ} {task : Task} {todo : List Effect}

/-- The type of the event on `global:games`. -/
def Announcement.globalType : Announcement → Option String
  | .created _ => some "game_created"
  | .completed _ => some "game_completed"
  | .state _ => none

/-- The type of the event on `global:games` that the effect publishes whatever the game. -/
def Effect.globalType : Effect → Option String
  | .publishCreated _ => some "game_created"
  | .publishCompleted _ => some "game_completed"
  | _ => none

def Stage.due : Stage → List String
  | .finishing _ todo => todo.filterMap Effect.globalType
  | _ => []

theorem filterMap_followUp (previousTurn : ℤ) (g : Game) (result : MoveResult) :
    (g.followUp isBotGame previousTurn result).filterMap Effect.globalType =
      if result.gameOver then ["game_completed"] else [] := by
  unfold Game.followUp
  cases isBotGame <;> cases result.gameOver <;> by_cases hturn : result.nextTurn = previousTurn <;>
    simp [hturn, Effect.globalType, List.filterMap_cons]

theorem filterMap_forfeitFollowUp (g : Game) :
    (g.forfeitFollowUp isBotGame).filterMap Effect.globalType = ["game_completed"] := by
  cases isBotGame <;> rfl

theorem Prepared.due {base : List EventRow} (h : Prepared db gameID roster n task base g todo) :
    todo.filterMap Effect.globalType = if g.hasEnded then ["game_completed"] else [] := by
  obtain ⟨now, g₀, hg₀, hsucceeds⟩ := h
  cases hsucceeds with
  | move _ hmove =>
    obtain ⟨-, hover⟩ := hg₀.shaped.applyMove hmove
    rw [filterMap_followUp, hover]
  | pass hpass =>
    obtain ⟨-, -, -, hover⟩ := hg₀.shaped.passTurnOnTimeout hpass
    rw [filterMap_followUp, hover]
  | forfeit hrun hforfeit =>
    obtain ⟨-, -, hended⟩ := @Shaped.forfeit n roster _ _ _ hrun _ hforfeit
    rw [filterMap_forfeitFollowUp, hended, if_pos rfl]
  | grace hrun hforfeit =>
    obtain ⟨-, -, hended⟩ := @Shaped.forfeit n roster _ _ _ hrun _ hforfeit
    rw [List.filterMap_append, filterMap_forfeitFollowUp, hended, if_pos rfl]
    rfl

def Store.isBot : Store → Bool
  | .persisted _ _ => false
  | .bot _ => true

namespace World

variable {w w' : World} {act : Act} {i : ℕ} {stage : Stage}

/-- What has been published on `global:games`. -/
def feed (w : World) : List String := w.bus.filterMap Announcement.globalType

def due (w : World) (i : ℕ) : List String := (w.calls i).elim [] (·.stage.due)

/-- How many events of the type the game has caused: those that are published, and those that
a call is to publish. -/
noncomputable def caused (w : World) (type : String) : ℕ :=
  w.feed.count type + outstanding w.due type

/-- The game causes one announcement of its creation, and one of its end once it has ended. -/
structure Accounted (w : World) : Prop where
  order : w.feed <+: ["game_created", "game_completed"]
  created : w.caused "game_created" = 1
  completed : w.caused "game_completed" = if w.store.ended then 1 else 0

/-- A step after which a persisted game is not accounted for any more. -/
inductive AnnounceFault (w : World) : Act → Prop where
  /-- A call stores an end of a game whose end is stored already. -/
  | endsAgain {i : ℕ} {task : Task} {base : List EventRow} {g : Game} {todo : List Effect} :
      w.calls i = some ⟨task, .changed base g todo⟩ → g.hasEnded = true →
      w.store.ended = true → AnnounceFault w (.append i)
  /-- A call publishes the end while another has still to publish the creation. -/
  | tooEarly {i j : ℕ} {task : Task} {answer : Answer} {g : Game} {rest : List Effect} :
      w.calls i = some ⟨task, .finishing answer (.publishCompleted g :: rest)⟩ →
      "game_created" ∈ w.due j → AnnounceFault w (.effect i)

@[simp] theorem feed_set : (w.set i task stage).feed = w.feed := rfl

theorem due_of_calls (h : w.calls i = some ⟨task, stage⟩) : w.due i = stage.due :=
  viewed_of_calls Stage.due h

theorem due_eq_nil (h : w.calls i = none) : w.due i = [] := viewed_eq_nil Stage.due h

@[simp] theorem due_set : (w.set i task stage).due = Function.update w.due i stage.due :=
  viewed_set Stage.due

theorem due_set_eq (h : stage.due = w.due i) : (w.set i task stage).due = w.due :=
  viewed_set_eq Stage.due h

theorem due_perform (e : Effect) : (w.perform db gameID e).due = w.due :=
  viewed_perform Stage.due e

theorem due_atLast {answer : Answer} : (Stage.finishing answer task.atLast).due = [] := by
  cases task <;> rfl

theorem Advance.due {before after : Stage} (h : Advance db gameID w task before after) :
    after.due = before.due := by
  cases h with
  | malformed => rfl
  | load => rfl
  | unreadable => exact due_atLast
  | refuse => exact due_atLast
  | apply => rfl
  | excluded => exact due_atLast
  | notKicked => rfl
  | @check g =>
    unfold Game.loopCheck Game.loopEnd
    split
    · rfl
    · split
      · rfl
      · split <;> rfl

theorem Fails.due {before after : Stage} (h : Fails w task before after) :
    after.due = before.due := by
  cases h with
  | load => exact due_atLast
  | append => exact due_atLast
  | updateProjection => rfl

theorem isBot_perform (e : Effect) : (w.perform db gameID e).store.isBot = w.store.isBot := by
  cases e with
  | updateProjection g =>
    cases hstore : w.store <;> simp [perform, hstore, Store.isBot]
  | publishIfOver =>
    cases hstore : w.store with
    | persisted rows projection => simp [perform, hstore]
    | bot g => cases hended : g.hasEnded <;> simp [perform, hstore, hended]
  | _ => rfl

theorem Step.isBot (h : Step db gameID w act w') : w'.store.isBot = w.store.isBot := by
  cases h with
  | append _ hstore => rw [hstore]; rfl
  | exclusive _ _ hstore => rw [hstore]; rfl
  | effect => exact isBot_perform _
  | wake _ hstore => rw [hstore]; rfl
  | _ => rfl

theorem feed_perform (hstored : w.store.isBot = false) (e : Effect) :
    (w.perform db gameID e).feed = w.feed ++ e.globalType.toList := by
  cases e with
  | updateProjection g => cases hstore : w.store <;> simp [perform, hstore, feed, Effect.globalType]
  | publishIfOver =>
    cases hstore : w.store with
    | persisted rows projection => simp [perform, hstore, Effect.globalType]
    | bot g => simp [hstore, Store.isBot] at hstored
  | _ => simp [perform, feed, Effect.globalType, Announcement.globalType]

theorem Step.feed (h : Step db gameID w act w') : ∃ news, w'.feed = w.feed ++ news := by
  have hbus : ∃ news, w'.bus = w.bus ++ news := by
    cases h with
    | @effect _ _ _ e =>
      cases e with
      | updateProjection g =>
        cases hstore : w.store <;> exact ⟨[], by simp [perform, hstore]⟩
      | publishIfOver =>
        cases hstore : w.store with
        | persisted rows projection => exact ⟨[], by simp [perform, hstore]⟩
        | bot g =>
          cases hended : g.hasEnded with
          | false => exact ⟨[], by simp [perform, hstore, hended]⟩
          | true => exact ⟨[.completed g.winnerID], by simp [perform, hstore, hended]⟩
      | publishCreated g => exact ⟨_, rfl⟩
      | publishState g => exact ⟨_, rfl⟩
      | publishCompleted g => exact ⟨_, rfl⟩
      | _ => exact ⟨[], (List.append_nil _).symm⟩
    | publish => exact ⟨_, rfl⟩
    | _ => exact ⟨[], (List.append_nil _).symm⟩
  obtain ⟨news, hnews⟩ := hbus
  exact ⟨news.filterMap Announcement.globalType, by
    rw [World.feed, hnews, List.filterMap_append, World.feed]⟩

/-- What a step of a persisted game announces, and what it leaves for the calls to announce. -/
inductive Announces (db : Database) (w : World) : Act → World → Prop where
  | aside {act : Act} {w' : World} : ¬ AnnounceFault w act →
      w'.store.ended = w.store.ended → w'.feed = w.feed → w'.due = w.due → Announces db w act w'
  | publish {i : ℕ} {task : Task} {answer : Answer} {e : Effect} {rest : List Effect}
      {type : String} {w' : World} : w.calls i = some ⟨task, .finishing answer (e :: rest)⟩ →
      e.globalType = some type → w'.store.ended = w.store.ended → w'.feed = w.feed ++ [type] →
      w'.due = Function.update w.due i (rest.filterMap Effect.globalType) →
      Announces db w (.effect i) w'
  | append {i : ℕ} {task : Task} {base rows : List EventRow} {projection : Projection} {g : Game}
      {todo : List Effect} {w' : World} : w.calls i = some ⟨task, .changed base g todo⟩ →
      w.store = .persisted rows projection →
      w'.store = .persisted (db.appendEvents rows g.uncommittedEvents) projection →
      w'.feed = w.feed →
      w'.due = Function.update w.due i (todo.filterMap Effect.globalType) →
      Announces db w (.append i) w'

theorem Step.announces (h : Step db gameID w act w') (hstored : w.store.isBot = false) :
    Announces db w act w' := by
  cases h with
  | elapse => exact .aside nofun rfl rfl rfl
  | disconnect => exact .aside nofun rfl rfl rfl
  | reconnect => exact .aside nofun rfl rfl rfl
  | receive hfresh => exact .aside nofun rfl rfl (due_set_eq (due_eq_nil hfresh).symm)
  | tick hfresh => exact .aside nofun rfl rfl (due_set_eq (due_eq_nil hfresh).symm)
  | graceOver hfresh =>
    exact .aside nofun rfl rfl (due_set_eq (due_eq_nil (w := { w with timer := _ }) hfresh).symm)
  | advance hcall hadvance =>
    exact .aside nofun rfl rfl (due_set_eq (hadvance.due.trans (due_of_calls hcall).symm))
  | fail hcall hfails =>
    exact .aside nofun rfl rfl (due_set_eq (hfails.due.trans (due_of_calls hcall).symm))
  | append hcall hstore => exact .append hcall hstore rfl rfl due_set
  | exclusive _ _ hstore => simp [hstore, Store.isBot] at hstored
  | @effect i task answer e rest hcall =>
    have hended : (w.perform db gameID e).store.ended = w.store.ended := perform_ended e
    have hfeed : (w.perform db gameID e).feed = w.feed ++ e.globalType.toList :=
      feed_perform hstored e
    have hdue : (set i task (.finishing answer rest) (w.perform db gameID e)).due =
        Function.update w.due i (rest.filterMap Effect.globalType) := by
      rw [due_set, due_perform]
      rfl
    cases htype : e.globalType with
    | none =>
      refine .aside ?_ hended (by rw [feed_set, hfeed, htype, Option.toList, List.append_nil]) ?_
      · rintro (_ | ⟨hcall', -⟩)
        cases hcall.symm.trans hcall'
        cases htype
      · rw [hdue, Function.update_eq_self_iff, due_of_calls hcall]
        simp [Stage.due, htype]
    | some type => exact .publish hcall htype hended (by rw [feed_set, hfeed, htype, Option.toList]) hdue
  | @kick i j task answer atStart rest hcall hkicks hfresh =>
    refine .aside nofun rfl rfl ?_
    have hbegin : (w.set j .playBotTurn .checking).due = w.due :=
      due_set_eq (due_eq_nil hfresh).symm
    rw [due_set, hbegin, Function.update_eq_self_iff, due_of_calls hcall]
    rfl
  | wake _ hstore => simp [hstore, Store.isBot] at hstored
  | publish _ hstore => simp [hstore, Store.isBot] at hstored

theorem Announces.finitary (h : Announces db w act w') (hfinitary : Finitary w.due) :
    Finitary w'.due := by
  cases h with
  | aside _ _ _ hdue => rwa [hdue]
  | publish _ _ _ _ hdue => exact hdue ▸ hfinitary.update _ _
  | append _ _ _ _ hdue => exact hdue ▸ hfinitary.update _ _

theorem Announces.prefix_cases (h : Announces db w act w') {feed news handled : List String}
    (hfeed : w'.feed = w.feed ++ news) (hhandled : handled <+: feed ++ news) :
    handled <+: feed ∨ handled = feed ++ news := by
  cases h with
  | aside _ _ hsame =>
    obtain rfl : news = [] := by simpa [hsame] using hfeed
    exact .inl (by simpa using hhandled)
  | publish _ _ _ hone =>
    obtain rfl := List.append_cancel_left (hone.symm.trans hfeed)
    exact (List.prefix_concat_iff.mp hhandled).symm
  | append _ _ _ hsame =>
    obtain rfl : news = [] := by simpa [hsame] using hfeed
    exact .inl (by simpa using hhandled)

section Accounted

theorem Accounted.congr (h : w.Accounted) (hended : w'.store.ended = w.store.ended)
    (hfeed : w'.feed = w.feed) (hcaused : w'.caused = w.caused) : w'.Accounted :=
  ⟨hfeed ▸ h.order, hcaused ▸ h.created, by rw [hcaused, hended, h.completed]⟩

theorem Accounted.feed (h : w.Accounted) : w.feed = [] ∨ w.feed = ["game_created"] ∨
    w.feed = ["game_created", "game_completed"] := by
  rcases List.prefix_cons_iff.mp h.order with hfeed | ⟨rest, hfeed, hrest⟩
  · exact .inl hfeed
  · rcases List.prefix_cons_iff.mp hrest with rfl | ⟨later, rfl, hlater⟩
    · exact .inr (.inl hfeed)
    · obtain rfl := List.prefix_nil.mp hlater
      exact .inr (.inr hfeed)

theorem Accounted.completed_le (h : w.Accounted) : w.caused "game_completed" ≤ 1 := by
  rw [h.completed]
  split <;> omega

theorem Accounted.created_mem_iff (h : w.Accounted) (hfinitary : Finitary w.due) :
    "game_created" ∈ w.feed ↔ ¬ ∃ i, "game_created" ∈ w.due i := by
  have hcaused := h.created
  rw [caused] at hcaused
  rw [← outstanding_pos_iff hfinitary, ← List.count_pos_iff]
  omega

theorem not_mem_feed_of_due {type : String} (hcaused : w.caused type ≤ 1)
    (hfinitary : Finitary w.due) (hdue : type ∈ w.due i) : type ∉ w.feed := by
  have hout : 0 < outstanding w.due type := (outstanding_pos_iff hfinitary).mpr ⟨i, hdue⟩
  rw [caused] at hcaused
  rw [← List.count_pos_iff]
  omega

/-- A call may publish what it is to publish, but for an end before the creation. -/
theorem Accounted.publish_iff (h : w.Accounted) (hfinitary : Finitary w.due) {answer : Answer}
    {e : Effect} {rest : List Effect} {type : String}
    (hcall : w.calls i = some ⟨task, .finishing answer (e :: rest)⟩)
    (htype : e.globalType = some type) :
    w.feed ++ [type] <+: ["game_created", "game_completed"] ↔ ¬ AnnounceFault w (.effect i) := by
  have hdue : type ∈ w.due i := by
    rw [due_of_calls hcall]
    exact List.mem_filterMap.mpr ⟨e, List.mem_cons_self, htype⟩
  have hcreated := h.created_mem_iff hfinitary
  cases e with
  | publishCreated g =>
    cases htype
    have hfeed : w.feed = [] := by
      have hnot := not_mem_feed_of_due h.created.le hfinitary hdue
      rcases h.feed with hfeed | hfeed | hfeed
      · exact hfeed
      · simp [hfeed] at hnot
      · simp [hfeed] at hnot
    apply iff_of_true
    · simp [hfeed]
    · rintro (_ | ⟨hcall', -⟩)
      cases hcall.symm.trans hcall'
  | publishCompleted g =>
    cases htype
    have hfault : AnnounceFault w (.effect i) ↔ ∃ j, "game_created" ∈ w.due j := by
      constructor
      · rintro (_ | ⟨_, hj⟩)
        exact ⟨_, hj⟩
      · rintro ⟨j, hj⟩
        exact .tooEarly hcall hj
    rw [hfault, ← hcreated]
    have hnot := not_mem_feed_of_due h.completed_le hfinitary hdue
    rcases h.feed with hfeed | hfeed | hfeed
    · simp [hfeed]
    · simp [hfeed]
    · simp [hfeed] at hnot
  | _ => cases htype

theorem Accounted.append_iff (h : w.Accounted) {ended : Bool} (hfeed : w'.feed = w.feed)
    (hended : w'.store.ended = (w.store.ended || ended))
    (hcaused : ∀ type, w'.caused type =
      w.caused type + (if ended then ["game_completed"] else []).count type) :
    w'.Accounted ↔ ¬ (ended = true ∧ w.store.ended = true) := by
  have hcompleted := h.completed
  constructor
  · rintro h' ⟨rfl, hover⟩
    have hcompleted' := h'.completed
    rw [hcaused, hcompleted, hended, hover] at hcompleted'
    simp at hcompleted'
  · intro hnot
    constructor
    · exact hfeed ▸ h.order
    · rw [hcaused, h.created]
      cases ended <;> simp
    · rw [hcaused, hcompleted, hended]
      cases hover : w.store.ended <;> cases ended <;> simp_all

end Accounted

structure Reported (db : Database) (gameID : ℤ) (roster : List Player) (n : ℕ) (w : World) :
    Prop extends w.Coherent db gameID roster n where
  stored : w.store.isBot = false
  finitary : Finitary w.due
  accounted : w.Accounted

theorem Reported.accounted_iff (h : w.Reported db gameID roster n)
    (hstep : Step db gameID w act w') : w'.Accounted ↔ ¬ AnnounceFault w act := by
  have hw := h.accounted
  cases hstep.announces h.stored with
  | aside hquiet hended hfeed hdue =>
    refine iff_of_true (hw.congr hended hfeed ?_) hquiet
    ext1 type
    rw [caused, caused, hfeed, hdue]
  | @publish i task answer e rest type _ hcall htype hended hfeed hdue =>
    have hcaused : w'.caused = w.caused := by
      have hfirst : w.due i = type :: rest.filterMap Effect.globalType := by
        rw [due_of_calls hcall, Stage.due, List.filterMap_cons_some htype]
      ext1 t
      rw [caused, caused, hfeed, hdue, List.count_append, ← outstanding_carried h.finitary hfirst]
      omega
    rw [← hw.publish_iff h.finitary hcall htype, ← hfeed]
    constructor
    · exact Accounted.order
    · intro horder
      exact ⟨horder, hcaused ▸ hw.created, by rw [hcaused, hended, hw.completed]⟩
  | @append i task base rows projection g todo _ hcall hstore hstore' hfeed hdue =>
    have hprepared : Prepared db gameID roster n task base g todo := h.calls i task _ hcall
    have hended : w'.store.ended = (w.store.ended || g.hasEnded) := by
      rw [hstore, hstore']
      exact ((h.intact hstore).appendPrepared hprepared).2
    rw [hw.append_iff hfeed hended]
    · apply not_congr
      constructor
      · rintro ⟨hg, hover⟩
        exact .endsAgain hcall hg hover
      · rintro (⟨hcall', hg, hover⟩ | _)
        cases hcall.symm.trans hcall'
        exact ⟨hg, hover⟩
    · intro type
      rw [caused, caused, hfeed, hdue, hprepared.due,
        outstanding_taken h.finitary (due_of_calls hcall)]
      omega

theorem Reported.step (h : w.Reported db gameID roster n) (hk : 0 < roster.length)
    (hseat : Seated roster) (hstep : Step db gameID w act w') (hfault : ¬ AnnounceFault w act) :
    w'.Reported db gameID roster n where
  toCoherent := h.toCoherent.step hk hseat hstep
  stored := hstep.isBot.trans h.stored
  finitary := (hstep.announces h.stored).finitary h.finitary
  accounted := (h.accounted_iff hstep).mpr hfault

theorem due_creating (h : w.calls = creating todo) :
    w.due = Function.update (fun _ => []) 0 (todo.filterMap Effect.globalType) := by
  ext1 i
  rw [due, h, creating]
  by_cases hi : i = 0
  · subst hi
    rw [Function.update_self, Function.update_self]
    rfl
  · rw [Function.update_of_ne hi, Function.update_of_ne hi]
    rfl

theorem finitary_creating (h : w.calls = creating todo) : Finitary w.due := by
  rw [due_creating h]
  exact Finitary.update (by simp [Finitary]) 0 _

theorem Created.feed (h : Created db gameID w) : w.feed = [] := by
  cases h <;> rfl

theorem Created.caused (h : Created db gameID w) (type : String) :
    w.caused type = if w.store.isBot then 0 else ["game_created"].count type := by
  have hcaused {todo : List Effect} (hcalls : w.calls = creating todo) :
      w.caused type = (todo.filterMap Effect.globalType).count type := by
    have hnone : outstanding (fun _ : ℕ => []) type = 0 := outstanding_eq_zero (fun _ => rfl) type
    rw [World.caused, h.feed, due_creating hcalls,
      outstanding_taken (by simp [Finitary]) rfl, hnone]
    simp
  cases h with
  | persisted => exact hcaused rfl
  | bot => exact hcaused rfl

theorem Created.accounted_iff (h : Created db gameID w) :
    w.Accounted ↔ w.store.isBot = false := by
  constructor
  · intro hw
    have hcreated := hw.created
    rw [h.caused] at hcreated
    cases hbot : w.store.isBot with
    | false => rfl
    | true => simp [hbot] at hcreated
  · intro hstored
    constructor
    · rw [h.feed]
      exact List.nil_prefix
    · rw [h.caused, hstored]
      simp
    · rw [h.caused, hstored, h.running]
      simp

theorem Created.reported (h : Created db gameID w) (hstored : w.store.isBot = false) :
    ∃ n roster, 0 < roster.length ∧ Seated roster ∧ w.Reported db gameID roster n := by
  obtain ⟨n, roster, -, hk, hseat, hcoherent⟩ := h.coherent
  obtain ⟨todo, hcalls⟩ := h.calls
  exact ⟨n, roster, by omega, hseat, hcoherent, hstored, finitary_creating hcalls,
    h.accounted_iff.mpr hstored⟩

theorem Idle.due_eq_nil (h : w.Idle) (i : ℕ) : w.due i = [] := by
  cases hcall : w.calls i with
  | none => exact World.due_eq_nil hcall
  | some job =>
    obtain ⟨answer, hstage⟩ := h i job.task job.stage hcall
    rw [due_of_calls hcall, hstage]
    rfl

theorem Accounted.feed_of_idle (h : w.Accounted) (hidle : w.Idle) : w.feed =
    if w.store.ended then ["game_created", "game_completed"] else ["game_created"] := by
  have hcreated := h.created
  have hcompleted := h.completed
  rw [World.caused, outstanding_eq_zero hidle.due_eq_nil] at hcreated hcompleted
  rcases h.feed with hfeed | hfeed | hfeed
  · simp [hfeed] at hcreated
  · cases hended : w.store.ended <;> simp_all
  · cases hended : w.store.ended <;> simp_all

end World

end DotsAndBoxes
