import DotsAndBoxes.Hub.Backpressure

/-! # Subscriptions to the bus

The first request for a topic marks the topic and starts a goroutine, which subscribes to the
bus. When the bus does not answer, the goroutine logs the error and ends, and the mark stays.
So a topic has at most one subscription, and after a failure it never gets one.
-/

namespace DotsAndBoxes

open Runs

/-- The hub with its goroutines that subscribe to the bus. -/
structure Subscriber where
  hub : Hub
  /-- The goroutines of each topic that wait for the bus. -/
  attempts : String → ℕ
  /-- The goroutines of each topic that receive from the bus, which they do for good. -/
  active : String → ℕ

namespace Subscriber

def starts : Hub.Act → Manager → Option String
  | .subscribe topic _, m => if m.subscribedBus topic then none else some topic
  | _, _ => none

def more (topic : String) (count : String → ℕ) : String → ℕ :=
  Function.update count topic (count topic + 1)

def less (topic : String) (count : String → ℕ) : String → ℕ :=
  Function.update count topic (count topic - 1)

/-- A goroutine has heard from the bus: its subscription is confirmed, or it has failed. -/
def subscribeToEventBus (topic : String) (received : Bool) (s : Subscriber) : Subscriber :=
  { s with
    attempts := less topic s.attempts
    active := if received then more topic s.active else s.active }

def start : Subscriber := ⟨Hub.start, fun _ => 0, fun _ => 0⟩

inductive Act where
  | hub (a : Hub.Act)
  | subscribeToEventBus (topic : String) (received : Bool)

inductive Step : Subscriber → Act → Subscriber → Prop where
  | hub {s a hub} (h : Hub.Step s.hub a hub) : Step s (.hub a)
      { s with
        hub
        attempts := (starts a s.hub.manager).elim s.attempts fun topic => more topic s.attempts }
  | bus {s topic received} (h : 0 < s.attempts topic) :
      Step s (.subscribeToEventBus topic received) (s.subscribeToEventBus topic received)

/-- The topic is subscribed to, or about to be, or the next request for it tries. A topic that
was never asked for is of the last kind. -/
def Recovers (topic : String) (s : Subscriber) : Prop :=
  0 < s.active topic ∨ 0 < s.attempts topic ∨
    ∀ conn, starts (.subscribe topic conn) s.hub.manager = some topic

/-- A topic has no goroutine before it is asked for, and then one at most. -/
def AtMostOne (s : Subscriber) : Prop :=
  ∀ topic, s.attempts topic + s.active topic ≤ if s.hub.manager.subscribedBus topic then 1 else 0

/-- A topic that was asked for has one goroutine, which waits for the bus or receives from it. -/
def Served (s : Subscriber) : Prop :=
  ∀ topic, s.attempts topic + s.active topic = if s.hub.manager.subscribedBus topic then 1 else 0

variable {s s' : Subscriber} {a : Act} {topic other : String} {run : List (Act × Subscriber)}

@[simp] theorem more_self (count : String → ℕ) : more topic count topic = count topic + 1 := by
  simp [more]

@[simp] theorem less_self (count : String → ℕ) : less topic count topic = count topic - 1 := by
  simp [less]

theorem more_of_ne (count : String → ℕ) (h : other ≠ topic) :
    more topic count other = count other := by
  simp [more, h]

theorem less_of_ne (count : String → ℕ) (h : other ≠ topic) :
    less topic count other = count other := by
  simp [less, h]

theorem subscribedBus_of_starts {a : Hub.Act} {m : Manager} (h : starts a m = some topic) :
    m.subscribedBus topic = false ∧
      (a.serve m).subscribedBus = Function.update m.subscribedBus topic true := by
  cases a with
  | subscribe asked conn =>
    rw [starts] at h
    split at h
    case isTrue => cases h
    case isFalse hnot =>
      obtain rfl := Option.some.inj h
      exact ⟨Bool.eq_false_of_not_eq_true hnot, rfl⟩
  | _ => cases h

theorem subscribedBus_of_not_starts {a : Hub.Act} {m : Manager} (h : starts a m = none) :
    (a.serve m).subscribedBus = m.subscribedBus := by
  cases a with
  | subscribe asked conn =>
    rw [starts] at h
    split at h
    case isTrue hmarked =>
      rw [Hub.Act.serve, Manager.subscribe, ← hmarked, Function.update_eq_self]
    case isFalse => cases h
  | _ => rfl

/-- What a step does to the goroutines of one topic. -/
inductive Changes (topic : String) (s : Subscriber) (a : Act) (s' : Subscriber) : Prop where
  | same (hmark : s'.hub.manager.subscribedBus topic = s.hub.manager.subscribedBus topic)
      (hattempts : s'.attempts topic = s.attempts topic)
      (hactive : s'.active topic = s.active topic)
  | started (hbefore : s.hub.manager.subscribedBus topic = false)
      (hafter : s'.hub.manager.subscribedBus topic = true)
      (hattempts : s'.attempts topic = s.attempts topic + 1)
      (hactive : s'.active topic = s.active topic)
  | answered (received : Bool) (hact : a = .subscribeToEventBus topic received)
      (hmark : s'.hub.manager.subscribedBus topic = s.hub.manager.subscribedBus topic)
      (hattempts : s'.attempts topic + 1 = s.attempts topic)
      (hactive : s'.active topic = s.active topic + if received then 1 else 0)

theorem Step.changes (h : Step s a s') (topic : String) : Changes topic s a s' := by
  cases h with
  | @hub a hub h =>
    have hmanager := h.manager_eq
    cases hstarts : starts a s.hub.manager with
    | none => exact .same (by rw [hmanager, subscribedBus_of_not_starts hstarts]) rfl rfl
    | some asked =>
      obtain ⟨hfalse, hmarks⟩ := subscribedBus_of_starts hstarts
      by_cases htopic : topic = asked
      · subst htopic
        exact .started hfalse (by rw [hmanager, hmarks, Function.update_self]) (more_self _) rfl
      · exact .same (by rw [hmanager, hmarks, Function.update_of_ne htopic])
          (more_of_ne _ htopic) rfl
  | @bus asked received hpos =>
    by_cases htopic : topic = asked
    · subst htopic
      refine .answered received rfl rfl ?_ ?_
      · simp only [subscribeToEventBus, less_self]
        omega
      · cases received <;> simp [subscribeToEventBus]
    · refine .same rfl (less_of_ne _ htopic) ?_
      cases received <;> simp [subscribeToEventBus, more_of_ne _ htopic]

theorem Step.atMostOne (h : Step s a s') (hs : s.AtMostOne) : s'.AtMostOne := by
  intro topic
  have hone := hs topic
  rcases h.changes topic with ⟨hmark, hattempts, hactive⟩ | ⟨hbefore, hafter, hattempts, hactive⟩ |
    ⟨received, -, hmark, hattempts, hactive⟩
  · rwa [hmark, hattempts, hactive]
  · rw [hbefore] at hone
    rw [hafter]
    simp only [Bool.false_eq_true, if_false, if_true] at hone ⊢
    omega
  · rw [hmark]
    cases received <;> simp at hactive <;> omega

theorem Served.recovers (hs : s.Served) (topic : String) : s.Recovers topic := by
  have hone := hs topic
  cases hmark : s.hub.manager.subscribedBus topic with
  | false => exact .inr (.inr fun conn => by simp [starts, hmark])
  | true =>
    simp only [hmark, if_true] at hone
    rcases Nat.eq_zero_or_pos (s.active topic) with hzero | hactive
    · exact .inr (.inl (by omega))
    · exact .inl hactive

theorem Served.fine (hs : s.Served) (topic : String) : s.active topic ≤ 1 ∧ s.Recovers topic := by
  have hone := hs topic
  refine ⟨?_, hs.recovers topic⟩
  split at hone <;> omega

theorem Step.not_recovers (h : Step s (.subscribeToEventBus topic false) s') (hs : s.Served) :
    ¬ s'.Recovers topic := by
  cases h with
  | bus hpos =>
    have hone := hs topic
    have hmark : s.hub.manager.subscribedBus topic = true := by
      by_contra hnot
      rw [if_neg hnot] at hone
      omega
    rw [if_pos hmark] at hone
    rintro (hactive | hattempts | hstarts)
    · change 0 < s.active topic at hactive
      omega
    · change 0 < less topic s.attempts topic at hattempts
      rw [less_self] at hattempts
      omega
    · have hnone := hstarts ⟨0, 0, ""⟩
      simp [starts, Subscriber.subscribeToEventBus, hmark] at hnone

theorem Step.served (h : Step s a s') (hs : s.Served)
    (hok : ∀ topic, a ≠ .subscribeToEventBus topic false) : s'.Served := by
  intro topic
  have hone := hs topic
  rcases h.changes topic with ⟨hmark, hattempts, hactive⟩ | ⟨hbefore, hafter, hattempts, hactive⟩ |
    ⟨received, hact, hmark, hattempts, hactive⟩
  · rwa [hmark, hattempts, hactive]
  · rw [hbefore] at hone
    rw [hafter]
    simp only [Bool.false_eq_true, if_false, if_true] at hone ⊢
    omega
  · cases received with
    | false => exact absurd hact (hok topic)
    | true =>
      rw [if_pos rfl] at hactive
      rw [hmark]
      omega

theorem served_start : start.Served := by
  intro topic
  simp [start, Hub.start]

theorem active_le_one (h : Along Step start run) (hs : s ∈ visited start run) (topic : String) :
    s.active topic ≤ 1 := by
  have hstart : start.AtMostOne := fun topic => (served_start topic).le
  have hone := h.forall_visited hstart (fun _ _ _ hs hstep => hstep.atMostOne hs) s hs topic
  split at hone <;> omega

/-- From the start of the hub, in whatever order it serves requests and the bus answers, a topic
never has two subscriptions, and a topic that was asked for is subscribed to, or about to be, or
tried again at its next request, if and only if no attempt to subscribe fails. -/
theorem topics_recover_iff (h : Along Step start run) :
    (∀ s ∈ visited start run, ∀ topic, s.active topic ≤ 1 ∧ s.Recovers topic) ↔
      ∀ topic, .subscribeToEventBus topic false ∉ run.map Prod.fst := by
  have hlabels : (∀ topic, .subscribeToEventBus topic false ∉ run.map Prod.fst) ↔
      Along (fun _ a _ => ∀ topic, a ≠ .subscribeToEventBus topic false) start run := by
    rw [along_label_iff (Q := fun a : Act => ∀ topic, a ≠ .subscribeToEventBus topic false)]
    constructor
    · rintro hnone step hstep topic heq
      exact hnone topic (heq ▸ List.mem_map_of_mem hstep)
    · rintro hnone topic hmem
      obtain ⟨step, hstep, heq⟩ := List.mem_map.mp hmem
      exact hnone step hstep topic heq
  rw [hlabels]
  apply visited_good_iff Served h served_start.fine served_start
  · intro s a s' hs hstep
    refine ⟨?_, fun hok => (hstep.served hs hok).fine⟩
    rintro hfine topic rfl
    exact hstep.not_recovers hs (hfine topic).2
  · intro s a s' hs hstep hok
    exact hstep.served hs hok

/-- The hub with a request for the rooms of the lobbies, before and after it is served. -/
def requested : Subscriber :=
  { start with hub := { Hub.start with subscribe := [("global:lobbies", Hub.ann)] } }

def attempting : Subscriber :=
  { start with
    hub := { Hub.start with manager := Hub.start.manager.subscribe "global:lobbies" Hub.ann }
    attempts := more "global:lobbies" fun _ => 0 }

theorem along_attempting : Along Step start
    [(.hub (.request "global:lobbies" Hub.ann), requested),
      (.hub (.subscribe "global:lobbies" Hub.ann), attempting)] := by
  have hrequest : Hub.Step Hub.start (.request "global:lobbies" Hub.ann) requested.hub :=
    .request (Nat.zero_lt_succ 99)
  have hsubscribe : Hub.Step requested.hub (.subscribe "global:lobbies" Hub.ann) attempting.hub :=
    .subscribe rfl rfl
  exact ⟨.hub hrequest, .hub hsubscribe, trivial⟩

theorem topics_recover_iff_attempting :
    attempting.active "global:lobbies" ≤ 1 ∧ attempting.Recovers "global:lobbies" :=
  (topics_recover_iff along_attempting).mpr (by simp) attempting
    (last_mem_visited start [_, _]) "global:lobbies"

/-- The bus does not answer, and the rooms of the lobbies are never heard of again. -/
theorem failed_attempt_silences_topic :
    ¬ ∀ run, Along Step start run →
      ∀ s ∈ visited start run, ∀ topic, s.active topic ≤ 1 ∧ s.Recovers topic := by
  intro h
  have hfails : Step attempting (.subscribeToEventBus "global:lobbies" false) _ :=
    .bus (Nat.zero_lt_one)
  have hserved : attempting.Served := by
    intro topic
    by_cases htopic : topic = "global:lobbies"
    · subst htopic
      simp [attempting, start, Hub.start, Manager.subscribe]
    · simp [attempting, start, Hub.start, Manager.subscribe, more_of_ne _ htopic, htopic]
  have hrecovers := h _ (along_attempting.snoc hfails) _ (last_mem_visited _ _) "global:lobbies"
  exact hfails.not_recovers hserved hrecovers.2

end Subscriber

end DotsAndBoxes
