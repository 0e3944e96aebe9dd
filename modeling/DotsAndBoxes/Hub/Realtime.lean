import DotsAndBoxes.Hub.Backpressure
import DotsAndBoxes.Hub.Session

/-! # The realtime system

The manager, the bus, the sessions and the timer service run side by side. Events go
through the bus, which keeps the order of each topic and delivers when it pleases: those
about connections to the timer service, those of a topic with a subscription to the
manager. A grace period that has run out is carried out as a forfeit some time later.
-/

namespace DotsAndBoxes

open Tagged

structure Bus where
  /-- To the timer service. -/
  connections : List Post
  /-- The topics that the manager's subscription is in force for. -/
  subscribed : String → Bool
  /-- To the manager, under each topic. -/
  feed : String → List Post

namespace Bus

/-- Publish an event; a subscriber reads what was written. -/
def publish (author : Author) (topic : String) (event : Event) (b : Bus) : Bus :=
  match eventCodec.unmarshal (eventCodec.marshal event) with
  | none => b
  | some event =>
    { b with
      connections := if topic = "connections" then b.connections ++ [⟨event, author⟩]
        else b.connections
      feed := if b.subscribed topic then
          Function.update b.feed topic (b.feed topic ++ [⟨event, author⟩])
        else b.feed }

def publishAll (author : Author) (events : List (String × Event)) (b : Bus) : Bus :=
  events.foldl (fun b e => b.publish author e.1 e.2) b

theorem publish_eq (author : Author) (topic : String) (event : Event) (b : Bus) :
    b.publish author topic event =
      { b with
        connections := if topic = "connections" then b.connections ++ [⟨event, author⟩]
          else b.connections
        feed := if b.subscribed topic then
            Function.update b.feed topic (b.feed topic ++ [⟨event, author⟩])
          else b.feed } := by
  rw [publish, eventCodec_lawful.unmarshal_marshal]

def aboutConnections (author : Author) (events : List (String × Event)) : List Post :=
  (events.filter fun e => e.1 = "connections").map fun e => ⟨e.2, author⟩

@[simp] theorem aboutConnections_map (author : Author) (events : List Event) :
    aboutConnections author (events.map fun e => ("connections", e)) =
      events.map fun e => ⟨e, author⟩ := by
  simp [aboutConnections, List.filter_map, Function.comp_def]

@[simp] theorem connections_publishAll (author : Author) (events : List (String × Event))
    (b : Bus) : (b.publishAll author events).connections =
      b.connections ++ aboutConnections author events := by
  induction events generalizing b with
  | nil => simp [publishAll, aboutConnections]
  | cons e events ih =>
    rw [publishAll, List.foldl_cons, ← publishAll, ih, publish_eq]
    by_cases he : e.1 = "connections" <;> simp [he, aboutConnections]

/-- What is fed to the manager was there before, or was published under a topic that its
subscription is in force for. -/
theorem mem_feed_publishAll {author : Author} {events : List (String × Event)} {b : Bus}
    {topic : String} {post : Post} (h : post ∈ (b.publishAll author events).feed topic) :
    post ∈ b.feed topic ∨
      (∃ e ∈ events, e.1 = topic ∧ b.subscribed topic = true ∧ post = ⟨e.2, author⟩) := by
  induction events generalizing b with
  | nil => exact .inl h
  | cons e events ih =>
    rw [publishAll, List.foldl_cons, ← publishAll] at h
    rcases ih h with hold | ⟨e', he', htopic, hsub, rfl⟩
    · rw [publish_eq] at hold
      by_cases hsub : b.subscribed e.1 = true
      · by_cases htopic : topic = e.1
        · subst htopic
          simp only [hsub, if_true, Function.update_self, List.mem_append,
            List.mem_singleton] at hold
          exact hold.imp_right fun heq => ⟨e, List.mem_cons_self, rfl, hsub, heq⟩
        · simp only [hsub, if_true, Function.update_of_ne htopic] at hold
          exact .inl hold
      · simp only [hsub] at hold
        exact .inl hold
    · rw [publish_eq] at hsub
      exact .inr ⟨e', List.mem_cons_of_mem _ he', htopic, hsub, rfl⟩

end Bus

structure Realtime where
  now : Time
  hub : Hub
  bus : Bus
  timers : GameTimerService
  /-- The games and users whose grace period has run out and is not carried out yet. -/
  firing : List (ℤ × ℤ)
  /-- The pages that a session has joined and not left. Nothing in the program depends on
  them. -/
  pages : Connection → Finset String

namespace Realtime

def start (now : Time) : Realtime where
  now := now
  hub := .start
  bus := ⟨[], fun _ => false, fun _ => []⟩
  timers := ⟨fun _ => none⟩
  firing := []
  pages _ := ∅

def Joins (frame : Json) (topic : String) : Prop :=
  ∃ event, eventCodec.unmarshal frame = some event ∧ event.type = "page:join" ∧
    Connection.topicOf event = topic

def Leaves (frame : Json) (topic : String) : Prop :=
  ∃ event, eventCodec.unmarshal frame = some event ∧ event.type = "page:leave" ∧
    Connection.topicOf event = topic

def turnPage (frame : Json) (pages : Finset String) : Finset String :=
  match eventCodec.unmarshal frame with
  | none => pages
  | some event =>
    if event.type = "page:join" then insert (Connection.topicOf event) pages
    else if event.type = "page:leave" then pages.erase (Connection.topicOf event)
    else pages

/-- A new session has joined no page. -/
def openPages (a : Hub.Act) (pages : Connection → Finset String) : Connection → Finset String :=
  match a with
  | .register conn => Function.update pages conn ∅
  | _ => pages

inductive Act where
  | elapse (d : Time)
  | hub (a : Hub.Act)
  /-- A subscription of the manager comes into force. -/
  | subscribed (topic : String)
  /-- The bus delivers an event to the manager. -/
  | feed (topic : String)
  | frame (conn : Connection) (allowed : Bool) (frame : Json)
  /-- A service publishes an event. -/
  | publish (topic : String) (event : Event)
  /-- The bus delivers an event to the timer service. -/
  | listen (post : Post)
  | startTimer (gameID : ℤ) (players : List Player) (startingTurn : ℤ)
  | switchTurn (gameID newTurn : ℤ)
  | stopTimer (gameID : ℤ)
  | graceOver (gameID userID : ℤ)
  | forfeit (gameID userID : ℤ)

/-- The request for a subscription that handling a frame makes. -/
inductive Requests (conn : Connection) : Option String → Hub → Hub → Prop where
  | none {h} : Requests conn none h h
  | some {topic h h'} (hstep : Hub.Step h (.request topic conn) h') :
      Requests conn (some topic) h h'

/-- The services publish under other topics than that of the connections. -/
inductive Step : Realtime → Act → Realtime → Prop where
  | elapse {s d} (hd : 0 ≤ d) : Step s (.elapse d) { s with now := s.now + d }
  | hub {s a h'} (hstep : Hub.Step s.hub a h') (hoffer : ∀ msg, a ≠ .offer msg) :
      Step s (.hub a)
        { s with
          hub := h'
          bus := s.bus.publishAll .server (a.published s.hub.manager)
          pages := openPages a s.pages }
  | subscribed {s topic} (hmanager : s.hub.manager.subscribedBus topic = true) :
      Step s (.subscribed topic)
        { s with bus := { s.bus with subscribed := Function.update s.bus.subscribed topic true } }
  | feed {s topic post rest h'} (hfeed : s.bus.feed topic = post :: rest)
      (hstep : Hub.Step s.hub (.offer post) h') :
      Step s (.feed topic)
        { s with hub := h', bus := { s.bus with feed := Function.update s.bus.feed topic rest } }
  | frame {s conn allowed frame h'} (hopen : conn ∈ s.hub.manager.connections)
      (hrequests : Requests conn (conn.readMessage allowed frame).subscribe s.hub h') :
      Step s (.frame conn allowed frame)
        { s with
          hub := h'
          bus := s.bus.publishAll (.frame conn.userID) (conn.readMessage allowed frame).published
          pages := Function.update s.pages conn (turnPage frame (s.pages conn)) }
  | publish {s topic event} (htopic : topic ≠ "connections") :
      Step s (.publish topic event) { s with bus := s.bus.publish .server topic event }
  | listen {s post rest} (hbus : s.bus.connections = post :: rest) :
      Step s (.listen post)
        { s with
          bus := { s.bus with connections := rest }
          timers := s.timers.listenForConnectionEvents s.now post.event }
  | startTimer {s gameID players startingTurn} :
      Step s (.startTimer gameID players startingTurn)
        { s with timers := s.timers.startTimer s.now gameID players startingTurn }
  | switchTurn {s gameID newTurn} :
      Step s (.switchTurn gameID newTurn)
        { s with timers := s.timers.switchTurn s.now gameID newTurn }
  | stopTimer {s gameID} :
      Step s (.stopTimer gameID) { s with timers := s.timers.stopTimer gameID }
  | graceOver {s gameID userID} (hexpired : s.timers.expired s.now gameID userID = true) :
      Step s (.graceOver gameID userID)
        { s with
          timers := s.timers.graceOver gameID userID
          firing := (gameID, userID) :: s.firing }
  | forfeit {s gameID userID} (hfiring : (gameID, userID) ∈ s.firing) :
      Step s (.forfeit gameID userID)
        { s with
          timers := s.timers.stopTimer gameID
          firing := s.firing.erase (gameID, userID) }

theorem topicOf_ne_empty (event : Event) : Connection.topicOf event ≠ "" := by
  unfold Connection.topicOf
  split_ifs with h
  · decide
  · exact h

section Frames

variable {frame : Json} {topic : String}

theorem Joins.readMessage (h : Joins frame topic) (allowed : Bool) (conn : Connection) :
    conn.readMessage allowed frame =
      ⟨some topic, [("connections", userConnected conn.userID)]⟩ := by
  obtain ⟨event, hevent, htype, rfl⟩ := h
  simp [Connection.readMessage, hevent, Connection.handle, htype, topicOf_ne_empty]

theorem Leaves.readMessage (h : Leaves frame topic) (allowed : Bool) (conn : Connection) :
    conn.readMessage allowed frame =
      ⟨none, [("connections", userDisconnected conn.userID)]⟩ := by
  obtain ⟨event, hevent, htype, rfl⟩ := h
  simp [Connection.readMessage, hevent, Connection.handle, htype, topicOf_ne_empty]

theorem Joins.turnPage (h : Joins frame topic) (pages : Finset String) :
    turnPage frame pages = insert topic pages := by
  obtain ⟨event, hevent, htype, rfl⟩ := h
  simp [Realtime.turnPage, hevent, htype]

theorem Leaves.turnPage (h : Leaves frame topic) (pages : Finset String) :
    turnPage frame pages = pages.erase topic := by
  obtain ⟨event, hevent, htype, rfl⟩ := h
  simp [Realtime.turnPage, hevent, htype]

end Frames

theorem Requests.manager_eq {conn : Connection} {topic : Option String} {h h' : Hub}
    (hr : Requests conn topic h h') : h'.manager = h.manager := by
  cases hr with
  | none => rfl
  | some hstep => exact hstep.manager_eq

theorem Requests.holds {conn : Connection} {topic : Option String} {h h' : Hub} {msg : Post}
    (hr : Requests conn topic h h') (hholds : h'.Holds msg) : h.Holds msg := by
  cases hr with
  | none => exact hholds
  | some hstep => exact (hstep.holds hholds).resolve_right nofun

section Single

/-- A session is the only one, on some pages, with requests and events on their way. -/
def single (conn : Connection) (timers : GameTimerService) (pages : Finset String)
    (queue : List (String × Connection)) (posts : List Post) : Realtime where
  now := 0
  hub := { Hub.start with manager := Hub.start.manager.register conn, subscribe := queue }
  bus := ⟨posts, fun _ => false, fun _ => []⟩
  timers := timers
  firing := []
  pages := Function.update (fun _ => ∅) conn pages

variable (conn : Connection) (timers : GameTimerService) (pages : Finset String)
  {queue : List (String × Connection)} (posts : List Post) {frame : Json} {topic : String}

theorem single_opens : Step (start 0) (.hub (.register conn))
    (single conn ⟨fun _ => none⟩ ∅ [] [⟨userConnected conn.userID, .server⟩]) := by
  have hstep : Step (start 0) (.hub (.register conn)) _ :=
    .hub (.register rfl (by simp [start, Hub.start])) nofun
  have hbus : (start 0).bus.publishAll .server
      ((Hub.Act.register conn).published (start 0).hub.manager) =
        ⟨[⟨userConnected conn.userID, .server⟩], fun _ => false, fun _ => []⟩ := by
    simp [start, Hub.start, Hub.Act.published, Manager.registerEvents, Manager.firstSession,
      Manager.sessions, Bus.publishAll, Bus.publish_eq]
  rw [hbus] at hstep
  exact hstep

theorem single_joins (h : Joins frame topic) (hroom : queue.length < subscribeCapacity) :
    Step (single conn timers pages queue posts) (.frame conn true frame)
      (single conn timers (insert topic pages) (queue ++ [(topic, conn)])
        (posts ++ [⟨userConnected conn.userID, .frame conn.userID⟩])) := by
  have hrequests : Requests conn (conn.readMessage true frame).subscribe
      (single conn timers pages queue posts).hub
      (single conn timers pages (queue ++ [(topic, conn)]) posts).hub := by
    rw [h.readMessage]
    exact .some (.request hroom)
  have hstep : Step (single conn timers pages queue posts) (.frame conn true frame) _ :=
    .frame (Finset.mem_insert_self conn ∅) hrequests
  rw [h.readMessage, h.turnPage] at hstep
  simpa [single, Bus.publishAll, Bus.publish_eq] using hstep

theorem single_leaves (h : Leaves frame topic) :
    Step (single conn timers pages queue posts) (.frame conn true frame)
      (single conn timers (pages.erase topic) queue
        (posts ++ [⟨userDisconnected conn.userID, .frame conn.userID⟩])) := by
  have hrequests : Requests conn (conn.readMessage true frame).subscribe
      (single conn timers pages queue posts).hub (single conn timers pages queue posts).hub := by
    rw [h.readMessage]
    exact .none
  have hstep : Step (single conn timers pages queue posts) (.frame conn true frame) _ :=
    .frame (Finset.mem_insert_self conn ∅) hrequests
  rw [h.readMessage, h.turnPage] at hstep
  simpa [single, Bus.publishAll, Bus.publish_eq] using hstep

/-- A frame that says what the manager says of another user is put on the bus as it is. -/
theorem single_forges (user : ℤ) : Step (single conn timers pages queue posts)
    (.frame conn true (eventCodec.marshal (userDisconnected user)))
    (single conn timers pages queue
      (posts ++ [⟨userDisconnected user, .frame conn.userID⟩])) := by
  have hevent := eventCodec_lawful.unmarshal_marshal (userDisconnected user)
  have hread : conn.readMessage true (eventCodec.marshal (userDisconnected user)) =
      ⟨none, [("connections", userDisconnected user)]⟩ := by
    rw [Connection.readMessage, hevent]
    simp [Connection.handle, userDisconnected, Connection.topicOf]
  have hpage : turnPage (eventCodec.marshal (userDisconnected user)) pages = pages := by
    rw [turnPage, hevent]
    simp [userDisconnected]
  have hrequests : Requests conn
      (conn.readMessage true (eventCodec.marshal (userDisconnected user))).subscribe
      (single conn timers pages queue posts).hub (single conn timers pages queue posts).hub := by
    rw [hread]
    exact .none
  have hstep : Step (single conn timers pages queue posts)
      (.frame conn true (eventCodec.marshal (userDisconnected user))) _ :=
    .frame (Finset.mem_insert_self conn ∅) hrequests
  rw [hread] at hstep
  simpa [single, Bus.publishAll, Bus.publish_eq, hpage] using hstep

def joinPage (topic : String) : Json := eventCodec.marshal ⟨topic, "page:join", .null⟩

def leavePage (topic : String) : Json := eventCodec.marshal ⟨topic, "page:leave", .null⟩

theorem joins_joinPage (htopic : topic ≠ "") : Joins (joinPage topic) topic :=
  ⟨_, eventCodec_lawful.unmarshal_marshal _, rfl, if_neg htopic⟩

theorem leaves_leavePage (htopic : topic ≠ "") : Leaves (leavePage topic) topic :=
  ⟨_, eventCodec_lawful.unmarshal_marshal _, rfl, if_neg htopic⟩

end Single

end Realtime

end DotsAndBoxes
