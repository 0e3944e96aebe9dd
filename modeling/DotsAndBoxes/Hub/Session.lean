import DotsAndBoxes.Hub.Manager
import DotsAndBoxes.Service.Timers

/-! # Frames and connection events

A session reads the frames of its client. Frames about pages tell the timer service where
the user is; chat messages are cleaned and signed; every other frame is put on the bus as
it is, under the topic that the client chose. The timer service listens to the events
about connections, whoever put them on the bus.
-/

namespace DotsAndBoxes

open Tagged

def rawMessage : Codec Json where
  zero := .null
  marshal v := v
  assign _ v := some v

theorem rawMessage_lawful : rawMessage.Lawful := fun _ _ => rfl

def eventCodec : Codec Event :=
  .struct ⟨"", "", .null⟩
    [.of "topic" .string (fun e => e.topic) fun e topic => { e with topic },
      .of "type" .string (fun e => e.type) fun e type => { e with type },
      .of "payload" rawMessage (fun e => e.payload) fun e payload => { e with payload }]

theorem eventCodec_lawful : eventCodec.Lawful :=
  Codec.lawful_struct (by decide) fun old e => by
    simp only [List.foldlM_cons, List.foldlM_nil, Field.set_get_of Codec.lawful_string,
      Field.set_get_of rawMessage_lawful]
    rfl

structure ChatPayload where
  userID : ℤ
  username : String
  message : String
  timestamp : String

def chatPayloadCodec : Codec ChatPayload :=
  .struct ⟨0, "", "", ""⟩
    [.of "userID" .int (fun p => p.userID) fun p userID => { p with userID },
      .of "username" .string (fun p => p.username) fun p username => { p with username },
      .of "message" .string (fun p => p.message) fun p message => { p with message },
      .of "timestamp" .string (fun p => p.timestamp) fun p timestamp => { p with timestamp }]

def maxChatMessageLength : ℕ := 500

def isSpace (c : Char) : Bool :=
  c.toNat ∈ [0x20, 0x85, 0xA0, 0x1680, 0x2028, 0x2029, 0x202F, 0x205F, 0x3000] ∨
    (0x09 ≤ c.toNat ∧ c.toNat ≤ 0x0D) ∨ (0x2000 ≤ c.toNat ∧ c.toNat ≤ 0x200A)

def isControl (c : Char) : Bool := c.toNat < 0x20 ∨ (0x7F ≤ c.toNat ∧ c.toNat < 0xA0)

def trimSpace (msg : List Char) : List Char :=
  ((msg.dropWhile isSpace).reverse.dropWhile isSpace).reverse

def escapeChar (c : Char) : List Char :=
  match c.toNat with
  | 0x22 => "&#34;".toList
  | 0x26 => "&amp;".toList
  | 0x27 => "&#39;".toList
  | 0x3C => "&lt;".toList
  | 0x3E => "&gt;".toList
  | _ => [c]

def escapeString (msg : List Char) : String := .ofList (msg.flatMap escapeChar)

/-- Clean a chat message and sign it with the identity of the session. -/
def sanitize (conn : Connection) (payload : Json) : Option Json :=
  match chatPayloadCodec.unmarshal payload with
  | none => none
  | some chatPayload =>
    let msg := (trimSpace chatPayload.message.toList).filter fun c => !isControl c
    if msg = [] ∨ maxChatMessageLength < msg.length then none
    else some (chatPayloadCodec.marshal
      { chatPayload with
        message := escapeString msg
        userID := conn.userID
        username := conn.username })

/-- What handling a frame does: the topic it subscribes the session to, and what it puts on
the bus, each event with its topic. -/
structure Handled where
  subscribe : Option String
  published : List (String × Event)

namespace Connection

def topicOf (event : Event) : String :=
  if event.topic = "" then "global:lobbies" else event.topic

/-- Handle the event of a frame. The rate limiter of the chat says whether a message is
allowed. -/
def handle (allowed : Bool) (event : Event) (c : Connection) : Handled :=
  let topic := topicOf event
  if event.type = "page:join" ∧ topic ≠ "" then
    ⟨some topic, [("connections", userConnected c.userID)]⟩
  else if event.type = "page:leave" ∧ topic ≠ "" then
    ⟨none, [("connections", userDisconnected c.userID)]⟩
  else if event.type = "chat:new" then
    if !allowed then ⟨none, []⟩
    else
      match sanitize c event.payload with
      | none => ⟨none, []⟩
      | some payload =>
        ⟨none, [("chat:save", ⟨topic, "chat:new", payload⟩), (topic, { event with payload })]⟩
  else ⟨none, [(topic, event)]⟩

/-- Handle a frame; one that is no event is skipped. -/
def readMessage (allowed : Bool) (frame : Json) (c : Connection) : Handled :=
  match eventCodec.unmarshal frame with
  | none => ⟨none, []⟩
  | some event => c.handle allowed event

inductive Publishes (allowed : Bool) (frame : Json) (c : Connection) :
    List (String × Event) → Prop where
  | nothing : Publishes allowed frame c []
  | joined : Publishes allowed frame c [("connections", userConnected c.userID)]
  | left : Publishes allowed frame c [("connections", userDisconnected c.userID)]
  | chat {event : Event} {payload : Json} : eventCodec.unmarshal frame = some event →
      event.type = "chat:new" → allowed = true → sanitize c event.payload = some payload →
      Publishes allowed frame c [("chat:save", ⟨topicOf event, "chat:new", payload⟩),
        (topicOf event, { event with payload })]
  | passed {event : Event} : eventCodec.unmarshal frame = some event → event.type ≠ "chat:new" →
      Publishes allowed frame c [(topicOf event, event)]

theorem publishes_readMessage (allowed : Bool) (frame : Json) (c : Connection) :
    Publishes allowed frame c (c.readMessage allowed frame).published := by
  unfold readMessage
  cases hevent : eventCodec.unmarshal frame with
  | none => exact .nothing
  | some event =>
    simp only [handle]
    split_ifs with _ _ hchat hlimit
    · exact .joined
    · exact .left
    · exact .nothing
    · cases hv : sanitize c event.payload with
      | none => exact .nothing
      | some payload => exact .chat hevent hchat (by simpa using hlimit) hv
    · exact .passed hevent hchat

end Connection

namespace GameTimerService

/-- Act on an event about connections. The user is the one that the payload names. -/
def listenForConnectionEvents (now : Time) (e : Event) (s : GameTimerService) :
    GameTimerService :=
  match connectionPayload.unmarshal e.payload with
  | none => s
  | some userID =>
    if e.type = "user_disconnected" then s.handleDisconnect now userID
    else if e.type = "user_connected" then s.handleReconnect userID
    else s

end GameTimerService

namespace Event

/-- The timer service takes the event for a connection of the user. -/
def Connects (userID : ℤ) (e : Event) : Prop :=
  e.type = "user_connected" ∧ connectionPayload.unmarshal e.payload = some userID

/-- The timer service takes the event for a disconnection of the user. -/
def Disconnects (userID : ℤ) (e : Event) : Prop :=
  e.type = "user_disconnected" ∧ connectionPayload.unmarshal e.payload = some userID

instance (userID : ℤ) (e : Event) : Decidable (e.Connects userID) :=
  inferInstanceAs (Decidable (_ ∧ _))

instance (userID : ℤ) (e : Event) : Decidable (e.Disconnects userID) :=
  inferInstanceAs (Decidable (_ ∧ _))

variable {userID user : ℤ} {e : Event}

@[simp] theorem connects_userConnected :
    (userConnected user).Connects userID ↔ user = userID := by
  simp [Connects, userConnected, connectionPayload_lawful.unmarshal_marshal]

@[simp] theorem disconnects_userDisconnected :
    (userDisconnected user).Disconnects userID ↔ user = userID := by
  simp [Disconnects, userDisconnected, connectionPayload_lawful.unmarshal_marshal]

@[simp] theorem not_disconnects_userConnected : ¬ (userConnected user).Disconnects userID := by
  simp [Disconnects, userConnected]

@[simp] theorem not_connects_userDisconnected : ¬ (userDisconnected user).Connects userID := by
  simp [Connects, userDisconnected]

theorem Connects.not_disconnects (h : e.Connects userID) : ¬ e.Disconnects user := by
  intro hd
  exact absurd (h.1.symm.trans hd.1) (by decide)

theorem Connects.user_eq (h : e.Connects userID) (h' : e.Connects user) : userID = user :=
  Option.some.inj (h.2.symm.trans h'.2)

theorem Disconnects.user_eq (h : e.Disconnects userID) (h' : e.Disconnects user) :
    userID = user :=
  Option.some.inj (h.2.symm.trans h'.2)

end Event

namespace GameTimerService

variable {now : Time} {userID : ℤ} {e : Event} {s : GameTimerService}

theorem listen_of_connects (h : e.Connects userID) :
    s.listenForConnectionEvents now e = s.handleReconnect userID := by
  rw [listenForConnectionEvents, h.2]
  simp [h.1]

theorem listen_of_disconnects (h : e.Disconnects userID) :
    s.listenForConnectionEvents now e = s.handleDisconnect now userID := by
  rw [listenForConnectionEvents, h.2]
  simp [h.1]

theorem listen_of_other (hconnects : ∀ userID, ¬ e.Connects userID)
    (hdisconnects : ∀ userID, ¬ e.Disconnects userID) :
    s.listenForConnectionEvents now e = s := by
  unfold listenForConnectionEvents
  cases hpayload : connectionPayload.unmarshal e.payload with
  | none => rfl
  | some userID =>
    have hc : e.type ≠ "user_connected" := fun h => hconnects userID ⟨h, hpayload⟩
    have hd : e.type ≠ "user_disconnected" := fun h => hdisconnects userID ⟨h, hpayload⟩
    simp [hc, hd]

theorem listen_cases (now : Time) (e : Event) (s : GameTimerService) :
    (∃ userID, e.Connects userID ∧
        s.listenForConnectionEvents now e = s.handleReconnect userID) ∨
      (∃ userID, e.Disconnects userID ∧
        s.listenForConnectionEvents now e = s.handleDisconnect now userID) ∨
      ((∀ userID, ¬ e.Connects userID) ∧ (∀ userID, ¬ e.Disconnects userID) ∧
        s.listenForConnectionEvents now e = s) := by
  by_cases hc : ∃ userID, e.Connects userID
  · obtain ⟨userID, h⟩ := hc
    exact .inl ⟨userID, h, listen_of_connects h⟩
  · by_cases hd : ∃ userID, e.Disconnects userID
    · obtain ⟨userID, h⟩ := hd
      exact .inr (.inl ⟨userID, h, listen_of_disconnects h⟩)
    · rw [not_exists] at hc hd
      exact .inr (.inr ⟨hc, hd, listen_of_other hc hd⟩)

@[simp] theorem seat_listen (gameID userID : ℤ) :
    (s.listenForConnectionEvents now e).seat gameID userID = s.seat gameID userID := by
  rcases listen_cases now e s with ⟨user, -, h⟩ | ⟨user, -, h⟩ | ⟨-, -, h⟩ <;> simp [h]

theorem Seated.listen (hs : s.Seated) (now : Time) (e : Event) :
    (s.listenForConnectionEvents now e).Seated := by
  rcases listen_cases now e s with ⟨userID, -, h⟩ | ⟨userID, -, h⟩ | ⟨-, -, h⟩ <;> rw [h]
  · exact hs.handleReconnect userID
  · exact hs.handleDisconnect now userID
  · exact hs

end GameTimerService

end DotsAndBoxes
