import DotsAndBoxes.Hub.Chat
import DotsAndBoxes.Library.Queries
import DotsAndBoxes.Library.Slices
import DotsAndBoxes.User.Names

/-! # The history of chats

The endpoints of chats answer what was kept of a room in the last thirty minutes, each message
under the name that its user has now. The table of the chats refers to that of the users, so no
message is without a user.
-/

namespace DotsAndBoxes

open Tagged Runs Slices Queries

structure ChatMessage where
  userID : ℤ
  username : String
  message : String
  timeStamp : Time
  deriving DecidableEq, Repr

namespace PgChatRepository

def chatWindow : Time := 1800000000000

def recent (now : Time) (room : ChatRoom) (chats : List ChatRow) : List ChatRow :=
  chats.filter fun c => c.room = room ∧ now - chatWindow ≤ c.sentAt

/-- A row of a query. A user that is null cannot be scanned. -/
def scan (row : ChatRow × Option User) : Option ChatMessage :=
  row.2.map fun u => ⟨u.userID, u.username, row.1.message, row.1.sentAt⟩

/-- The query of a room answers this, or none when it fails. Rows of one time come in any order. -/
def Answers (now : Time) (room : ChatRoom) (chats : List ChatRow) (users : Users)
    (answer : Option (List ChatMessage)) : Prop :=
  ∃ rows, Ordered (fun a b => a.1.sentAt ≤ b.1.sentAt)
      (leftJoin (fun c u => u.userID = c.userID) (recent now room chats) users.rows) rows ∧
    answer = rows.mapM scan

def GetGlobalMessages (now : Time) : List ChatRow → Users → Option (List ChatMessage) → Prop :=
  Answers now .global

def GetGameMessage (now : Time) (gameID : ℤ) :
    List ChatRow → Users → Option (List ChatMessage) → Prop :=
  Answers now (.game gameID)

def ForeignKey (chats : List ChatRow) (users : Users) : Prop :=
  ∀ c ∈ chats, c.userID ∈ users.rows.map (·.userID)

/-- The messages of a room: all that are recent, the oldest first, each under the name of its
user. -/
structure RoomHistory (now : Time) (room : ChatRoom) (chats : List ChatRow) (users : Users)
    (messages : List ChatMessage) : Prop where
  sorted : messages.Pairwise (·.timeStamp ≤ ·.timeStamp)
  complete : (messages.map fun m => (m.userID, m.message, m.timeStamp)).Perm
    ((recent now room chats).map fun c => (c.userID, c.message, c.sentAt))
  named : ∀ m ∈ messages, ∃ u ∈ users.rows, u.userID = m.userID ∧ u.username = m.username

section Queries

variable {now : Time} {room : ChatRoom} {chats : List ChatRow} {users : Users}
  {answer : Option (List ChatMessage)}

theorem Answers.history (h : Answers now room chats users answer) (hkey : ForeignKey chats users) :
    ∃ messages, answer = some messages ∧ RoomHistory now room chats users messages := by
  obtain ⟨rows, ⟨hperm, hsorted⟩, rfl⟩ := h
  rw [leftJoin_key_eq_map users.distinct] at hperm
  have hrow : ∀ row ∈ rows, ∃ u ∈ users.rows, u.userID = row.1.userID ∧ row.2 = some u := by
    intro row hrow
    obtain ⟨c, hc, rfl⟩ := List.mem_map.mp (hperm.mem_iff.mp hrow)
    obtain ⟨u, hu, huser⟩ := List.mem_map.mp (hkey c (List.mem_of_mem_filter hc))
    have hsome : (users.rows.find? (·.userID = c.userID)).isSome := by
      rw [List.find?_isSome]
      exact ⟨u, hu, by simpa using huser⟩
    obtain ⟨found, hfound⟩ := Option.isSome_iff_exists.mp hsome
    exact ⟨found, List.mem_of_find?_eq_some hfound, by simpa using List.find?_some hfound, hfound⟩
  let message (row : ChatRow × Option User) : ChatMessage :=
    ⟨row.1.userID, (row.2.map (·.username)).getD "", row.1.message, row.1.sentAt⟩
  have hscan : ∀ row ∈ rows, scan row = some (message row) := by
    intro row hmem
    obtain ⟨u, -, huser, hsome⟩ := hrow row hmem
    simp [scan, message, hsome, huser]
  refine ⟨rows.map message, mapM_of_eq_some hscan, ?_, ?_, ?_⟩
  · exact List.pairwise_map.mpr hsorted
  · rw [List.map_map]
    have hrows := hperm.map fun row => (row.1.userID, row.1.message, row.1.sentAt)
    rwa [List.map_map] at hrows
  · rintro m hm
    obtain ⟨row, hmem, rfl⟩ := List.mem_map.mp hm
    obtain ⟨u, hu, huser, hsome⟩ := hrow row hmem
    exact ⟨u, hu, huser, by simp [message, hsome]⟩

end Queries

end PgChatRepository

/-- The frame is an accepted message to the room with this text, cleaned. -/
def Sent.Says (sent : Sent) (room : ChatRoom) (text : String) : Prop :=
  ∃ event p, eventCodec.unmarshal sent.frame = some event ∧ event.type = "chat:new" ∧
    sent.allowed = true ∧ ChatRoom.ofTopic event.topic = some room ∧
    chatPayloadCodec.unmarshal event.payload = some p ∧
    ChatService.cleaned maxChatMessageLength p.message = some text

/-- The event is what the frame says, in the name of its session. -/
def Sent.Carries (sent : Sent) (room : ChatRoom) (e : Event) : Prop :=
  ∃ text timestamp, sent.Says room text ∧ e.payload = chatPayloadCodec.marshal
    ⟨sent.conn.userID, sent.conn.username, text, timestamp⟩

/-- The row is what the frame says, cleaned once more. -/
def Sent.Keeps (sent : Sent) (row : ChatRow) : Prop :=
  row.userID = sent.conn.userID ∧ ∃ text, sent.Says row.room text ∧
    ChatService.cleaned ChatService.maxMessageLength text = some row.message

section Frames

variable {conn : Connection} {allowed : Bool} {frame : Json} {channel : String} {e : Event}
  {room : ChatRoom} {sent : Sent}

theorem ofTopic_lobbies : ChatRoom.ofTopic "global:lobbies" = none := by decide

/-- What a frame puts on the bus as a message to a room, or for the worker, is what it says. -/
theorem carries_of_published (he : (channel, e) ∈ (conn.readMessage allowed frame).published)
    (hroom : ChatRoom.ofTopic e.topic = some room)
    (hchat : e.type = "chat:new" ∨ channel = "chat:save") :
    (Sent.mk conn allowed frame).Carries room e := by
  have hpublishes := conn.publishes_readMessage allowed frame
  generalize (conn.readMessage allowed frame).published = published at he hpublishes
  cases hpublishes with
  | nothing => cases he
  | joined =>
    cases List.mem_singleton.mp he
    simp [userConnected] at hchat
  | left =>
    cases List.mem_singleton.mp he
    simp [userDisconnected] at hchat
  | @chat event v hevent htype hallowed hv =>
    obtain ⟨p, text, hp, htext, rfl⟩ := sanitize_eq_some.mp hv
    rcases List.mem_pair.mp he with h | h
    · obtain ⟨rfl, rfl⟩ := Prod.mk.inj h
      have htopic : event.topic = Connection.topicOf event := by
        apply topic_eq_topicOf
        intro hlobbies
        dsimp only at hroom
        rw [hlobbies, ofTopic_lobbies] at hroom
        cases hroom
      exact ⟨text, p.timestamp, ⟨event, p, hevent, htype, hallowed, htopic ▸ hroom, hp, htext⟩, rfl⟩
    · obtain ⟨rfl, rfl⟩ := Prod.mk.inj h
      exact ⟨text, p.timestamp, ⟨event, p, hevent, htype, hallowed, hroom, hp, htext⟩, rfl⟩
  | passed hevent htype =>
    obtain ⟨rfl, rfl⟩ := Prod.mk.inj (List.mem_singleton.mp he)
    have hsave := hchat.resolve_left htype
    have htopic : e.topic = Connection.topicOf e := topic_eq_topicOf (hsave ▸ by decide)
    rw [htopic, hsave, ofTopic_save] at hroom
    cases hroom

theorem Sent.Carries.keeps (h : sent.Carries room e) (hroom : ChatRoom.ofTopic e.topic = some room)
    {parse : String → Option Time} {now : Time} {row : ChatRow}
    (hrow : ChatService.persistenceWorker parse now e = some row) : sent.Keeps row := by
  obtain ⟨text, timestamp, hsays, hpayload⟩ := h
  obtain ⟨p, text', room', hp, htext, hroom', rfl⟩ :=
    ChatService.persistenceWorker_eq_some.mp hrow
  rw [hpayload, chatPayloadCodec_lawful.unmarshal_marshal] at hp
  obtain rfl := Option.some.inj hp
  obtain rfl := Option.some.inj (hroom.symm.trans hroom')
  exact ⟨rfl, text, hsays, htext⟩

end Frames

namespace Chat

/-- Messages on the bus and rows are what was said in frames. -/
structure Spoken (s : Chat) : Prop where
  posted : ∀ post ∈ s.posted, post.event.type = "chat:new" → ∀ room,
    ChatRoom.ofTopic post.event.topic = some room → ∃ sent ∈ s.sent, sent.Carries room post.event
  saving : ∀ e ∈ s.saving, ∀ room, ChatRoom.ofTopic e.2.topic = some room →
    ∃ sent ∈ s.sent, sent.Carries room e.2
  rows : ∀ kept ∈ s.rows, ∃ sent ∈ s.sent, sent.Keeps kept.2

variable {parse : String → Option Time} {s s' : Chat} {act : Act}

theorem spoken_start (now : Time) : (start now).Spoken :=
  ⟨nofun, nofun, nofun⟩

/-- What a step puts on the bus as a message to a room, or for the worker, is what the frame says
that it reads. -/
theorem carries_published {a : Realtime.Act} {m : Manager}
    (hserver : ∀ topic event, a = .publish topic event →
      ∃ notice : Notice, ⟨topic, event⟩ ∈ notice.publications)
    {channel : String} {e : Event} (he : (channel, e) ∈ a.published m) {room : ChatRoom}
    (hroom : ChatRoom.ofTopic e.topic = some room)
    (hchat : e.type = "chat:new" ∨ channel = "chat:save") :
    ∃ sent, frameOf a = some sent ∧ sent.Carries room e := by
  cases a with
  | frame conn allowed frame => exact ⟨_, rfl, carries_of_published he hroom hchat⟩
  | hub a =>
    obtain ⟨hsave, htype⟩ := Hub.Act.published_quiet he
    exact absurd hchat (not_or.mpr ⟨htype, hsave⟩)
  | publish topic event =>
    cases List.mem_singleton.mp he
    obtain ⟨notice, hnotice⟩ := hserver _ _ rfl
    obtain ⟨hsave, htype⟩ := notice.quiet hnotice
    exact absurd hchat (not_or.mpr ⟨htype, hsave⟩)
  | _ => cases he

theorem Spoken.step (h : s.Spoken) (hstep : Step parse s act s') : s'.Spoken := by
  cases hstep with
  | @realtime a r' hrealtime hserver =>
    have hold {sent : Sent} (hsent : sent ∈ s.sent) :
        sent ∈ s.sent ++ (frameOf a).toList := List.mem_append_left _ hsent
    have hread {sent : Sent} (hframe : frameOf a = some sent) :
        sent ∈ s.sent ++ (frameOf a).toList := List.mem_append_right _ (by simp [hframe])
    constructor
    · intro post hpost htype room hroom
      rcases List.mem_append.mp hpost with hpost | hpost
      · obtain ⟨sent, hsent, hcarries⟩ := h.posted post hpost htype room hroom
        exact ⟨sent, hold hsent, hcarries⟩
      · obtain ⟨⟨channel, e⟩, he, rfl⟩ := List.mem_map.mp hpost
        obtain ⟨sent, hframe, hcarries⟩ := carries_published hserver he hroom (.inl htype)
        exact ⟨sent, hread hframe, hcarries⟩
    · intro e he room hroom
      rw [saving_publishAll] at he
      rcases List.mem_append.mp he with he | he
      · obtain ⟨sent, hsent, hcarries⟩ := h.saving e he room hroom
        exact ⟨sent, hold hsent, hcarries⟩
      · obtain ⟨⟨channel, e⟩, hnew, rfl⟩ := List.mem_map.mp he
        obtain ⟨hnew, hsave⟩ := List.mem_filter.mp hnew
        obtain ⟨sent, hframe, hcarries⟩ :=
          carries_published hserver hnew hroom (.inr (of_decide_eq_true hsave))
        exact ⟨sent, hread hframe, hcarries⟩
    · intro kept hkept
      obtain ⟨sent, hsent, hkeeps⟩ := h.rows kept hkept
      exact ⟨sent, hold hsent, hkeeps⟩
  | @persist number event rest now saved hsaving =>
    refine ⟨h.posted, fun e he => h.saving e (hsaving ▸ List.mem_cons_of_mem _ he), ?_⟩
    intro kept hkept
    rcases List.mem_append.mp hkept with hkept | hkept
    · exact h.rows kept hkept
    · cases saved with
      | false => cases hkept
      | true =>
        obtain ⟨row, hrow, rfl⟩ := List.mem_map.mp hkept
        have hrow := Option.mem_toList.mp hrow
        obtain ⟨p, text, room, -, -, hroom, -⟩ := ChatService.persistenceWorker_eq_some.mp hrow
        obtain ⟨sent, hsent, hcarries⟩ :=
          h.saving (number, event) (hsaving ▸ List.mem_cons_self) room hroom
        exact ⟨sent, hsent, hcarries.keeps hroom hrow⟩

end Chat

end DotsAndBoxes
