import DotsAndBoxes.Hub.ChatHistory
import DotsAndBoxes.Library.Trimming

/-! # The box of a chat

The box of a room shows the messages that it fetched, and after them those that came in since. A
fetched list takes the place of all that was shown before. Whatever comes when, each message that
is shown was said to the room by a session of the user whose id it has.
-/

namespace DotsAndBoxes

open Tagged Runs Trimming PgChatRepository

def ChatMessage.marshal (stamp : Time → String) (m : ChatMessage) : Json :=
  chatPayloadCodec.marshal ⟨m.userID, m.username, m.message, stamp m.timeStamp⟩

namespace Web

/-- The messages of a box, undefined before any have come. -/
abbrev Chatbox := Option (List Json)

def Chatbox.receive (topic : String) (message : Event) (fetchedMessages : Chatbox) : Chatbox :=
  if message.type = "chat:new" ∧ message.topic = topic then
    some (fetchedMessages.getD [] ++ [message.payload])
  else fetchedMessages

def isWhiteSpace (c : Char) : Bool :=
  c.toNat ∈ [0x20, 0xA0, 0x1680, 0x2028, 0x2029, 0x202F, 0x205F, 0x3000, 0xFEFF] ∨
    (0x09 ≤ c.toNat ∧ c.toNat ≤ 0x0D) ∨ (0x2000 ≤ c.toNat ∧ c.toNat ≤ 0x200A)

/-- The length of a string of the browser, in units of sixteen bits. -/
def codeUnits (msg : List Char) : ℕ := (msg.map fun c => if c.toNat < 0x10000 then 1 else 2).sum

namespace Chatbox

def maxMessageLength : ℕ := 500

/-- The message that is sent, in the name of the user of the browser. -/
def handleSendMessage (userID : ℤ) (username topic newMessage timestamp : String) : Option Event :=
  let trimmed := trim isWhiteSpace newMessage.toList
  if trimmed = [] ∨ maxMessageLength < codeUnits trimmed then none
  else some ⟨topic, "chat:new",
    chatPayloadCodec.marshal ⟨userID, username, .ofList trimmed, timestamp⟩⟩

theorem length_le_codeUnits (msg : List Char) : msg.length ≤ codeUnits msg := by
  induction msg with
  | nil => exact le_rfl
  | cons c msg ih =>
    rw [codeUnits, List.map_cons, List.sum_cons, List.length_cons, ← codeUnits]
    split_ifs <;> omega

/-- A message from the box is accepted when the limiter allows it, unless only control characters
are left of it. -/
theorem says_handleSendMessage_iff {userID : ℤ} {username topic newMessage timestamp : String}
    {message : Event} {room : ChatRoom} (hroom : ChatRoom.ofTopic topic = some room)
    (hsend : handleSendMessage userID username topic newMessage timestamp = some message)
    (conn : Connection) (text : String) :
    let msg := (trimSpace (trim isWhiteSpace newMessage.toList)).filter fun c => !isControl c
    (Sent.mk conn true (eventCodec.marshal message)).Says room text ↔
      msg ≠ [] ∧ text = escapeString msg := by
  intro msg
  simp only [handleSendMessage] at hsend
  split_ifs at hsend with hlength
  obtain rfl := Option.some.inj hsend
  have hshort : msg.length ≤ maxChatMessageLength := by
    have htrim : (trimSpace (trim isWhiteSpace newMessage.toList)).length ≤
        (trim isWhiteSpace newMessage.toList).length := by
      rw [trimSpace, List.length_reverse]
      exact ((List.dropWhile_suffix _).length_le.trans (by rw [List.length_reverse])).trans
        (List.dropWhile_suffix _).length_le
    have hunits := length_le_codeUnits (trim isWhiteSpace newMessage.toList)
    have hfilter : msg.length ≤ (trimSpace (trim isWhiteSpace newMessage.toList)).length :=
      List.length_filter_le _ _
    have hbound := not_lt.mp (not_or.mp hlength).2
    simp only [maxMessageLength] at hbound
    simp only [maxChatMessageLength]
    omega
  have hcleaned : ChatService.cleaned maxChatMessageLength
      (.ofList (trim isWhiteSpace newMessage.toList)) =
        if msg = [] then none else some (escapeString msg) := by
    simp [ChatService.cleaned, msg, not_lt.mpr hshort]
  constructor
  · rintro ⟨event, p, hevent, -, -, -, hp, htext⟩
    rw [eventCodec_lawful.unmarshal_marshal] at hevent
    obtain rfl := Option.some.inj hevent
    rw [chatPayloadCodec_lawful.unmarshal_marshal] at hp
    obtain rfl := Option.some.inj hp
    rw [hcleaned] at htext
    split_ifs at htext with hnil
    exact ⟨hnil, (Option.some.inj htext).symm⟩
  · rintro ⟨hnil, rfl⟩
    refine ⟨_, _, eventCodec_lawful.unmarshal_marshal _, rfl, rfl, hroom,
      chatPayloadCodec_lawful.unmarshal_marshal _, ?_⟩
    rw [hcleaned, if_neg hnil]

end Chatbox

/-- The chats, the users, and the box of a room with the fetched lists that are on their way. -/
structure Chatting where
  chat : Chat
  users : Users := .empty
  answers : List (List Json) := []
  fetchedMessages : Chatbox := none

namespace Chatting

inductive Act where
  | chat (a : Chat.Act)
  | insert (username : String) (password : Option String) (isGuest : Bool)
  | upgrade (userID : ℤ) (username password : String)
  | fetch (now : Time)
  | answer
  | lose
  | receive (message : Event)

/-- A row is saved only of a user there is. What was published reaches the box in any order, or
not at all. -/
inductive Step (parse : String → Option Time) (stamp : Time → String) (topic : String)
    (room : ChatRoom) : Chatting → Act → Chatting → Prop where
  | chat {s a chat'} (hstep : Chat.Step parse s.chat a chat')
      (hkey : ForeignKey (chat'.rows.map Prod.snd) s.users) :
      Step parse stamp topic room s (.chat a) { s with chat := chat' }
  | insert {s username password isGuest} :
      Step parse stamp topic room s (.insert username password isGuest)
        { s with users := s.users.insert username password isGuest }
  | upgrade {s userID username password} :
      Step parse stamp topic room s (.upgrade userID username password)
        { s with users := s.users.upgrade userID username password }
  | fetch {s now messages}
      (hanswer : Answers now room (s.chat.rows.map Prod.snd) s.users (some messages)) :
      Step parse stamp topic room s (.fetch now)
        { s with answers := s.answers ++ [messages.map (ChatMessage.marshal stamp)] }
  | answer {s before messages after} (hanswers : s.answers = before ++ messages :: after) :
      Step parse stamp topic room s .answer
        { s with answers := before ++ after, fetchedMessages := some messages }
  | lose {s answers} (hanswers : answers.Sublist s.answers) :
      Step parse stamp topic room s .lose { s with answers }
  | receive {s post} (hpost : post ∈ s.chat.posted) :
      Step parse stamp topic room s (.receive post.event)
        { s with fetchedMessages := s.fetchedMessages.receive topic post.event }

/-- The message was said to the room by a session of its user. It has the text that was accepted
and the name of the session, or that text cleaned once more and a name that the user had. -/
def Authentic (V : Set Chatting) (room : ChatRoom) (sent : List Sent) (v : Json) : Prop :=
  ∃ frame ∈ sent, ∃ p text, v = chatPayloadCodec.marshal p ∧ p.userID = frame.conn.userID ∧
    frame.Says room text ∧
    (p.username = frame.conn.username ∧ p.message = text ∨
      ChatService.cleaned ChatService.maxMessageLength text = some p.message ∧
        ∃ m ∈ V, ∃ u ∈ m.users.rows, u.userID = p.userID ∧ u.username = p.username)

section Runs

variable {parse : String → Option Time} {stamp : Time → String} {topic : String} {room : ChatRoom}
  {V : Set Chatting} {s s' : Chatting} {act : Act} {sent sent' : List Sent} {v : Json}

theorem Authentic.mono (h : Authentic V room sent v) (hsent : sent ⊆ sent') :
    Authentic V room sent' v := by
  obtain ⟨frame, hframe, hrest⟩ := h
  exact ⟨frame, hsent hframe, hrest⟩

theorem authentic_marshal {now : Time} {messages : List ChatMessage} (hs : s ∈ V)
    (hspoken : s.chat.Spoken)
    (h : RoomHistory now room (s.chat.rows.map Prod.snd) s.users messages) :
    ∀ m ∈ messages, Authentic V room s.chat.sent (m.marshal stamp) := by
  intro m hm
  have hrow : (m.userID, m.message, m.timeStamp) ∈ messages.map fun m =>
      (m.userID, m.message, m.timeStamp) := List.mem_map_of_mem hm
  rw [h.complete.mem_iff] at hrow
  obtain ⟨row, hrecent, heq⟩ := List.mem_map.mp hrow
  simp only [Prod.mk.injEq] at heq
  obtain ⟨huser, hmessage, -⟩ := heq
  obtain ⟨hrows, hroom⟩ := List.mem_filter.mp hrecent
  have hroom : row.room = room := (of_decide_eq_true hroom).1
  obtain ⟨kept, hkept, rfl⟩ := List.mem_map.mp hrows
  obtain ⟨frame, hframe, hid, text, hsays, hclean⟩ := hspoken.rows kept hkept
  obtain ⟨u, hu, huser', hname⟩ := h.named m hm
  exact ⟨frame, hframe, _, text, rfl, huser ▸ hid, hroom ▸ hsays,
    .inr ⟨hclean.trans (congrArg some hmessage), s, hs, u, hu, huser', hname⟩⟩

/-- What holds on every run: of the tables, and of what is shown or on its way to be. -/
structure Sound (V : Set Chatting) (room : ChatRoom) (s : Chatting) : Prop where
  spoken : s.chat.Spoken
  key : ForeignKey (s.chat.rows.map Prod.snd) s.users
  answers : ∀ messages ∈ s.answers, ∀ v ∈ messages, Authentic V room s.chat.sent v
  shown : ∀ messages, s.fetchedMessages = some messages →
    ∀ v ∈ messages, Authentic V room s.chat.sent v

theorem sent_subset {chat chat' : Chat} {a : Chat.Act} (hstep : Chat.Step parse chat a chat') :
    chat.sent ⊆ chat'.sent := by
  cases hstep with
  | realtime => exact List.subset_append_left _ _
  | persist => exact List.Subset.refl _

theorem Sound.step (h : Sound V room s) (hroom : ChatRoom.ofTopic topic = some room) (hs : s ∈ V)
    (hstep : Step parse stamp topic room s act s') : Sound V room s' := by
  cases hstep with
  | chat hchat hkey =>
    have hsent := sent_subset hchat
    exact ⟨h.spoken.step hchat, hkey,
      fun messages hmessages v hv => (h.answers messages hmessages v hv).mono hsent,
      fun messages hmessages v hv => (h.shown messages hmessages v hv).mono hsent⟩
  | insert =>
    refine ⟨h.spoken, fun row hrow => ?_, h.answers, h.shown⟩
    simp [Users.insert, h.key row hrow]
  | upgrade =>
    refine ⟨h.spoken, fun row hrow => ?_, h.answers, h.shown⟩
    simpa [Users.upgrade, Function.comp_def, Users.userID_upgraded] using h.key row hrow
  | fetch hanswer =>
    refine ⟨h.spoken, h.key, fun messages hmessages => ?_, h.shown⟩
    rcases List.mem_append.mp hmessages with hold | hnew
    · exact h.answers messages hold
    · obtain ⟨_, heq, hhistory⟩ := hanswer.history h.key
      obtain rfl := Option.some.inj heq
      obtain rfl := List.mem_singleton.mp hnew
      rintro v hv
      obtain ⟨m, hm, rfl⟩ := List.mem_map.mp hv
      exact authentic_marshal hs h.spoken hhistory m hm
  | @answer before messages after hanswers =>
    have hsub : before ++ after ⊆ s.answers := by
      rw [hanswers]
      exact ((List.sublist_cons_self messages after).append_left before).subset
    refine ⟨h.spoken, h.key, fun m hm => h.answers m (hsub hm), ?_⟩
    rintro _ ⟨⟩
    exact h.answers messages (by simp [hanswers])
  | lose hanswers =>
    exact ⟨h.spoken, h.key, fun m hm => h.answers m (hanswers.subset hm), h.shown⟩
  | @receive post hpost =>
    refine ⟨h.spoken, h.key, h.answers, fun messages hmessages => ?_⟩
    unfold Chatbox.receive at hmessages
    split_ifs at hmessages with hchat
    · obtain rfl := Option.some.inj hmessages
      obtain ⟨htype, htopic⟩ := hchat
      intro v hv
      rcases List.mem_append.mp hv with hold | hnew
      · cases hshown : s.fetchedMessages with
        | none =>
          rw [hshown] at hold
          cases hold
        | some shown =>
          rw [hshown] at hold
          exact h.shown shown hshown v hold
      · obtain rfl := List.mem_singleton.mp hnew
        obtain ⟨sent, hsent, text, timestamp, hsays, hpayload⟩ :=
          h.spoken.posted post hpost htype room (htopic ▸ hroom)
        exact ⟨sent, hsent, _, text, hpayload, rfl, hsays, .inl ⟨rfl, rfl⟩⟩
    · exact h.shown messages hmessages

end Runs

def start (now : Time) : Chatting := { chat := .start now }

theorem sound_start (V : Set Chatting) (room : ChatRoom) (now : Time) :
    Sound V room (start now) :=
  ⟨Chat.spoken_start now, nofun, nofun, nofun⟩

/-- Whatever frames the clients send, whatever is saved, fetched and received when, and whichever
users get a name: the history of the room can be fetched, and has all that was kept lately, oldest
first and under the names of the users; and each message that the box shows was said to the room by
a session of the user whose id it has, with the text as it was accepted, or cleaned once more. -/
theorem box_shows_what_was_said {parse : String → Option Time} {stamp : Time → String}
    {topic : String} {room : ChatRoom} (hroom : ChatRoom.ofTopic topic = some room) {now : Time}
    {run : List (Act × Chatting)} (hrun : Along (Step parse stamp topic room) (start now) run) :
    let s := last (start now) run
    (∀ now answer, Answers now room (s.chat.rows.map Prod.snd) s.users answer →
      ∃ messages, answer = some messages ∧
        RoomHistory now room (s.chat.rows.map Prod.snd) s.users messages) ∧
    ∀ messages, s.fetchedMessages = some messages →
      ∀ v ∈ messages, Authentic (visited (start now) run) room s.chat.sent v := by
  have hsound : Sound (visited (start now) run) room (last (start now) run) :=
    (hrun.and (along_visited _ run)).inv_last (sound_start _ room now)
      fun s act s' h hstep => h.step hroom hstep.2 hstep.1
  intro s
  exact ⟨fun now answer hanswer => hanswer.history hsound.key, hsound.shown⟩

/-- A guest says hi and takes another name. The box fetches the row that was saved, and then the
broadcast comes. -/
theorem box_shows_what_was_said_greeting : ∃ s : Chatting,
    s.fetchedMessages = some [chatPayloadCodec.marshal ⟨1, "anna", "hi", "0"⟩,
      chatPayloadCodec.marshal ⟨1, "ann", "hi", ""⟩] ∧
      ∃ V, ∀ v ∈ s.fetchedMessages.getD [], Authentic V .global s.chat.sent v := by
  let parse : String → Option Time := fun _ => none
  obtain ⟨c₁, c₂, hregister, hrows₁, hgreet, hrows₂, hsaving, post, hpost, hevent⟩ :=
    Chat.greeting_steps parse
  obtain ⟨c₃, hsave, hrows₃, hposted⟩ : ∃ c₃, Chat.Step parse c₂ (.persist 0 true) c₃ ∧
      c₃.rows = [(some 0, ⟨1, "hi", 0, .global⟩)] ∧ c₃.posted = c₂.posted := by
    refine ⟨_, .persist hsaving, ?_, rfl⟩
    simp [hrows₂, parse, Chat.persistenceWorker_greeting]
  let guests : Users := Users.empty.insert "ann" none true
  let renamed : Users := guests.upgrade 1 "anna" "secret"
  let s₁ : Chatting := { start 0 with users := guests }
  let s₂ : Chatting := { s₁ with chat := c₁ }
  let s₃ : Chatting := { s₁ with chat := c₂ }
  let s₄ : Chatting := { s₁ with chat := c₃ }
  let s₅ : Chatting := { s₄ with users := renamed }
  let history : List Json := [chatPayloadCodec.marshal ⟨1, "anna", "hi", "0"⟩]
  let s₆ : Chatting := { s₅ with answers := [history] }
  let s₇ : Chatting := { s₅ with fetchedMessages := some history }
  let s₈ : Chatting :=
    { s₇ with fetchedMessages := s₇.fetchedMessages.receive "chat:global" post.event }
  have hkey {chat : Chat} (hrows : chat.rows = []) : ForeignKey (chat.rows.map Prod.snd) guests := by
    rw [hrows]
    exact fun _ hrow => by cases hrow
  have hkept : ForeignKey (c₃.rows.map Prod.snd) guests := by
    rw [hrows₃]
    intro row hrow
    obtain rfl := List.mem_singleton.mp hrow
    exact List.mem_cons_self
  have hanswers : Answers 0 .global (s₅.chat.rows.map Prod.snd) s₅.users
      (some [⟨1, "anna", "hi", 0⟩]) := by
    refine ⟨[(⟨1, "hi", 0, .global⟩, some ⟨1, "anna", some "secret", false⟩)], ⟨?_, ?_⟩, rfl⟩
    · rw [show s₅.chat.rows = _ from hrows₃]
      exact .of_eq rfl
    · exact List.pairwise_singleton _ _
  let run : List (Act × Chatting) := [(.insert "ann" none true, s₁),
    (.chat (.realtime (.hub (.register Chat.ann))), s₂),
    (.chat (.realtime (.frame Chat.ann true (Chat.posing " hi "))), s₃),
    (.chat (.persist 0 true), s₄), (.upgrade 1 "anna" "secret", s₅), (.fetch 0, s₆),
    (.answer, s₇), (.receive post.event, s₈)]
  have hrun : Along (Step parse toString "chat:global" .global) (start 0) run :=
    ⟨.insert, .chat hregister (hkey hrows₁), .chat hgreet (hkey hrows₂), .chat hsave hkept, .upgrade,
      .fetch hanswers, .answer (show s₆.answers = [] ++ history :: [] from rfl),
      .receive (hposted ▸ hpost), trivial⟩
  have hshown : s₈.fetchedMessages = some (history ++
      [chatPayloadCodec.marshal ⟨1, "ann", "hi", ""⟩]) := by
    simp [s₈, s₇, Chatbox.receive, hevent]
  refine ⟨s₈, hshown, visited (start 0) run, ?_⟩
  rw [hshown]
  exact (box_shows_what_was_said (by decide) hrun).2 _ hshown

end Chatting

end Web

end DotsAndBoxes
