import DotsAndBoxes.Hub.Realtime
import DotsAndBoxes.Hub.Routing

/-! # Chat messages that are kept

The session that reads a chat message puts it on the bus twice: for the worker that keeps
messages, and for the clients. The worker never looks at the type of an event, and clients may
put events on its channel. It goes by the topic inside the event, which is that of a room only
in what the session itself has signed.
-/

namespace DotsAndBoxes

open Tagged Runs

def digits (cs : List Char) : Option ℕ :=
  if cs = [] then none
  else cs.foldlM (fun n c => if c.isDigit then some (10 * n + (c.toNat - 0x30)) else none) 0

def atoi (s : List Char) : Option ℤ :=
  match s with
  | '-' :: cs => (digits cs).bind fun n => if n ≤ 2 ^ 63 then some (-n) else none
  | '+' :: cs => (digits cs).bind fun n => if n < 2 ^ 63 then some n else none
  | cs => (digits cs).bind fun n => if n < 2 ^ 63 then some n else none

inductive ChatRoom where
  | global
  | game (gameID : ℤ)
  deriving DecidableEq, Repr

def ChatRoom.ofTopic (topic : String) : Option ChatRoom :=
  if topic = "chat:global" then some .global
  else if "game:".toList.isPrefixOf topic.toList then
    (atoi (topic.toList.drop "game:".length)).map .game
  else none

structure ChatRow where
  userID : ℤ
  message : String
  sentAt : Time
  room : ChatRoom
  deriving DecidableEq, Repr

namespace ChatService

def maxMessageLength : ℕ := 500

/-- Trim a message, strip the control characters, check its length and escape it. -/
def cleaned (maxLength : ℕ) (message : String) : Option String :=
  let msg := (trimSpace message.toList).filter fun c => !isControl c
  if msg = [] ∨ maxLength < msg.length then none else some (escapeString msg)

/-- The row that is made of an event on the channel of the worker. A message with no time
that can be read is sent now. -/
def persistenceWorker (parse : String → Option Time) (now : Time) (e : Event) : Option ChatRow :=
  match chatPayloadCodec.unmarshal e.payload with
  | none => none
  | some payload =>
    match cleaned maxMessageLength payload.message with
    | none => none
    | some message =>
      let sentAt := (parse payload.timestamp).getD now
      (ChatRoom.ofTopic e.topic).map fun room => ⟨payload.userID, message, sentAt, room⟩

end ChatService

theorem chatPayloadCodec_lawful : chatPayloadCodec.Lawful :=
  Codec.lawful_struct (by decide) fun old p => by
    simp only [List.foldlM_cons, List.foldlM_nil, Field.set_get_of Codec.lawful_string,
      Field.set_get_of Codec.lawful_int]
    rfl

/-- The payload of an accepted message, with the text cleaned and the identity of the session. -/
theorem sanitize_eq_some {conn : Connection} {payload v : Json} :
    sanitize conn payload = some v ↔
      ∃ p text, chatPayloadCodec.unmarshal payload = some p ∧
        ChatService.cleaned maxChatMessageLength p.message = some text ∧
        v = chatPayloadCodec.marshal ⟨conn.userID, conn.username, text, p.timestamp⟩ := by
  have hsanitize : sanitize conn payload = (chatPayloadCodec.unmarshal payload).bind fun p =>
      (ChatService.cleaned maxChatMessageLength p.message).map fun text =>
        chatPayloadCodec.marshal ⟨conn.userID, conn.username, text, p.timestamp⟩ := by
    unfold sanitize ChatService.cleaned
    cases chatPayloadCodec.unmarshal payload with
    | none => rfl
    | some p =>
      simp only [Option.bind_some]
      split_ifs <;> rfl
  rw [hsanitize]
  simp only [Option.bind_eq_some_iff, Option.map_eq_some_iff]
  constructor
  · rintro ⟨p, hp, text, htext, rfl⟩
    exact ⟨p, text, hp, htext, rfl⟩
  · rintro ⟨p, text, hp, htext, rfl⟩
    exact ⟨p, hp, text, htext, rfl⟩

theorem ChatService.persistenceWorker_eq_some {parse : String → Option Time} {now : Time}
    {e : Event} {row : ChatRow} : persistenceWorker parse now e = some row ↔
      ∃ p text room, chatPayloadCodec.unmarshal e.payload = some p ∧
        cleaned maxMessageLength p.message = some text ∧ ChatRoom.ofTopic e.topic = some room ∧
        row = ⟨p.userID, text, (parse p.timestamp).getD now, room⟩ := by
  unfold persistenceWorker
  cases chatPayloadCodec.unmarshal e.payload with
  | none => simp
  | some p =>
    cases htext : cleaned maxMessageLength p.message with
    | none => simp [htext]
    | some text =>
      cases ChatRoom.ofTopic e.topic with
      | none => simp [htext]
      | some room => simp [htext, eq_comm]

namespace Realtime

def Act.published : Act → Manager → List (String × Event)
  | .hub a, m => a.published m
  | .frame conn allowed v, _ => (conn.readMessage allowed v).published
  | .publish topic event, _ => [(topic, event)]
  | _, _ => []

end Realtime

/-- A frame that a session has sent, and whether the limiter lets a message through. -/
structure Sent where
  conn : Connection
  allowed : Bool
  frame : Json

def Signed (conn : Connection) (e : Event) : Prop :=
  ∃ p, chatPayloadCodec.unmarshal e.payload = some p ∧ p.userID = conn.userID ∧
    p.username = conn.username

def Sent.Addresses (sent : Sent) (room : ChatRoom) : Prop :=
  ∃ event, eventCodec.unmarshal sent.frame = some event ∧ event.type = "chat:new" ∧
    sent.allowed = true ∧ (sanitize sent.conn event.payload).isSome = true ∧
    event.topic ≠ "chat:save" ∧ ChatRoom.ofTopic event.topic = some room

section Frames

variable {conn : Connection} {allowed : Bool} {frame payload : Json} {topic : String} {e : Event}

theorem signed_of_sanitize (h : sanitize conn payload = some e.payload) : Signed conn e := by
  obtain ⟨p, text, -, -, hpayload⟩ := sanitize_eq_some.mp h
  refine ⟨⟨conn.userID, conn.username, text, p.timestamp⟩, ?_, rfl, rfl⟩
  rw [hpayload, chatPayloadCodec_lawful.unmarshal_marshal]

theorem signed_of_published (he : (topic, e) ∈ (conn.readMessage allowed frame).published)
    (htype : e.type = "chat:new") : Signed conn e := by
  have hpublishes := conn.publishes_readMessage allowed frame
  generalize (conn.readMessage allowed frame).published = published at he hpublishes
  cases hpublishes with
  | nothing => cases he
  | joined =>
    cases List.mem_singleton.mp he
    simp [userConnected] at htype
  | left =>
    cases List.mem_singleton.mp he
    simp [userDisconnected] at htype
  | chat _ _ _ hv =>
    rcases List.mem_pair.mp he with h | h <;> cases h
    · exact signed_of_sanitize hv
    · exact signed_of_sanitize hv
  | passed _ hchat =>
    cases List.mem_singleton.mp he
    exact absurd htype hchat

def savable (events : List (String × Event)) : List Event :=
  (events.filter fun e => e.1 = "chat:save" ∧ (ChatRoom.ofTopic e.2.topic).isSome).map Prod.snd

theorem ofTopic_save : ChatRoom.ofTopic "chat:save" = none := by decide

theorem topic_eq_topicOf {event : Event} (h : Connection.topicOf event ≠ "global:lobbies") :
    event.topic = Connection.topicOf event := by
  unfold Connection.topicOf at h ⊢
  split_ifs at h ⊢
  · exact absurd rfl h
  · rfl

/-- Of what a frame puts on the bus, the worker makes use of one event at most, and that is a
signed message to its room. -/
theorem savable_readMessage (conn : Connection) (allowed : Bool) (frame : Json) :
    savable (conn.readMessage allowed frame).published = [] ∨
      ∃ e room, savable (conn.readMessage allowed frame).published = [e] ∧ Signed conn e ∧
        ChatRoom.ofTopic e.topic = some room ∧ (Sent.mk conn allowed frame).Addresses room := by
  have hpublishes := conn.publishes_readMessage allowed frame
  generalize (conn.readMessage allowed frame).published = published at hpublishes ⊢
  cases hpublishes with
  | nothing => exact .inl rfl
  | joined => exact .inl rfl
  | left => exact .inl rfl
  | @chat event v hevent hchat hallowed hv =>
    by_cases hsave : Connection.topicOf event = "chat:save"
    · have htopic : event.topic = "chat:save" :=
        (topic_eq_topicOf (hsave ▸ by decide)).trans hsave
      left
      simp [savable, hsave, htopic, ofTopic_save]
    · cases hroom : ChatRoom.ofTopic (Connection.topicOf event) with
      | none =>
        left
        simp [savable, hsave, hroom]
      | some room =>
        have htopic : event.topic = Connection.topicOf event := by
          apply topic_eq_topicOf
          rintro hglobal
          rw [hglobal] at hroom
          exact absurd hroom (by simp [show ChatRoom.ofTopic "global:lobbies" = none by decide])
        right
        refine ⟨⟨Connection.topicOf event, "chat:new", v⟩, room, ?_, signed_of_sanitize hv, hroom,
          event, hevent, hchat, hallowed, ?_, ?_, ?_⟩
        · simp [savable, hsave, hroom]
        · rw [hv]
          rfl
        · rwa [htopic]
        · rwa [htopic]
  | @passed event =>
    left
    by_cases hsave : Connection.topicOf event = "chat:save"
    · have htopic : event.topic = "chat:save" :=
        (topic_eq_topicOf (hsave ▸ by decide)).trans hsave
      simp [savable, htopic, ofTopic_save]
    · simp [savable, hsave]

/-- The server sends no messages, and puts nothing on the channel of the worker. -/
theorem Notice.quiet {notice : Notice} {p : Publication} (hp : p ∈ notice.publications) :
    p.channel ≠ "chat:save" ∧ p.event.type ≠ "chat:new" := by
  have hlobby (lobbyID : String) : lobbyTopic lobbyID ≠ "chat:save" := by
    intro h
    simpa [lobbyTopic] using congrArg String.toList h
  have huser (userID : ℤ) : userTopic userID ≠ "chat:save" := by
    intro h
    simpa [userTopic] using congrArg String.toList h
  have hgame (gameID : ℤ) : gameTopic gameID ≠ "chat:save" := by
    intro h
    simpa [gameTopic] using congrArg String.toList h
  cases notice with
  | joinLobby lobbyID | leaveLobby lobbyID | setPlayerReady lobbyID =>
    rcases List.mem_pair.mp hp with rfl | rfl
    · exact ⟨hlobby lobbyID, by simp⟩
    · exact ⟨by simp, by simp⟩
  | createLobby | leaveAsLast | deleteLobby | createGame | gameCompleted =>
    obtain rfl := List.mem_singleton.mp hp
    exact ⟨by simp [publishIntegrationEvent], by simp [publishIntegrationEvent]⟩
  | gameState gameID | timerState gameID =>
    obtain rfl := List.mem_singleton.mp hp
    exact ⟨hgame gameID, by simp [publishIntegrationEvent]⟩
  | lobbyGameStarted lobbyID gameID playerIDs =>
    simp only [publications, publishLobbyGameStarted] at hp
    split at hp
    · cases hp
    · rcases List.mem_cons.mp hp with rfl | hp
      · exact ⟨hlobby lobbyID, by simp [publishIntegrationEvent]⟩
      · obtain ⟨pid, -, rfl⟩ := List.mem_map.mp hp
        exact ⟨huser pid, by simp [publishIntegrationEvent]⟩

theorem Hub.Act.published_quiet {a : Hub.Act} {m : Manager} (he : (topic, e) ∈ a.published m) :
    topic ≠ "chat:save" ∧ e.type ≠ "chat:new" := by
  cases a with
  | register conn =>
    obtain ⟨event, hevent, heq⟩ := List.mem_map.mp he
    cases heq
    unfold Manager.registerEvents at hevent
    split_ifs at hevent
    · obtain rfl := List.mem_singleton.mp hevent
      constructor <;> simp [userConnected]
    · cases hevent
  | unregister conn =>
    obtain ⟨event, hevent, heq⟩ := List.mem_map.mp he
    cases heq
    unfold Manager.unregisterEvents at hevent
    split_ifs at hevent
    · obtain rfl := List.mem_singleton.mp hevent
      constructor <;> simp [userDisconnected]
    · cases hevent
  | _ => cases he

end Frames

/-- An event on the bus under a topic, with the number of the frame that put it there, or none
for the server. -/
structure Posted where
  frame : Option ℕ
  topic : String
  event : Event

/-- The realtime system with the worker. Frames are numbered in the order they are read. -/
structure Chat where
  realtime : Realtime
  sent : List Sent
  posted : List Posted
  /-- The events on the channel of the worker that it has not received yet. -/
  saving : List (Option ℕ × Event)
  /-- The rows that were saved, each with the frame it comes from. -/
  rows : List (Option ℕ × ChatRow)

namespace Chat

inductive Act where
  | realtime (a : Realtime.Act)
  /-- The worker receives an event. Saving a row may fail. -/
  | persist (now : Time) (saved : Bool)

def frameOf : Realtime.Act → Option Sent
  | .frame conn allowed frame => some ⟨conn, allowed, frame⟩
  | _ => none

def start (now : Time) : Chat := ⟨.start now, [], [], [], []⟩

/-- Put events on the bus; a subscriber reads what was written. -/
def publishAll (number : Option ℕ) (events : List (String × Event)) (s : Chat) : Chat :=
  { s with
    posted := s.posted ++ events.map fun e => ⟨number, e.1, e.2⟩
    saving := s.saving ++ (events.filter fun e => e.1 = "chat:save").filterMap fun e =>
      (eventCodec.unmarshal (eventCodec.marshal e.2)).map fun event => (number, event) }

inductive Step (parse : String → Option Time) : Chat → Act → Chat → Prop where
  | realtime {s a r'} (hstep : Realtime.Step s.realtime a r')
      (hserver : ∀ topic event, a = .publish topic event →
        ∃ notice : Notice, ⟨topic, event⟩ ∈ notice.publications) :
      Step parse s (.realtime a)
        (publishAll ((frameOf a).map fun _ => s.sent.length)
          (a.published s.realtime.hub.manager)
          { s with realtime := r', sent := s.sent ++ (frameOf a).toList })
  | persist {s number event rest now saved} (hsaving : s.saving = (number, event) :: rest) :
      Step parse s (.persist now saved)
        { s with
          saving := rest
          rows := s.rows ++ if saved then
              (ChatService.persistenceWorker parse now event).toList.map fun row => (number, row)
            else [] }

def SentBy (s : Chat) (number : Option ℕ) (sent : Sent) : Prop :=
  ∃ n, number = some n ∧ s.sent[n]? = some sent

/-- Messages on the bus are signed, the rows are of messages to their rooms, and no frame
is kept twice. -/
structure Authentic (s : Chat) : Prop where
  posted : ∀ post ∈ s.posted, post.event.type = "chat:new" →
    ∃ sent, s.SentBy post.frame sent ∧ Signed sent.conn post.event
  rows : ∀ kept ∈ s.rows, ∃ sent, s.SentBy kept.1 sent ∧ kept.2.userID = sent.conn.userID ∧
    sent.Addresses kept.2.room
  once : (s.rows.map Prod.fst).Nodup

variable {parse : String → Option Time} {s s' : Chat} {a : Realtime.Act} {sent : Sent}
  {number : Option ℕ} {m : Manager}

theorem SentBy.append {l : List Sent} (h : s.SentBy number sent) (hsent : s'.sent = s.sent ++ l) :
    s'.SentBy number sent := by
  obtain ⟨n, rfl, hn⟩ := h
  refine ⟨n, rfl, ?_⟩
  rw [hsent, List.getElem?_append_left (List.getElem?_eq_some_iff.mp hn).1, hn]

/-- What a step puts on the bus as a message is signed by the session whose frame it reads. -/
theorem signed_published (hserver : ∀ topic event, a = .publish topic event →
      ∃ notice : Notice, ⟨topic, event⟩ ∈ notice.publications) {topic : String} {e : Event}
    (he : (topic, e) ∈ a.published m) (htype : e.type = "chat:new") :
    ∃ sent, frameOf a = some sent ∧ Signed sent.conn e := by
  cases a with
  | frame conn allowed frame => exact ⟨_, rfl, signed_of_published he htype⟩
  | hub a => exact absurd htype (Hub.Act.published_quiet he).2
  | publish topic event =>
    cases List.mem_singleton.mp he
    obtain ⟨notice, hnotice⟩ := hserver _ _ rfl
    exact absurd htype (notice.quiet hnotice).2
  | _ => cases he

theorem savable_published (hserver : ∀ topic event, a = .publish topic event →
      ∃ notice : Notice, ⟨topic, event⟩ ∈ notice.publications) :
    savable (a.published m) = [] ∨ ∃ sent e room, frameOf a = some sent ∧
      savable (a.published m) = [e] ∧ Signed sent.conn e ∧ ChatRoom.ofTopic e.topic = some room ∧
      sent.Addresses room := by
  cases a with
  | frame conn allowed frame =>
    refine (savable_readMessage conn allowed frame).imp_right ?_
    rintro ⟨e, room, hsavable, hrest⟩
    exact ⟨_, e, room, rfl, hsavable, hrest⟩
  | hub a =>
    left
    rw [savable, List.map_eq_nil_iff, List.filter_eq_nil_iff]
    rintro ⟨topic, e⟩ he
    simp [(Hub.Act.published_quiet he).1]
  | publish topic event =>
    obtain ⟨notice, hnotice⟩ := hserver _ _ rfl
    have hquiet := (notice.quiet hnotice).1
    left
    simpa [Realtime.Act.published, savable] using fun h => absurd h hquiet
  | _ => exact .inl rfl

theorem saving_publishAll (number : Option ℕ) (events : List (String × Event)) (s : Chat) :
    (s.publishAll number events).saving =
      s.saving ++ (events.filter fun e => e.1 = "chat:save").map fun e => (number, e.2) := by
  have hread (e : String × Event) : ((eventCodec.unmarshal (eventCodec.marshal e.2)).map
      fun event => (number, event)) = some (number, e.2) := by
    rw [eventCodec_lawful.unmarshal_marshal, Option.map_some]
  simp only [publishAll, hread, List.filterMap_eq_map']

def toSave (s : Chat) : List (Option ℕ) :=
  (s.saving.filter fun e => (ChatRoom.ofTopic e.2.topic).isSome).map Prod.fst

theorem toSave_publishAll (number : Option ℕ) (events : List (String × Event)) (s : Chat) :
    (s.publishAll number events).toSave =
      s.toSave ++ (savable events).map fun _ => number := by
  rw [toSave, saving_publishAll, List.filter_append, List.map_append, toSave, savable]
  simp [List.filter_map, List.filter_filter, Function.comp_def, Bool.and_comm]

/-- What is on its way to the worker is a signed message to its room, and no frame has more
than one such message that is saved or to be saved. -/
structure Kept (s : Chat) : Prop where
  authentic : Authentic s
  saving : ∀ e ∈ s.saving, ∀ room, ChatRoom.ofTopic e.2.topic = some room →
    ∃ sent, s.SentBy e.1 sent ∧ Signed sent.conn e.2 ∧ sent.Addresses room
  once : (s.rows.map Prod.fst ++ s.toSave).Nodup

theorem kept_start (now : Time) : Kept (start now) := by
  constructor
  · constructor
    · rintro post hpost
      cases hpost
    · rintro kept hkept
      cases hkept
    · exact List.nodup_nil
  · rintro e he
    cases he
  · exact List.nodup_nil

theorem sentBy_read {r' : Realtime} {events : List (String × Event)} (hframe : frameOf a = some sent) :
    (publishAll ((frameOf a).map fun _ => s.sent.length) events
      { s with realtime := r', sent := s.sent ++ (frameOf a).toList }).SentBy
        ((frameOf a).map fun _ => s.sent.length) sent := by
  refine ⟨s.sent.length, ?_, ?_⟩
  · rw [hframe, Option.map_some]
  · simp [publishAll, hframe]

theorem SentBy.ne_read (h : s.SentBy number sent) : number ≠ some s.sent.length := by
  rintro rfl
  obtain ⟨n, hn, hget⟩ := h
  obtain rfl := Option.some.inj hn
  simp at hget

theorem Kept.sentBy (h : Kept s) (hmem : number ∈ s.rows.map Prod.fst ++ s.toSave) :
    ∃ sent, s.SentBy number sent := by
  rcases List.mem_append.mp hmem with hrow | hsave
  · obtain ⟨kept, hkept, rfl⟩ := List.mem_map.mp hrow
    obtain ⟨sent, hsent, -⟩ := h.authentic.rows kept hkept
    exact ⟨sent, hsent⟩
  · obtain ⟨e, he, rfl⟩ := List.mem_map.mp hsave
    obtain ⟨he, hroom⟩ := List.mem_filter.mp he
    obtain ⟨room, hroom⟩ := Option.isSome_iff_exists.mp hroom
    obtain ⟨sent, hsent, -⟩ := h.saving e he room hroom
    exact ⟨sent, hsent⟩

theorem Kept.realtime {r' : Realtime} (h : Kept s)
    (hserver : ∀ topic event, a = .publish topic event →
      ∃ notice : Notice, ⟨topic, event⟩ ∈ notice.publications) :
    Kept (publishAll ((frameOf a).map fun _ => s.sent.length) (a.published m)
      { s with realtime := r', sent := s.sent ++ (frameOf a).toList }) := by
  set s' := publishAll ((frameOf a).map fun _ => s.sent.length) (a.published m)
    { s with realtime := r', sent := s.sent ++ (frameOf a).toList } with hs'
  have hold {number : Option ℕ} {sent : Sent} (hsent : s.SentBy number sent) :
      s'.SentBy number sent := hsent.append rfl
  constructor
  · constructor
    · rintro post hpost htype
      rcases List.mem_append.mp hpost with hpost | hpost
      · obtain ⟨sent, hsent, hsigned⟩ := h.authentic.posted post hpost htype
        exact ⟨sent, hold hsent, hsigned⟩
      · obtain ⟨e, he, rfl⟩ := List.mem_map.mp hpost
        obtain ⟨sent, hframe, hsigned⟩ := signed_published hserver he htype
        exact ⟨sent, sentBy_read hframe, hsigned⟩
    · rintro kept hkept
      obtain ⟨sent, hsent, hrow⟩ := h.authentic.rows kept hkept
      exact ⟨sent, hold hsent, hrow⟩
    · exact h.authentic.once
  · rintro e he room hroom
    rw [hs', saving_publishAll] at he
    rcases List.mem_append.mp he with he | he
    · obtain ⟨sent, hsent, hrest⟩ := h.saving e he room hroom
      exact ⟨sent, hold hsent, hrest⟩
    · obtain ⟨⟨topic, e⟩, hnew, rfl⟩ := List.mem_map.mp he
      obtain ⟨hnew, htopic⟩ := List.mem_filter.mp hnew
      have hmem : e ∈ savable (a.published m) := by
        refine List.mem_map.mpr ⟨(topic, e), List.mem_filter.mpr ⟨hnew, ?_⟩, rfl⟩
        simpa [hroom] using htopic
      rcases savable_published (m := m) hserver with hnone | ⟨sent, e', room', hframe, hone, hrest⟩
      · rw [hnone] at hmem
        cases hmem
      · rw [hone] at hmem
        obtain rfl := List.mem_singleton.mp hmem
        obtain ⟨hsigned, hroom', haddresses⟩ := hrest
        obtain rfl := Option.some.inj (hroom.symm.trans hroom')
        exact ⟨sent, sentBy_read hframe, hsigned, haddresses⟩
  · have honce := h.once
    change (s.rows.map Prod.fst ++ s'.toSave).Nodup
    rw [hs', toSave_publishAll, ← List.append_assoc]
    change ((s.rows.map Prod.fst ++ s.toSave) ++ _).Nodup
    rcases savable_published (m := m) hserver with hnone | ⟨sent, e, room, hframe, hone, -⟩
    · rw [hnone]
      simpa using honce
    · rw [hone, hframe]
      refine List.nodup_append.mpr ⟨honce, List.nodup_singleton _, ?_⟩
      rintro number hnumber _ hnew rfl
      obtain ⟨sent, hsent⟩ := h.sentBy hnumber
      exact hsent.ne_read (List.mem_singleton.mp hnew)

theorem Kept.persist {event : Event} {rest : List (Option ℕ × Event)} {now : Time} {saved : Bool}
    (h : Kept s) (hsaving : s.saving = (number, event) :: rest) :
    Kept { s with
      saving := rest
      rows := s.rows ++ if saved then
          (ChatService.persistenceWorker parse now event).toList.map fun row => (number, row)
        else [] } := by
  have hrest (e : Option ℕ × Event) (he : e ∈ rest) : e ∈ s.saving :=
    hsaving ▸ List.mem_cons_of_mem _ he
  have hdropped : Kept { s with saving := rest } := by
    constructor
    · exact ⟨h.authentic.posted, h.authentic.rows, h.authentic.once⟩
    · exact fun e he => h.saving e (hrest e he)
    · have honce := h.once
      rw [toSave, hsaving] at honce
      exact honce.sublist (((List.sublist_cons_self _ _).filter _).map _ |>.append_left _)
  cases saved with
  | false => simpa using hdropped
  | true =>
    cases hrow : ChatService.persistenceWorker parse now event with
    | none => simpa [hrow] using hdropped
    | some row =>
      obtain ⟨p, text, room, hp, -, hroom, rfl⟩ := ChatService.persistenceWorker_eq_some.mp hrow
      obtain ⟨sent, hsent, ⟨p', hp', huser, -⟩, haddresses⟩ :=
        h.saving (number, event) (hsaving ▸ List.mem_cons_self) room hroom
      obtain rfl := Option.some.inj (hp.symm.trans hp')
      have honce := h.once
      rw [toSave, hsaving, List.filter_cons_of_pos (by simp [hroom]), List.map_cons,
        List.append_cons] at honce
      simp only [if_true, Option.toList_some, List.map_cons, List.map_nil]
      constructor
      · refine ⟨h.authentic.posted, ?_, ?_⟩
        · rintro kept hkept
          rcases List.mem_append.mp hkept with hkept | hkept
          · exact h.authentic.rows kept hkept
          · obtain rfl := List.mem_singleton.mp hkept
            exact ⟨sent, hsent, huser, haddresses⟩
        · rw [List.map_append]
          exact (List.nodup_append.mp honce).1
      · exact hdropped.saving
      · rw [List.map_append]
        exact honce

theorem Kept.step {a : Act} (h : Kept s) (hstep : Step parse s a s') : Kept s' := by
  cases hstep with
  | realtime _ hserver => exact h.realtime hserver
  | persist hsaving => exact h.persist hsaving

/-- Whatever frames the clients send, in whatever order they are read and their messages are
saved, messages are in the name of those who sent them and each is saved at most once. -/
theorem chat_is_authentic {now : Time} {run : List (Act × Chat)}
    (hrun : Along (Step parse) (start now) run) : ∀ s ∈ visited (start now) run, Authentic s := by
  have hkept := hrun.forall_visited (kept_start now) fun _ _ _ h hstep => h.step hstep
  rintro s hs
  exact (hkept s hs).authentic

def ann : Connection := ⟨0, 1, "ann"⟩

/-- A frame that says something to everyone in the name of another user. -/
def posing (text : String) : Json :=
  eventCodec.marshal ⟨"chat:global", "chat:new", chatPayloadCodec.marshal ⟨2, "eve", text, ""⟩⟩

theorem readMessage_posing {text t : String}
    (h : ChatService.cleaned maxChatMessageLength text = some t) :
    ann.readMessage true (posing text) =
      let payload := chatPayloadCodec.marshal ⟨1, "ann", t, ""⟩
      ⟨none, [("chat:save", ⟨"chat:global", "chat:new", payload⟩),
        ("chat:global", ⟨"chat:global", "chat:new", payload⟩)]⟩ := by
  have hclean : sanitize ann (chatPayloadCodec.marshal ⟨2, "eve", text, ""⟩) =
      some (chatPayloadCodec.marshal ⟨1, "ann", t, ""⟩) :=
    sanitize_eq_some.mpr ⟨_, t, chatPayloadCodec_lawful.unmarshal_marshal _, h, rfl⟩
  rw [posing, Connection.readMessage, eventCodec_lawful.unmarshal_marshal]
  simp [Connection.handle, Connection.topicOf, hclean]

theorem greeting_steps (parse : String → Option Time) : ∃ s₁ s₂,
    Step parse (start 0) (.realtime (.hub (.register ann))) s₁ ∧ s₁.rows = [] ∧
    Step parse s₁ (.realtime (.frame ann true (posing " hi "))) s₂ ∧ s₂.rows = [] ∧
    s₂.saving = [(some 0, ⟨"chat:global", "chat:new",
      chatPayloadCodec.marshal ⟨1, "ann", "hi", ""⟩⟩)] ∧
    ∃ post ∈ s₂.posted, post.event = ⟨"chat:global", "chat:new",
      chatPayloadCodec.marshal ⟨1, "ann", "hi", ""⟩⟩ := by
  have hread : ann.readMessage true (posing " hi ") = _ := readMessage_posing (t := "hi") (by decide)
  set opened := Realtime.single ann ⟨fun _ => none⟩ ∅ [] [⟨userConnected ann.userID, .server⟩]
  obtain ⟨s₁, hregister, hopened, hsent, hsaving, hrows⟩ : ∃ s₁, Step parse (start 0)
      (.realtime (.hub (.register ann))) s₁ ∧ s₁.realtime = opened ∧ s₁.sent = [] ∧
        s₁.saving = [] ∧ s₁.rows = [] := by
    refine ⟨_, .realtime (Realtime.single_opens ann) (fun _ _ h => by cases h), rfl, rfl, ?_, rfl⟩
    rw [saving_publishAll]
    simp [start, Realtime.Act.published, Hub.Act.published]
  obtain ⟨r', hframe⟩ : ∃ r', Realtime.Step s₁.realtime (.frame ann true (posing " hi ")) r' :=
    ⟨_, .frame (hopened ▸ Finset.mem_insert_self ann ∅) (by rw [hread]; exact .none)⟩
  have hsaid : ("chat:global", (⟨"chat:global", "chat:new",
      chatPayloadCodec.marshal ⟨1, "ann", "hi", ""⟩⟩ : Event)) ∈
        (Realtime.Act.frame ann true (posing " hi ")).published s₁.realtime.hub.manager := by
    simp [Realtime.Act.published, hread]
  refine ⟨s₁, _, hregister, hrows, .realtime hframe (fun _ _ h => by cases h), hrows, ?_,
    _, List.mem_append_right _ (List.mem_map_of_mem hsaid), rfl⟩
  rw [saving_publishAll]
  simp [hsent, hsaving, frameOf, Realtime.Act.published, hread]

theorem persistenceWorker_greeting : ChatService.persistenceWorker (fun _ => none) 0
    ⟨"chat:global", "chat:new", chatPayloadCodec.marshal ⟨1, "ann", "hi", ""⟩⟩ =
      some ⟨1, "hi", 0, .global⟩ :=
  ChatService.persistenceWorker_eq_some.mpr ⟨⟨1, "ann", "hi", ""⟩, "hi", .global,
    chatPayloadCodec_lawful.unmarshal_marshal _, by decide, by decide, rfl⟩

theorem chat_is_authentic_greeting : ∃ s : Chat,
    s.rows = [(some 0, ⟨1, "hi", 0, .global⟩)] ∧ Authentic s := by
  obtain ⟨s₁, s₂, hregister, -, hgreet, hnone, hqueued, -⟩ := greeting_steps fun _ => none
  have hsaved : Step (fun _ => none) s₂ (.persist 0 true) _ := .persist hqueued
  have hrun : Along (Step fun _ => none) (start 0) [(_, s₁), (_, s₂), (_, _)] :=
    ⟨hregister, hgreet, hsaved, trivial⟩
  refine ⟨_, ?_, chat_is_authentic hrun _ (last_mem_visited _ _)⟩
  simp [last, hnone, persistenceWorker_greeting]

end Chat

end DotsAndBoxes
