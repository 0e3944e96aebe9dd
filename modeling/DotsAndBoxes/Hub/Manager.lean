import DotsAndBoxes.Library.Json
import Mathlib.Data.Finset.Insert
import Mathlib.Data.Finset.Erase

/-! # The connection manager

The manager keeps the websocket sessions of each user and the room of each topic. It
tells the event bus when a user opens a first session or closes the last one, and when
it needs the events of a topic.
-/

namespace DotsAndBoxes

open Tagged

/-- An event as it travels over the bus and to the clients. -/
structure Event where
  topic : String
  type : String
  payload : Json

def lobbyTopic (lobbyID : String) : String := "lobby:" ++ lobbyID

def userTopic (userID : ℤ) : String := "user:" ++ toString userID

def gameTopic (gameID : ℤ) : String := "game:" ++ toString gameID

/-- Where an event comes from: a component of the server, or a frame that a session of a
user sent. Nothing in the program depends on it. -/
inductive Author where
  | server
  | frame (userID : ℤ)
deriving DecidableEq

structure Post where
  event : Event
  author : Author

/-- A websocket session; two sessions of one user differ by id. -/
structure Connection where
  id : ℕ
  userID : ℤ
  username : String
deriving DecidableEq

def connectionPayload : Codec ℤ :=
  .struct 0 [.of "user_id" .int (fun userID => userID) fun _ userID => userID]

theorem connectionPayload_lawful : connectionPayload.Lawful :=
  Codec.lawful_struct (by simp) fun old a => by
    simp only [List.foldlM_cons, List.foldlM_nil, Field.set_get_of Codec.lawful_int]
    rfl

def userConnected (userID : ℤ) : Event where
  topic := "connections"
  type := "user_connected"
  payload := connectionPayload.marshal userID

def userDisconnected (userID : ℤ) : Event where
  topic := "connections"
  type := "user_disconnected"
  payload := connectionPayload.marshal userID

structure Manager where
  connections : Finset Connection
  rooms : String → Option (Finset Connection)
  /-- The sessions of each user that has one. -/
  userConns : ℤ → Option (Finset Connection)
  /-- The topics for which a goroutine was started to subscribe to the bus. -/
  subscribedBus : String → Bool

namespace Manager

def kept (conns : Finset Connection) : Option (Finset Connection) :=
  if conns = ∅ then none else some conns

def remove (conn : Connection) (conns : Finset Connection) : Option (Finset Connection) :=
  kept (conns.erase conn)

def sessions (userID : ℤ) (m : Manager) : Finset Connection := (m.userConns userID).getD ∅

def room (topic : String) (m : Manager) : Finset Connection := (m.rooms topic).getD ∅

def firstSession (conn : Connection) (m : Manager) : Bool := m.sessions conn.userID = ∅

def lastSession (conn : Connection) (m : Manager) : Bool :=
  match m.userConns conn.userID with
  | none => false
  | some sessions => sessions.erase conn = ∅

def register (conn : Connection) (m : Manager) : Manager :=
  { m with
    connections := insert conn m.connections
    userConns := Function.update m.userConns conn.userID
      (some (insert conn (m.sessions conn.userID))) }

def registerEvents (conn : Connection) (m : Manager) : List Event :=
  if m.firstSession conn then [userConnected conn.userID] else []

def unsubscribeAll (conn : Connection) (m : Manager) : Manager :=
  { m with rooms := fun topic => (m.rooms topic).bind (remove conn) }

def unregister (conn : Connection) (m : Manager) : Manager :=
  unsubscribeAll conn
    { m with
      connections := m.connections.erase conn
      userConns := Function.update m.userConns conn.userID
        ((m.userConns conn.userID).bind (remove conn)) }

def unregisterEvents (conn : Connection) (m : Manager) : List Event :=
  if m.lastSession conn then [userDisconnected conn.userID] else []

/-- A topic is subscribed to once and for all, even when its room empties. -/
def subscribe (topic : String) (conn : Connection) (m : Manager) : Manager :=
  { m with
    rooms := Function.update m.rooms topic (some (insert conn (m.room topic)))
    subscribedBus := Function.update m.subscribedBus topic true }

@[simp] theorem connections_register (conn : Connection) (m : Manager) :
    (m.register conn).connections = insert conn m.connections := rfl

@[simp] theorem connections_unregister (conn : Connection) (m : Manager) :
    (m.unregister conn).connections = m.connections.erase conn := rfl

@[simp] theorem connections_subscribe (topic : String) (conn : Connection) (m : Manager) :
    (m.subscribe topic conn).connections = m.connections := rfl

@[simp] theorem userConns_subscribe (topic : String) (conn : Connection) (m : Manager) :
    (m.subscribe topic conn).userConns = m.userConns := rfl

/-- The sessions of each user are the connections of that user. -/
def Grouped (m : Manager) : Prop :=
  ∀ userID, m.userConns userID = kept (m.connections.filter (·.userID = userID))

theorem getD_kept (conns : Finset Connection) : (kept conns).getD ∅ = conns := by
  unfold kept
  split_ifs with h
  · exact h.symm
  · rfl

theorem kept_bind_remove (conn : Connection) (conns : Finset Connection) :
    (kept conns).bind (remove conn) = kept (conns.erase conn) := by
  by_cases h : conns = ∅
  · subst h
    rfl
  · rw [kept, if_neg h]
    rfl

namespace Grouped

variable {m : Manager} (h : m.Grouped) (conn : Connection)

include h

theorem sessions (userID : ℤ) : m.sessions userID = m.connections.filter (·.userID = userID) := by
  rw [Manager.sessions, h userID, getD_kept]

theorem register : (m.register conn).Grouped := by
  intro userID
  by_cases huser : conn.userID = userID
  · subst huser
    have hnonempty : (m.register conn).connections.filter (·.userID = conn.userID) ≠ ∅ :=
      Finset.ne_empty_of_mem (a := conn) (by simp)
    rw [kept, if_neg hnonempty]
    simp [Manager.register, h.sessions, Finset.filter_insert]
  · simp [Manager.register, Finset.filter_insert, huser, Function.update_of_ne (Ne.symm huser),
      h userID]

theorem unregister : (m.unregister conn).Grouped := by
  intro userID
  have hconns : (m.connections.erase conn).filter (·.userID = userID) =
      (m.connections.filter (·.userID = userID)).erase conn := Finset.filter_erase _ _ _
  rw [connections_unregister, hconns]
  by_cases huser : conn.userID = userID
  · subst huser
    simp [Manager.unregister, unsubscribeAll, h conn.userID, kept_bind_remove]
  · have hnot : conn ∉ m.connections.filter (·.userID = userID) := by simp [huser]
    rw [Finset.erase_eq_of_notMem hnot, ← h userID]
    simp [Manager.unregister, unsubscribeAll, Function.update_of_ne (Ne.symm huser)]

theorem subscribe (topic : String) : (m.subscribe topic conn).Grouped := h

theorem not_mem_of_lastSession (hlast : m.lastSession conn = true) {other : Connection}
    (hother : other ∈ (m.unregister conn).connections) : other.userID ≠ conn.userID := by
  intro huser
  have hmem : other ∈ (m.connections.filter (·.userID = conn.userID)).erase conn := by
    simpa [huser] using hother
  unfold lastSession at hlast
  rw [h conn.userID] at hlast
  by_cases hempty : m.connections.filter (·.userID = conn.userID) = ∅
  · simp [hempty] at hmem
  · rw [kept, if_neg hempty] at hlast
    simp [of_decide_eq_true hlast] at hmem

end Grouped

end Manager

end DotsAndBoxes
