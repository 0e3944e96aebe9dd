import DotsAndBoxes.Lobby.Membership

/-! # Changes of lobbies

A call loads its lobby and decides what to change. From then on it looks at nothing any more: it
writes the lobby and then publishes the change, one publication after the other. A request that is
handled at once does all of this in one go.
-/

namespace DotsAndBoxes

open Tagged

/-- What a call does once it has loaded its lobby. -/
inductive LobbyChange where
  | created (l : Lobby)
  | updated (lobbyID : String) (l : Lobby)
  | deleted (lobbyID : String)

namespace LobbyChange

def write : LobbyChange → (String → Option Lobby) → String → Option Lobby
  | .created l, lobbies | .updated _ l, lobbies => Function.update lobbies l.lobbyID (some l)
  | .deleted lobbyID, lobbies => Function.update lobbies lobbyID none

def publications (stamp : Time → String) : LobbyChange → List Publication
  | .created l => LobbyService.lobbyCreated (l.marshal stamp)
  | .updated lobbyID l => LobbyService.lobbyUpdated lobbyID
    (LobbyUpdatedPayload.codec.marshal ⟨l.lobbyID, l.players, "waiting"⟩)
  | .deleted lobbyID => LobbyService.lobbyDeleted lobbyID

end LobbyChange

def LobbyRequest.change (loaded : Option Lobby) : LobbyRequest → Except LobbyError LobbyChange
  | .create now lobbyID hostID username name limit isPrivate boardSize =>
    (LobbyService.createLobby now lobbyID hostID username name limit isPrivate boardSize).map
      .created
  | .join lobbyID userID username =>
    match loaded with
    | none => .error .lobbyNotFound
    | some lobby => (lobby.addPlayer userID username).map (.updated lobbyID)
  | .leave lobbyID userID =>
    match loaded with
    | none => .error .lobbyNotFound
    | some lobby => (lobby.removePlayer userID).map fun lobby =>
      if lobby.isEmpty then .deleted lobbyID else .updated lobbyID lobby
  | .setReady lobbyID userID ready =>
    match loaded with
    | none => .error .lobbyNotFound
    | some lobby =>
      match lobby.setReady userID ready with
      | .error _ => .ok (.updated lobbyID lobby)
      | .ok lobby => .ok (.updated lobbyID lobby)
  | .delete lobbyID =>
    match loaded with
    | none => .error .lobbyNotFound
    | some _ => .ok (.deleted lobbyID)

variable {lobbies : String → Option Lobby} {lobbyID other : String} {l : Lobby}
  {req : LobbyRequest} {change : LobbyChange} {loaded : Option Lobby}

theorem LobbyServer.handle_eq (stamp : Time → String) (req : LobbyRequest) (s : LobbyServer) :
    s.handle stamp req = match req.change (s.lobbies req.lobbyID) with
      | .error e => (s, .error e)
      | .ok change => (⟨change.write s.lobbies, s.published ++ change.publications stamp⟩, .ok ()) := by
  cases req with
  | create now lobbyID hostID username name limit isPrivate boardSize =>
    simp only [handle, createLobby, LobbyRequest.change]
    cases LobbyService.createLobby now lobbyID hostID username name limit isPrivate boardSize <;> rfl
  | join lobbyID userID username =>
    simp only [handle, joinLobby, LobbyRequest.change, LobbyRequest.lobbyID]
    cases s.lobbies lobbyID with
    | none => rfl
    | some lobby =>
      dsimp only
      cases lobby.addPlayer userID username <;> rfl
  | leave lobbyID userID =>
    simp only [handle, leaveLobby, LobbyRequest.change, LobbyRequest.lobbyID]
    cases s.lobbies lobbyID with
    | none => rfl
    | some lobby =>
      dsimp only
      cases lobby.removePlayer userID with
      | error e => rfl
      | ok lobby =>
        simp only [Except.map]
        split_ifs <;> rfl
  | setReady lobbyID userID ready =>
    simp only [handle, setPlayerReady, LobbyRequest.change, LobbyRequest.lobbyID]
    cases s.lobbies lobbyID with
    | none => rfl
    | some lobby =>
      dsimp only
      cases lobby.setReady userID ready <;> rfl
  | delete lobbyID =>
    simp only [handle, deleteLobby, LobbyRequest.change, LobbyRequest.lobbyID]
    cases s.lobbies lobbyID <;> rfl

theorem eq_ok_of_map {ε α β : Type} {x : Except ε α} {f : α → β} {b : β}
    (h : x.map f = .ok b) : ∃ a, x = .ok a ∧ f a = b := by
  cases x with
  | error e => cases h
  | ok a => exact ⟨a, rfl, Except.ok.inj h⟩

namespace LobbyChange

/-- What a request changes: it creates a lobby under its id, or replaces the players of the one
that it has loaded, or deletes it. -/
inductive From (req : LobbyRequest) (loaded : Option Lobby) : LobbyChange → Prop where
  | created {now lobbyID hostID username name limit isPrivate boardSize} {l : Lobby}
      (hreq : req = .create now lobbyID hostID username name limit isPrivate boardSize)
      (hid : l.lobbyID = lobbyID) : From req loaded (.created l)
  | updated {l : Lobby} {players : List LobbyPlayer} (hl : loaded = some l) :
      From req loaded (.updated req.lobbyID { l with players })
  | deleted : From req loaded (.deleted req.lobbyID)

theorem from_change (h : req.change loaded = .ok change) : From req loaded change := by
  cases req with
  | create now lobbyID hostID username name limit isPrivate boardSize =>
    obtain ⟨l, hl, rfl⟩ := eq_ok_of_map h
    exact .created rfl (createLobby_kept hl l rfl).1
  | join lobbyID userID username =>
    cases loaded with
    | none => cases h
    | some l =>
      obtain ⟨l', hadd, rfl⟩ := eq_ok_of_map h
      obtain ⟨-, -, rfl⟩ := Lobby.addPlayer_eq_ok.mp hadd
      exact .updated rfl
  | leave lobbyID userID =>
    cases loaded with
    | none => cases h
    | some l =>
      obtain ⟨l', hremove, rfl⟩ := eq_ok_of_map h
      obtain ⟨-, rfl⟩ := Lobby.removePlayer_eq_ok.mp hremove
      split_ifs
      · exact .deleted
      · exact .updated rfl
  | setReady lobbyID userID ready =>
    cases loaded with
    | none => cases h
    | some l =>
      simp only [LobbyRequest.change] at h
      cases hready : l.setReady userID ready with
      | error e =>
        rw [hready] at h
        obtain rfl := Except.ok.inj h
        exact .updated rfl
      | ok l' =>
        rw [hready] at h
        obtain rfl := Except.ok.inj h
        obtain ⟨-, rfl⟩ := Lobby.setReady_eq_ok.mp hready
        exact .updated rfl
  | delete lobbyID =>
    cases loaded with
    | none => cases h
    | some l =>
      obtain rfl := Except.ok.inj h
      exact .deleted

end LobbyChange

end DotsAndBoxes
