import DotsAndBoxes.Hub.Routing
import DotsAndBoxes.Lobby.Concurrency

/-! # Operations of the lobby service

An operation loads a lobby, changes it, saves it and publishes the change. Run one at a time on
the store of all lobbies, the operations are the programs on one stored lobby, and leave the
others alone. An operation that answers with an error has done nothing; but the operation that
sets the ready flag of a user does not answer with one when the user is not in the lobby.
-/

namespace DotsAndBoxes

open Serial Tagged

def LobbyPlayer.codec : Codec LobbyPlayer :=
  .struct ⟨false, 0, ""⟩ [
    .of "is_ready" .bool (·.isReady) fun p isReady => { p with isReady },
    .of "user_id" .int (·.userID) fun p userID => { p with userID },
    .of "username" .string (·.username) fun p username => { p with username }]

/-- The JSON of a lobby, with its timestamp written by the given format. -/
def Lobby.marshal (stamp : Time → String) (l : Lobby) : Json :=
  .obj [
    ("lobby_id", Codec.string.marshal l.lobbyID),
    ("host_id", Codec.int.marshal l.hostID),
    ("board_size", Codec.int.marshal l.boardSize),
    ("name", Codec.string.marshal l.name),
    ("player_limit", Codec.int.marshal l.playerLimit),
    ("is_private", Codec.bool.marshal l.isPrivate),
    ("created_at", .str (stamp l.createdAt)),
    ("players", LobbyPlayer.codec.slice.marshal l.players)]

structure LobbyUpdatedPayload where
  lobbyID : String
  players : List LobbyPlayer
  status : String

def LobbyUpdatedPayload.codec : Codec LobbyUpdatedPayload :=
  .struct ⟨"", [], ""⟩ [
    .of "lobby_id" .string (·.lobbyID) fun p lobbyID => { p with lobbyID },
    .of "players" LobbyPlayer.codec.slice (·.players) fun p players => { p with players },
    .of "status" .string (·.status) fun p status => { p with status }]

/-- The repository, by lobby id, and what has been published on the bus. -/
structure LobbyServer where
  lobbies : String → Option Lobby := fun _ => none
  published : List Publication := []

namespace LobbyServer

def save (l : Lobby) (s : LobbyServer) : LobbyServer :=
  { s with lobbies := Function.update s.lobbies l.lobbyID (some l) }

def remove (lobbyID : String) (s : LobbyServer) : LobbyServer :=
  { s with lobbies := Function.update s.lobbies lobbyID none }

def publish (publications : List Publication) (s : LobbyServer) : LobbyServer :=
  { s with published := s.published ++ publications }

def saveUpdated (lobbyID : String) (l : Lobby) (s : LobbyServer) : LobbyServer :=
  (s.save l).publish (LobbyService.lobbyUpdated lobbyID
    (LobbyUpdatedPayload.codec.marshal ⟨l.lobbyID, l.players, "waiting"⟩))

def removeDeleted (lobbyID : String) (s : LobbyServer) : LobbyServer :=
  (s.remove lobbyID).publish (LobbyService.lobbyDeleted lobbyID)

def createLobby (stamp : Time → String) (now : Time) (lobbyID : String) (hostID : ℤ)
    (username name : String) (limit : ℤ) (isPrivate : Bool) (boardSize : ℤ) (s : LobbyServer) :
    LobbyServer × Except LobbyError Lobby :=
  match LobbyService.createLobby now lobbyID hostID username name limit isPrivate boardSize with
  | .error e => (s, .error e)
  | .ok lobby =>
    ((s.save lobby).publish (LobbyService.lobbyCreated (lobby.marshal stamp)), .ok lobby)

def joinLobby (lobbyID : String) (userID : ℤ) (username : String) (s : LobbyServer) :
    LobbyServer × Except LobbyError Unit :=
  match s.lobbies lobbyID with
  | none => (s, .error .lobbyNotFound)
  | some lobby =>
    match lobby.addPlayer userID username with
    | .error e => (s, .error e)
    | .ok lobby => (s.saveUpdated lobbyID lobby, .ok ())

def leaveLobby (lobbyID : String) (userID : ℤ) (s : LobbyServer) :
    LobbyServer × Except LobbyError Unit :=
  match s.lobbies lobbyID with
  | none => (s, .error .lobbyNotFound)
  | some lobby =>
    match lobby.removePlayer userID with
    | .error e => (s, .error e)
    | .ok lobby =>
      if lobby.isEmpty then (s.removeDeleted lobbyID, .ok ())
      else (s.saveUpdated lobbyID lobby, .ok ())

def deleteLobby (lobbyID : String) (s : LobbyServer) : LobbyServer × Except LobbyError Unit :=
  match s.lobbies lobbyID with
  | none => (s, .error .lobbyNotFound)
  | some _ => (s.removeDeleted lobbyID, .ok ())

/-- The error of the lobby is dropped, and the lobby saved and published as it is. -/
def setPlayerReady (lobbyID : String) (userID : ℤ) (ready : Bool) (s : LobbyServer) :
    LobbyServer × Except LobbyError Unit :=
  match s.lobbies lobbyID with
  | none => (s, .error .lobbyNotFound)
  | some lobby =>
    match lobby.setReady userID ready with
    | .error _ => (s.saveUpdated lobbyID lobby, .ok ())
    | .ok lobby => (s.saveUpdated lobbyID lobby, .ok ())

end LobbyServer

inductive LobbyRequest where
  | create (now : Time) (lobbyID : String) (hostID : ℤ) (username name : String) (limit : ℤ)
      (isPrivate : Bool) (boardSize : ℤ)
  | join (lobbyID : String) (userID : ℤ) (username : String)
  | leave (lobbyID : String) (userID : ℤ)
  | setReady (lobbyID : String) (userID : ℤ) (ready : Bool)
  | delete (lobbyID : String)

def LobbyServer.handle (stamp : Time → String) :
    LobbyRequest → LobbyServer → LobbyServer × Except LobbyError Unit
  | .create now lobbyID hostID username name limit isPrivate boardSize, s =>
    let (s, lobby) :=
      s.createLobby stamp now lobbyID hostID username name limit isPrivate boardSize
    (s, lobby.map fun _ => ())
  | .join lobbyID userID username, s => s.joinLobby lobbyID userID username
  | .leave lobbyID userID, s => s.leaveLobby lobbyID userID
  | .setReady lobbyID userID ready, s => s.setPlayerReady lobbyID userID ready
  | .delete lobbyID, s => s.deleteLobby lobbyID

namespace LobbyRequest

/-- The request asks for something that the lobby, as it is stored, does not allow. -/
def Refused (s : LobbyServer) : LobbyRequest → Prop
  | .create _ _ _ _ _ limit _ _ => limit ≤ 0
  | .join lobbyID userID _ => s.lobbies lobbyID = none ∨ ∃ l, s.lobbies lobbyID = some l ∧
      (l.playerLimit ≤ l.players.length ∨ userID ∈ l.playerIDs)
  | .leave lobbyID userID => s.lobbies lobbyID = none ∨
      ∃ l, s.lobbies lobbyID = some l ∧ userID ∉ l.playerIDs
  | .setReady lobbyID userID _ => s.lobbies lobbyID = none ∨
      ∃ l, s.lobbies lobbyID = some l ∧ userID ∉ l.playerIDs
  | .delete lobbyID => s.lobbies lobbyID = none

/-- The request is answered with an error when it is refused and only then, and does nothing
when it is answered with an error. -/
def Reported (stamp : Time → String) (s : LobbyServer) (req : LobbyRequest) : Prop :=
  ((∃ e, (s.handle stamp req).2 = .error e) ↔ req.Refused s) ∧
    ((∃ e, (s.handle stamp req).2 = .error e) → (s.handle stamp req).1 = s)

/-- The request is about the ready flag of a user who is not in the lobby. -/
def ReadiesStranger (s : LobbyServer) (req : LobbyRequest) : Prop :=
  ∃ lobbyID userID ready l, req = .setReady lobbyID userID ready ∧
    s.lobbies lobbyID = some l ∧ userID ∉ l.playerIDs

end LobbyRequest

inductive LobbyServer.Handled (stamp : Time → String) (s : LobbyServer) :
    LobbyRequest → LobbyServer → Except LobbyError Unit → Prop where
  | refused {req e} (h : req.Refused s) (hready : ¬ req.ReadiesStranger s) :
      Handled stamp s req s (.error e)
  | created {now lobbyID hostID username name limit isPrivate boardSize l}
      (h : LobbyService.createLobby now lobbyID hostID username name limit isPrivate boardSize =
        .ok l) :
      Handled stamp s (.create now lobbyID hostID username name limit isPrivate boardSize)
        ((s.save l).publish (LobbyService.lobbyCreated (l.marshal stamp))) (.ok ())
  | joined {lobbyID userID username l l'} (hl : s.lobbies lobbyID = some l)
      (h : l.addPlayer userID username = .ok l') :
      Handled stamp s (.join lobbyID userID username) (s.saveUpdated lobbyID l') (.ok ())
  | left {lobbyID userID l l'} (hl : s.lobbies lobbyID = some l)
      (h : l.removePlayer userID = .ok l') (hne : l'.isEmpty = false) :
      Handled stamp s (.leave lobbyID userID) (s.saveUpdated lobbyID l') (.ok ())
  | emptied {lobbyID userID l l'} (hl : s.lobbies lobbyID = some l)
      (h : l.removePlayer userID = .ok l') (hempty : l'.isEmpty = true) :
      Handled stamp s (.leave lobbyID userID) (s.removeDeleted lobbyID) (.ok ())
  | readied {lobbyID userID ready l l'} (hl : s.lobbies lobbyID = some l)
      (h : l.setReady userID ready = .ok l') :
      Handled stamp s (.setReady lobbyID userID ready) (s.saveUpdated lobbyID l') (.ok ())
  | ignored {lobbyID userID ready l} (hl : s.lobbies lobbyID = some l)
      (h : userID ∉ l.playerIDs) :
      Handled stamp s (.setReady lobbyID userID ready) (s.saveUpdated lobbyID l) (.ok ())
  | deleted {lobbyID l} (hl : s.lobbies lobbyID = some l) :
      Handled stamp s (.delete lobbyID) (s.removeDeleted lobbyID) (.ok ())

section Requests

variable {stamp : Time → String} {s s' : LobbyServer} {req : LobbyRequest} {l : Lobby}
  {lobbyID username : String} {userID : ℤ} {ready : Bool}

theorem createLobby_eq {now : Time} {hostID limit boardSize : ℤ} {name : String}
    {isPrivate : Bool} :
    LobbyService.createLobby now lobbyID hostID username name limit isPrivate boardSize =
      if limit ≤ 0 then .error .lobbyFull
      else .ok ⟨lobbyID, hostID, boardSize, name, limit, isPrivate, now,
        [⟨false, hostID, username⟩]⟩ := by
  simp [LobbyService.createLobby, Lobby.addPlayer]

theorem not_readiesStranger (h : ∀ lobbyID userID ready, req ≠ .setReady lobbyID userID ready) :
    ¬ LobbyRequest.ReadiesStranger s req := by
  rintro ⟨lobbyID, userID, ready, -, rfl, -⟩
  exact h lobbyID userID ready rfl

theorem LobbyServer.handled (stamp : Time → String) (s : LobbyServer) (req : LobbyRequest) :
    Handled stamp s req (s.handle stamp req).1 (s.handle stamp req).2 := by
  cases req with
  | create now lobbyID hostID username name limit isPrivate boardSize =>
    simp only [LobbyServer.handle, LobbyServer.createLobby]
    cases hcreate : LobbyService.createLobby now lobbyID hostID username name limit isPrivate
      boardSize with
    | error e =>
      rw [createLobby_eq] at hcreate
      split at hcreate
      case isTrue hlimit => exact .refused hlimit (not_readiesStranger nofun)
      case isFalse => cases hcreate
    | ok l => exact .created hcreate
  | join lobbyID userID username =>
    simp only [LobbyServer.handle, LobbyServer.joinLobby]
    cases hl : s.lobbies lobbyID with
    | none => exact .refused (.inl hl) (not_readiesStranger nofun)
    | some l =>
      dsimp only
      cases hadd : l.addPlayer userID username with
      | error e =>
        have hrefused := Lobby.full_or_mem_of_addPlayer hadd
        exact .refused (.inr ⟨l, hl, hrefused⟩) (not_readiesStranger nofun)
      | ok l' => exact .joined hl hadd
  | leave lobbyID userID =>
    simp only [LobbyServer.handle, LobbyServer.leaveLobby]
    cases hl : s.lobbies lobbyID with
    | none => exact .refused (.inl hl) (not_readiesStranger nofun)
    | some l =>
      dsimp only
      cases hremove : l.removePlayer userID with
      | error e =>
        have hout := Lobby.notMem_of_removePlayer hremove
        exact .refused (.inr ⟨l, hl, hout⟩) (not_readiesStranger nofun)
      | ok l' =>
        cases hempty : l'.isEmpty with
        | true => simpa [hempty] using LobbyServer.Handled.emptied hl hremove hempty
        | false => simpa [hempty] using LobbyServer.Handled.left hl hremove hempty
  | setReady lobbyID userID ready =>
    simp only [LobbyServer.handle, LobbyServer.setPlayerReady]
    cases hl : s.lobbies lobbyID with
    | none =>
      refine .refused (.inl hl) ?_
      rintro ⟨_, _, _, l, ⟨⟩, hsome, -⟩
      rw [hl] at hsome
      cases hsome
    | some l =>
      dsimp only
      cases hready : l.setReady userID ready with
      | error e => exact .ignored hl (Lobby.notMem_of_setReady hready)
      | ok l' => exact .readied hl hready
  | delete lobbyID =>
    simp only [LobbyServer.handle, LobbyServer.deleteLobby]
    cases hl : s.lobbies lobbyID with
    | none => exact .refused hl (not_readiesStranger nofun)
    | some l => exact .deleted hl

theorem not_refused_of_mem (hl : s.lobbies lobbyID = some l) (hin : userID ∈ l.playerIDs) :
    ¬ (s.lobbies lobbyID = none ∨ ∃ l, s.lobbies lobbyID = some l ∧ userID ∉ l.playerIDs) := by
  rintro (hnone | ⟨l', hl', hout⟩)
  · rw [hl] at hnone
    cases hnone
  · obtain rfl := Option.some.inj (hl.symm.trans hl')
    exact hout hin

/-- A request that is carried out was refused only if it was about the flag of a stranger. -/
theorem LobbyServer.Handled.refused_iff (h : LobbyServer.Handled stamp s req s' (.ok ())) :
    req.Refused s ↔ req.ReadiesStranger s := by
  cases h with
  | created hcreate =>
    rw [createLobby_eq] at hcreate
    split at hcreate
    case isTrue => cases hcreate
    case isFalse hlimit => exact iff_of_false hlimit (not_readiesStranger nofun)
  | joined hl hadd =>
    obtain ⟨hroom, hnew, -⟩ := Lobby.addPlayer_eq_ok.mp hadd
    refine iff_of_false ?_ (not_readiesStranger nofun)
    rintro (hnone | ⟨l', hl', hfull | hin⟩)
    · rw [hl] at hnone
      cases hnone
    · obtain rfl := Option.some.inj (hl.symm.trans hl')
      exact absurd hroom (not_lt.mpr hfull)
    · obtain rfl := Option.some.inj (hl.symm.trans hl')
      exact hnew hin
  | left hl hremove | emptied hl hremove =>
    obtain ⟨hin, -⟩ := Lobby.removePlayer_eq_ok.mp hremove
    exact iff_of_false (not_refused_of_mem hl hin) (not_readiesStranger nofun)
  | readied hl hready =>
    obtain ⟨hin, -⟩ := Lobby.setReady_eq_ok.mp hready
    refine iff_of_false (not_refused_of_mem hl hin) ?_
    rintro ⟨_, _, _, l', ⟨⟩, hl', hout⟩
    obtain rfl := Option.some.inj (hl.symm.trans hl')
    exact hout hin
  | ignored hl hout => exact iff_of_true (.inr ⟨_, hl, hout⟩) ⟨_, _, _, _, rfl, hl, hout⟩
  | deleted hl =>
    refine iff_of_false (fun hnone => ?_) (not_readiesStranger nofun)
    rw [LobbyRequest.Refused, hl] at hnone
    cases hnone

/-- A request is answered with an error exactly when the lobby does not allow it, and then does
nothing, unless it is about the ready flag of a user who is not in the lobby. -/
theorem errors_reported_iff (stamp : Time → String) (s : LobbyServer) (req : LobbyRequest) :
    req.Reported stamp s ↔ ¬ req.ReadiesStranger s := by
  have hhandled := LobbyServer.handled stamp s req
  unfold LobbyRequest.Reported
  generalize s.handle stamp req = done at hhandled
  obtain ⟨s', result⟩ := done
  cases result with
  | error e =>
    cases hhandled with
    | refused hrefused hready => simp [hrefused, hready]
  | ok =>
    simp [hhandled.refused_iff]

end Requests

/-- A user who is not in the lobby is set ready without an error, and an update is published. -/
theorem stranger_is_readied :
    ¬ (LobbyRequest.setReady "a1" 2 true).Reported (fun _ => "1970-01-01T00:00:00Z")
      { lobbies := Function.update (fun _ => none) "a1" (some fourSeats) } := by
  rintro ⟨hreported, -⟩
  obtain ⟨e, he⟩ := hreported.mpr (.inr ⟨fourSeats, by simp, by decide⟩)
  simp [LobbyServer.handle, LobbyServer.setPlayerReady, Lobby.setReady, fourSeats] at he

end DotsAndBoxes
