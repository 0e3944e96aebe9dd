import DotsAndBoxes.Library.Serial
import DotsAndBoxes.Lobby.Model

/-! # The lobby service

A lobby is stored as one document. A call reads the document, changes its copy and saves
the copy, without looking at the document again.
-/

namespace DotsAndBoxes

open Serial

/-- A program on the document that is stored for a lobby, if there is one. -/
abbrev LobbyProg := Prog (Option Lobby)

variable {R : Type}

/-- Save a lobby; it is stored under its own id. -/
def saveLobby (lobbyID : String) (l : Lobby) (next : LobbyProg R) : LobbyProg R :=
  .write (fun s => if l.lobbyID = lobbyID then some l else s) next

def deleteStored (next : LobbyProg R) : LobbyProg R := .write (fun _ => none) next

namespace LobbyService

def createLobby (now : Time) (lobbyID : String) (hostID : ℤ) (username name : String)
    (limit : ℤ) (isPrivate : Bool) (boardSize : ℤ) : Except LobbyError Lobby :=
  Lobby.addPlayer hostID username
    { lobbyID, hostID, boardSize, name, playerLimit := limit, isPrivate, createdAt := now,
      players := [] }

def joinLobby (lobbyID : String) (userID : ℤ) (username : String) :
    LobbyProg (Except LobbyError Unit) :=
  .read fun
  | none => .ret (.error .lobbyNotFound)
  | some lobby =>
    match lobby.addPlayer userID username with
    | .error e => .ret (.error e)
    | .ok lobby => saveLobby lobbyID lobby (.ret (.ok ()))

def leaveLobby (lobbyID : String) (userID : ℤ) : LobbyProg (Except LobbyError Unit) :=
  .read fun
  | none => .ret (.error .lobbyNotFound)
  | some lobby =>
    match lobby.removePlayer userID with
    | .error e => .ret (.error e)
    | .ok lobby =>
      if lobby.isEmpty then deleteStored (.ret (.ok ()))
      else saveLobby lobbyID lobby (.ret (.ok ()))

def deleteLobby : LobbyProg (Except LobbyError Unit) :=
  .read fun
  | none => .ret (.error .lobbyNotFound)
  | some _ => deleteStored (.ret (.ok ()))

/-- A player who is not in the lobby is not reported, and the lobby is saved as it is. -/
def setPlayerReady (lobbyID : String) (userID : ℤ) (ready : Bool) :
    LobbyProg (Except LobbyError Unit) :=
  .read fun
  | none => .ret (.error .lobbyNotFound)
  | some lobby =>
    match lobby.setReady userID ready with
    | .error _ => saveLobby lobbyID lobby (.ret (.ok ()))
    | .ok lobby => saveLobby lobbyID lobby (.ret (.ok ()))

end LobbyService

inductive LobbyReply where
  | done (result : Except LobbyError Unit)
  | lobby (l : Lobby)
  | playerNotInLobby
  | updatedLobbyNotFetched

/-- The handler reads the flag, sets the opposite, and reads the lobby to answer with. -/
def toggleReady (lobbyID : String) (userID : ℤ) : LobbyProg LobbyReply :=
  .read fun
  | none => .ret (.done (.error .lobbyNotFound))
  | some lobby =>
    match lobby.players.find? (·.userID = userID) with
    | none => .ret .playerNotInLobby
    | some player =>
      (LobbyService.setPlayerReady lobbyID userID (!player.isReady)).bind fun
      | .error e => .ret (.done (.error e))
      | .ok () => .read fun
        | none => .ret .updatedLobbyNotFetched
        | some lobby => .ret (.lobby lobby)

inductive LobbyCall where
  | join (userID : ℤ) (username : String)
  | leave (userID : ℤ)
  | delete
  | setReady (userID : ℤ) (ready : Bool)
  | toggleReady (userID : ℤ)
  deriving DecidableEq

def LobbyCall.program (lobbyID : String) : LobbyCall → LobbyProg LobbyReply
  | .join userID username =>
    (LobbyService.joinLobby lobbyID userID username).bind fun result => .ret (.done result)
  | .leave userID => (LobbyService.leaveLobby lobbyID userID).bind fun result => .ret (.done result)
  | .delete => LobbyService.deleteLobby.bind fun result => .ret (.done result)
  | .setReady userID ready =>
    (LobbyService.setPlayerReady lobbyID userID ready).bind fun result => .ret (.done result)
  | .toggleReady userID => DotsAndBoxes.toggleReady lobbyID userID

/-- What is stored for a lobby is well formed, and is the lobby with that id. -/
def LobbyKept (lobbyID : String) (s : Option Lobby) : Prop :=
  ∀ l, s = some l → l.lobbyID = lobbyID ∧ l.WellFormed

/-- What a call may do to the stored lobby when it runs alone. -/
inductive LobbyEffect : LobbyCall → Option Lobby → Option Lobby → Prop where
  | same {call s} : LobbyEffect call s s
  | joined {userID username l l'} (h : Lobby.addPlayer userID username l = .ok l') :
      LobbyEffect (.join userID username) (some l) (some l')
  | left {userID l l'} (h : Lobby.removePlayer userID l = .ok l') (hne : l'.isEmpty = false) :
      LobbyEffect (.leave userID) (some l) (some l')
  | emptied {userID l l'} (h : Lobby.removePlayer userID l = .ok l') (hempty : l'.isEmpty = true) :
      LobbyEffect (.leave userID) (some l) none
  | deleted {l} : LobbyEffect .delete (some l) none
  | readied {userID ready l l'} (h : Lobby.setReady userID ready l = .ok l') :
      LobbyEffect (.setReady userID ready) (some l) (some l')
  | toggled {userID ready l l'} (h : Lobby.setReady userID ready l = .ok l') :
      LobbyEffect (.toggleReady userID) (some l) (some l')

section Alone

variable {lobbyID : String} {s : Option Lobby} {l l' : Lobby} {userID : ℤ} {username : String}
  {ready : Bool} {call : LobbyCall}

theorem run_saveLobby (h : l.lobbyID = lobbyID) (next : LobbyProg R) :
    (saveLobby lobbyID l next).run s = next.run (some l) := by
  simp [saveLobby, h]

theorem lobbyID_of_setReady (h : l.setReady userID ready = .ok l') : l'.lobbyID = l.lobbyID := by
  obtain ⟨-, rfl⟩ := Lobby.setReady_eq_ok.mp h
  rfl

theorem run_joinLobby (h : l.lobbyID = lobbyID) :
    (LobbyService.joinLobby lobbyID userID username).run (some l) =
      match l.addPlayer userID username with
      | .error e => (some l, .error e)
      | .ok l' => (some l', .ok ()) := by
  rw [LobbyService.joinLobby, Prog.run_read]
  dsimp only
  cases hadd : l.addPlayer userID username with
  | error e => rfl
  | ok l' =>
    obtain ⟨-, -, rfl⟩ := Lobby.addPlayer_eq_ok.mp hadd
    exact run_saveLobby (by exact h) _

theorem run_leaveLobby (h : l.lobbyID = lobbyID) :
    (LobbyService.leaveLobby lobbyID userID).run (some l) =
      match l.removePlayer userID with
      | .error e => (some l, .error e)
      | .ok l' => (if l'.isEmpty then none else some l', .ok ()) := by
  rw [LobbyService.leaveLobby, Prog.run_read]
  dsimp only
  cases hremove : l.removePlayer userID with
  | error e => rfl
  | ok l' =>
    obtain ⟨-, rfl⟩ := Lobby.removePlayer_eq_ok.mp hremove
    dsimp only
    split_ifs
    · rfl
    · exact run_saveLobby (by exact h) _

theorem run_setPlayerReady (h : l.lobbyID = lobbyID) :
    (LobbyService.setPlayerReady lobbyID userID ready).run (some l) =
      match l.setReady userID ready with
      | .error _ => (some l, .ok ())
      | .ok l' => (some l', .ok ()) := by
  rw [LobbyService.setPlayerReady, Prog.run_read]
  dsimp only
  cases hready : l.setReady userID ready with
  | error e => exact run_saveLobby h _
  | ok l' => exact run_saveLobby ((lobbyID_of_setReady hready).trans h) _

theorem run_toggleReady (h : l.lobbyID = lobbyID) :
    ((toggleReady lobbyID userID).run (some l)).1 = some (l.flipReady userID) := by
  rw [toggleReady, Prog.run_read]
  dsimp only
  cases hfind : l.players.find? (·.userID = userID) with
  | none => simp [Lobby.flipReady, Lobby.updatePlayer, updateFirst_of_find?_eq_none hfind]
  | some player =>
    have hin : userID ∈ l.playerIDs := by
      have hmem := List.mem_of_find?_eq_some hfind
      have huser := List.find?_some hfind
      exact List.mem_map.mpr ⟨player, hmem, of_decide_eq_true huser⟩
    have hflip : updateFirst (·.userID = userID) (fun p => { p with isReady := !p.isReady })
        l.players = updateFirst (·.userID = userID)
          (fun p => { p with isReady := !player.isReady }) l.players :=
      updateFirst_congr hfind rfl
    have hready : l.setReady userID (!player.isReady) = .ok (l.flipReady userID) := by
      rw [Lobby.setReady_eq_ok, Lobby.flipReady, Lobby.updatePlayer, Lobby.updatePlayer, hflip]
      exact ⟨hin, rfl⟩
    dsimp only
    rw [Prog.run_bind, run_setPlayerReady h, hready]
    rfl

theorem run_program_none (lobbyID : String) (call : LobbyCall) :
    ((call.program lobbyID).run none).1 = none := by
  cases call <;> rfl

theorem effect_run (hs : LobbyKept lobbyID s) (call : LobbyCall) :
    LobbyEffect call s ((call.program lobbyID).run s).1 := by
  cases s with
  | none =>
    rw [run_program_none]
    exact .same
  | some l =>
    obtain ⟨hid, -⟩ := hs l rfl
    cases call with
    | join userID username =>
      rw [LobbyCall.program, Prog.run_bind, run_joinLobby hid]
      cases hadd : l.addPlayer userID username with
      | error e => exact .same
      | ok l' => exact .joined hadd
    | leave userID =>
      rw [LobbyCall.program, Prog.run_bind, run_leaveLobby hid]
      cases hremove : l.removePlayer userID with
      | error e => exact .same
      | ok l' =>
        cases hempty : l'.isEmpty with
        | true => simpa [hempty] using LobbyEffect.emptied hremove hempty
        | false => simpa [hempty] using LobbyEffect.left hremove hempty
    | delete => exact .deleted
    | setReady userID ready =>
      rw [LobbyCall.program, Prog.run_bind, run_setPlayerReady hid]
      cases hready : l.setReady userID ready with
      | error e => exact .same
      | ok l' => exact .readied hready
    | toggleReady userID =>
      rw [LobbyCall.program, toggleReady, Prog.run_read]
      dsimp only
      cases hfind : l.players.find? (·.userID = userID) with
      | none => exact .same
      | some player =>
        dsimp only
        rw [Prog.run_bind, run_setPlayerReady hid]
        cases hready : l.setReady userID (!player.isReady) with
        | error e => exact .same
        | ok l' => exact .toggled hready

theorem LobbyEffect.kept {s' : Option Lobby} (h : LobbyEffect call s s')
    (hs : LobbyKept lobbyID s) : LobbyKept lobbyID s' := by
  cases h with
  | same => exact hs
  | deleted | emptied => rintro l ⟨⟩
  | joined hadd =>
    rintro l ⟨⟩
    obtain ⟨hid, hwell⟩ := hs _ rfl
    refine ⟨?_, hwell.addPlayer hadd⟩
    obtain ⟨-, -, rfl⟩ := Lobby.addPlayer_eq_ok.mp hadd
    exact hid
  | left hremove =>
    rintro l ⟨⟩
    obtain ⟨hid, hwell⟩ := hs _ rfl
    refine ⟨?_, hwell.removePlayer hremove⟩
    obtain ⟨-, rfl⟩ := Lobby.removePlayer_eq_ok.mp hremove
    exact hid
  | readied hready | toggled hready =>
    rintro l ⟨⟩
    obtain ⟨hid, hwell⟩ := hs _ rfl
    exact ⟨(lobbyID_of_setReady hready).trans hid, hwell.setReady hready⟩

theorem createLobby_kept {now : Time} {hostID limit boardSize : ℤ} {name : String}
    {isPrivate : Bool} (h : LobbyService.createLobby now lobbyID hostID username name limit
      isPrivate boardSize = .ok l) : LobbyKept lobbyID (some l) := by
  rintro _ ⟨⟩
  obtain ⟨hroom, -, rfl⟩ := Lobby.addPlayer_eq_ok.mp h
  refine ⟨rfl, ?_, List.nodup_singleton _⟩
  simpa using Int.add_one_le_of_lt hroom

end Alone

end DotsAndBoxes
