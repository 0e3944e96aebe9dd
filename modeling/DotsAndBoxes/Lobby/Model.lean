import DotsAndBoxes.Game.Model
import Mathlib.Data.List.Nodup

/-! # Lobbies

Players gather in a lobby before a game. A lobby has a limit of players, and no player
twice.
-/

namespace DotsAndBoxes

inductive LobbyError where
  | lobbyFull
  | alreadyInLobby
  | notInLobby
  | lobbyNotFound
  deriving DecidableEq, Repr

structure LobbyPlayer where
  isReady : Bool
  userID : ℤ
  username : String
  deriving DecidableEq, Repr

structure Lobby where
  lobbyID : String
  hostID : ℤ
  boardSize : ℤ
  name : String
  playerLimit : ℤ
  isPrivate : Bool
  createdAt : Time
  players : List LobbyPlayer
  deriving DecidableEq, Repr

def updateFirst {α : Type*} (p : α → Bool) (f : α → α) : List α → List α
  | [] => []
  | a :: as => if p a then f a :: as else a :: updateFirst p f as

section UpdateFirst

variable {α : Type*} {p : α → Bool} {f g : α → α} {as : List α}

theorem updateFirst_of_find?_eq_none (h : as.find? p = none) : updateFirst p f as = as := by
  induction as with
  | nil => rfl
  | cons a as ih =>
    rw [List.find?_eq_none] at h
    have ha := h a List.mem_cons_self
    rw [updateFirst, if_neg ha, ih (List.find?_eq_none.mpr fun b hb =>
      h b (List.mem_cons_of_mem _ hb))]

theorem updateFirst_congr {a : α} (h : as.find? p = some a) (ha : f a = g a) :
    updateFirst p f as = updateFirst p g as := by
  induction as with
  | nil => rfl
  | cons b as ih =>
    rw [List.find?_cons] at h
    cases hb : p b with
    | true =>
      rw [hb] at h
      cases h
      simp [updateFirst, hb, ha]
    | false =>
      rw [hb] at h
      simp [updateFirst, hb, ih h]

theorem updateFirst_updateFirst (hp : ∀ a, p (f a) = p a) (hf : ∀ a, f (f a) = a)
    (as : List α) : updateFirst p f (updateFirst p f as) = as := by
  induction as with
  | nil => rfl
  | cons a as ih =>
    cases ha : p a with
    | true => simp [updateFirst, ha, hp, hf]
    | false => simp [updateFirst, ha, ih]

end UpdateFirst

namespace Lobby

def addPlayer (userID : ℤ) (username : String) (l : Lobby) : Except LobbyError Lobby :=
  if (l.players.length : ℤ) ≥ l.playerLimit then .error .lobbyFull
  else if l.players.any (·.userID = userID) then .error .alreadyInLobby
  else .ok { l with players := l.players ++ [⟨false, userID, username⟩] }

def removePlayer (userID : ℤ) (l : Lobby) : Except LobbyError Lobby :=
  if l.players.any (·.userID = userID) then
    .ok { l with players := l.players.eraseP (·.userID = userID) }
  else .error .notInLobby

def updatePlayer (userID : ℤ) (f : LobbyPlayer → LobbyPlayer) (l : Lobby) : Lobby :=
  { l with players := updateFirst (·.userID = userID) f l.players }

def setReady (userID : ℤ) (ready : Bool) (l : Lobby) : Except LobbyError Lobby :=
  if l.players.any (·.userID = userID) then
    .ok (l.updatePlayer userID fun p => { p with isReady := ready })
  else .error .notInLobby

def isEmpty (l : Lobby) : Bool := l.players.length = 0

def playerIDs (l : Lobby) : List ℤ := l.players.map (·.userID)

/-- Within its limit, and with no player twice. -/
structure WellFormed (l : Lobby) : Prop where
  limit : (l.players.length : ℤ) ≤ l.playerLimit
  nodup : l.playerIDs.Nodup

variable {l l' : Lobby} {userID : ℤ} {username : String} {ready : Bool}

theorem any_iff : l.players.any (·.userID = userID) = true ↔ userID ∈ l.playerIDs := by
  simp [playerIDs]

theorem isEmpty_iff : l.isEmpty = true ↔ l.playerIDs = [] := by
  simp [isEmpty, playerIDs]

theorem addPlayer_eq_ok : l.addPlayer userID username = .ok l' ↔
    (l.players.length : ℤ) < l.playerLimit ∧ userID ∉ l.playerIDs ∧
      l' = { l with players := l.players ++ [⟨false, userID, username⟩] } := by
  unfold addPlayer
  simp only [any_iff]
  split_ifs with hfull hin
  · simp [hfull]
  · simp [hin]
  · simp [hin, not_le.mp hfull, eq_comm]

theorem removePlayer_eq_ok : l.removePlayer userID = .ok l' ↔
    userID ∈ l.playerIDs ∧ l' = { l with players := l.players.eraseP (·.userID = userID) } := by
  unfold removePlayer
  simp only [any_iff]
  split_ifs with hin <;> simp [hin, eq_comm]

theorem setReady_eq_ok : l.setReady userID ready = .ok l' ↔
    userID ∈ l.playerIDs ∧ l' = l.updatePlayer userID fun p => { p with isReady := ready } := by
  unfold setReady
  simp only [any_iff]
  split_ifs with hin <;> simp [hin, eq_comm]

theorem full_or_mem_of_addPlayer {e : LobbyError} (h : l.addPlayer userID username = .error e) :
    l.playerLimit ≤ l.players.length ∨ userID ∈ l.playerIDs := by
  by_contra hnot
  rw [not_or, not_le] at hnot
  have hok : l.addPlayer userID username = .ok _ := addPlayer_eq_ok.mpr ⟨hnot.1, hnot.2, rfl⟩
  rw [h] at hok
  cases hok

theorem notMem_of_removePlayer {e : LobbyError} (h : l.removePlayer userID = .error e) :
    userID ∉ l.playerIDs := by
  intro hin
  have hok : l.removePlayer userID = .ok _ := removePlayer_eq_ok.mpr ⟨hin, rfl⟩
  rw [h] at hok
  cases hok

theorem notMem_of_setReady {e : LobbyError} (h : l.setReady userID ready = .error e) :
    userID ∉ l.playerIDs := by
  intro hin
  have hok : l.setReady userID ready = .ok _ := setReady_eq_ok.mpr ⟨hin, rfl⟩
  rw [h] at hok
  cases hok

theorem map_eraseP (players : List LobbyPlayer) (userID : ℤ) :
    (players.eraseP (·.userID = userID)).map (·.userID) =
      (players.map (·.userID)).erase userID := by
  induction players with
  | nil => rfl
  | cons p players ih =>
    by_cases hp : p.userID = userID
    · simp [hp]
    · simp [hp, ih]

theorem map_updateFirst (players : List LobbyPlayer) (f : LobbyPlayer → LobbyPlayer)
    (hf : ∀ p, (f p).userID = p.userID) :
    (updateFirst (·.userID = userID) f players).map (·.userID) = players.map (·.userID) := by
  induction players with
  | nil => rfl
  | cons p players ih =>
    unfold updateFirst
    split_ifs
    · simp [hf]
    · simp [ih]

theorem playerIDs_addPlayer (h : l.addPlayer userID username = .ok l') :
    l'.playerIDs = l.playerIDs ++ [userID] := by
  obtain ⟨-, -, rfl⟩ := addPlayer_eq_ok.mp h
  simp [playerIDs]

theorem playerIDs_removePlayer (h : l.removePlayer userID = .ok l') :
    l'.playerIDs = l.playerIDs.erase userID := by
  obtain ⟨-, rfl⟩ := removePlayer_eq_ok.mp h
  exact map_eraseP _ _

theorem playerIDs_setReady (h : l.setReady userID ready = .ok l') :
    l'.playerIDs = l.playerIDs := by
  obtain ⟨-, rfl⟩ := setReady_eq_ok.mp h
  exact map_updateFirst l.players _ fun _ => rfl

def flipReady (userID : ℤ) (l : Lobby) : Lobby :=
  l.updatePlayer userID fun p => { p with isReady := !p.isReady }

theorem flipReady_flipReady (userID : ℤ) (l : Lobby) :
    (l.flipReady userID).flipReady userID = l := by
  simp [flipReady, updatePlayer, updateFirst_updateFirst]

namespace WellFormed

theorem addPlayer (h : l.WellFormed) (hadd : l.addPlayer userID username = .ok l') :
    l'.WellFormed := by
  obtain ⟨hroom, hnew, rfl⟩ := addPlayer_eq_ok.mp hadd
  constructor
  · simpa using Int.add_one_le_of_lt hroom
  · rw [playerIDs_addPlayer hadd]
    exact h.nodup.append (List.nodup_singleton _) (by simpa using hnew)

theorem removePlayer (h : l.WellFormed) (hremove : l.removePlayer userID = .ok l') :
    l'.WellFormed := by
  obtain ⟨-, rfl⟩ := removePlayer_eq_ok.mp hremove
  constructor
  · exact le_trans (Int.ofNat_le.mpr (List.eraseP_sublist.length_le)) h.limit
  · rw [playerIDs_removePlayer hremove]
    exact h.nodup.erase userID

theorem setReady (h : l.WellFormed) (hready : l.setReady userID ready = .ok l') :
    l'.WellFormed := by
  have hids := playerIDs_setReady hready
  obtain ⟨-, rfl⟩ := setReady_eq_ok.mp hready
  constructor
  · have hlen := congrArg List.length hids
    simp only [playerIDs, List.length_map] at hlen
    rw [hlen]
    exact h.limit
  · rw [hids]
    exact h.nodup

end WellFormed

end Lobby

end DotsAndBoxes
