import DotsAndBoxes.Library.Upkeep
import DotsAndBoxes.Lobby.Repository

/-! # The lobbies that are stored

A call saves a copy of the lobby that it has loaded, so of two calls at once one may take back
what the other has done. What they cannot do, however their commands interleave, is to store a
lobby that is none: beyond its limit, with a user twice or nobody in it, under the id of another,
or with other settings than it was created with.
-/

namespace DotsAndBoxes

open Serial

inductive ServiceCall where
  | create (now : Time) (lobbyID : String) (hostID : ℤ) (username name : String) (limit : ℤ)
      (isPrivate : Bool) (boardSize : ℤ)
  | on (lobbyID : String) (call : LobbyCall)

def ServiceCall.creates : ServiceCall → Option Lobby
  | .create now lobbyID hostID username name limit isPrivate boardSize =>
    (LobbyService.createLobby now lobbyID hostID username name limit isPrivate boardSize).toOption
  | .on _ _ => none

namespace LobbyRepository

variable {S : Type} (repo : LobbyRepository S)

def createLobby (now : Time) (lobbyID : String) (hostID : ℤ) (username name : String) (limit : ℤ)
    (isPrivate : Bool) (boardSize : ℤ) :
    Prog S (Except RepositoryFault (Except LobbyError Lobby)) :=
  match LobbyService.createLobby now lobbyID hostID username name limit isPrivate boardSize with
  | .error e => .ret (.ok (.error e))
  | .ok lobby => .write (repo.save lobby) (.ret (.ok (.ok lobby)))

def serve : ServiceCall → Prog S (Except RepositoryFault LobbyReply)
  | .create now lobbyID hostID username name limit isPrivate boardSize =>
    (repo.createLobby now lobbyID hostID username name limit isPrivate boardSize).bind fun
    | .error e => .ret (.error e)
    | .ok (.error e) => .ret (.ok (.done (.error e)))
    | .ok (.ok lobby) => .ret (.ok (.lobby lobby))
  | .on lobbyID call => repo.program lobbyID call

end LobbyRepository

/-- The lobby has players, within its limit and none twice, and is stored under its id. But for
the players it is one of those that were created. -/
structure Lobby.Intact (created : Set Lobby) (lobbyID : String) (l : Lobby) : Prop where
  id : l.lobbyID = lobbyID
  wellFormed : l.WellFormed
  occupied : l.isEmpty = false
  origin : ∃ l₀ ∈ created, ∃ players, l = { l₀ with players }

namespace Lobby.Intact

variable {created created' : Set Lobby} {lobbyID username : String} {l l' : Lobby} {userID : ℤ}
  {ready : Bool}

theorem mono (h : l.Intact created lobbyID) (hsub : created ⊆ created') :
    l.Intact created' lobbyID := by
  obtain ⟨l₀, hl₀, horigin⟩ := h.origin
  exact ⟨h.id, h.wellFormed, h.occupied, l₀, hsub hl₀, horigin⟩

theorem withPlayers (h : l.Intact created lobbyID) {players : List LobbyPlayer}
    (hwell : { l with players }.WellFormed) (hoccupied : { l with players }.isEmpty = false) :
    { l with players }.Intact created lobbyID := by
  obtain ⟨l₀, hl₀, players₀, rfl⟩ := h.origin
  exact ⟨h.id, hwell, hoccupied, l₀, hl₀, players, rfl⟩

theorem addPlayer (h : l.Intact created lobbyID) (hadd : l.addPlayer userID username = .ok l') :
    l'.Intact created lobbyID := by
  have hwell := h.wellFormed.addPlayer hadd
  obtain ⟨-, -, rfl⟩ := Lobby.addPlayer_eq_ok.mp hadd
  exact h.withPlayers hwell (by simp [isEmpty])

theorem removePlayer (h : l.Intact created lobbyID) (hremove : l.removePlayer userID = .ok l')
    (hoccupied : l'.isEmpty = false) : l'.Intact created lobbyID := by
  have hwell := h.wellFormed.removePlayer hremove
  obtain ⟨-, rfl⟩ := Lobby.removePlayer_eq_ok.mp hremove
  exact h.withPlayers hwell hoccupied

theorem setReady (h : l.Intact created lobbyID) (hready : l.setReady userID ready = .ok l') :
    l'.Intact created lobbyID := by
  have hwell := h.wellFormed.setReady hready
  have hids := Lobby.playerIDs_setReady hready
  have hoccupied : l'.isEmpty = false := by
    rw [Bool.eq_false_iff, ne_eq, Lobby.isEmpty_iff, hids, ← Lobby.isEmpty_iff, h.occupied]
    exact Bool.false_ne_true
  obtain ⟨-, rfl⟩ := Lobby.setReady_eq_ok.mp hready
  exact h.withPlayers hwell hoccupied

theorem of_createLobby {now : Time} {hostID limit boardSize : ℤ} {name : String} {isPrivate : Bool}
    (h : LobbyService.createLobby now lobbyID hostID username name limit isPrivate boardSize =
      .ok l) (hcreated : l ∈ created) : l.Intact created lobbyID := by
  obtain ⟨hid, hwell⟩ := createLobby_kept h l rfl
  refine ⟨hid, hwell, ?_, l, hcreated, l.players, rfl⟩
  obtain ⟨-, -, rfl⟩ := Lobby.addPlayer_eq_ok.mp h
  rfl

end Lobby.Intact

namespace RedisLobbyRepository

variable {f : TimeFormat} {lobbyID username : String} {userID : ℤ} {ready : Bool} {r : Redis}
  {s : Option Lobby} {l : Lobby} {created created' : Set Lobby}

def AllIntact (f : TimeFormat) (created : Set Lobby) (r : Redis) : Prop :=
  ∀ lobbyID, ∃ s, Holds f lobbyID r s ∧ ∀ l, s = some l → l.Intact created lobbyID

theorem allIntact_empty (t : Time) : AllIntact f ∅ ⟨t, fun _ => none⟩ := by
  intro lobbyID
  exact ⟨none, rfl, nofun⟩

theorem AllIntact.mono (h : AllIntact f created r) (hsub : created ⊆ created') :
    AllIntact f created' r := by
  intro lobbyID
  obtain ⟨s, hholds, hintact⟩ := h lobbyID
  exact ⟨s, hholds, fun l hl => (hintact l hl).mono hsub⟩

theorem AllIntact.save (h : AllIntact f created r) (hl : l.Intact created l.lobbyID) :
    AllIntact f created (save f l r) := by
  intro lobbyID
  obtain ⟨s, hholds, hintact⟩ := h lobbyID
  refine ⟨_, hholds.save l, ?_⟩
  split_ifs with hid
  · rintro _ ⟨⟩
    exact hid ▸ hl
  · exact hintact

theorem Holds.deleteLobby_of_ne {lobbyID' : String} (h : Holds f lobbyID r s)
    (hne : lobbyID' ≠ lobbyID) : Holds f lobbyID (deleteLobby lobbyID' r) s := by
  have hkey : lobbyKey lobbyID ≠ lobbyKey lobbyID' := by
    rw [Ne, lobbyKey_inj]
    exact hne.symm
  unfold Holds getLobby deleteLobby
  simp only [Redis.get, Redis.del, Function.update_of_ne hkey]
  exact h

theorem AllIntact.deleteLobby (h : AllIntact f created r) (deleted : String) :
    AllIntact f created (deleteLobby deleted r) := by
  intro lobbyID
  obtain ⟨s, hholds, hintact⟩ := h lobbyID
  by_cases hid : deleted = lobbyID
  · subst hid
    exact ⟨none, holds_deleteLobby f deleted r, nofun⟩
  · exact ⟨s, hholds.deleteLobby_of_ne hid, hintact⟩

theorem AllIntact.clock (h : AllIntact f created r) (t : Time) :
    AllIntact f created (r.clock t) := by
  intro lobbyID
  obtain ⟨s, hholds, hintact⟩ := h lobbyID
  rcases hholds.clock t with hstays | hgone
  · exact ⟨s, hstays, hintact⟩
  · exact ⟨none, hgone, nofun⟩

/-- The call has not run into a document that it cannot read, and answers with no lobby but one
that is as it should be. -/
def Answered (created : Set Lobby) (result : Except RepositoryFault LobbyReply) : Prop :=
  ∃ reply, result = .ok reply ∧ ∀ l, reply = .lobby l → l.Intact created l.lobbyID

section Programs

variable {R : Type} {missing : R} {Post : Except RepositoryFault R → Prop}

theorem keeps_load {found : Lobby → Prog Redis (Except RepositoryFault R)}
    (hmissing : Post (.ok missing))
    (hfound : ∀ l, l.Intact created lobbyID → (found l).Keeps (AllIntact f created) Post) :
    ((repository f).load lobbyID missing found).Keeps (AllIntact f created) Post := by
  apply Prog.keeps_read
  intro r h
  obtain ⟨s, hholds, hintact⟩ := h lobbyID
  rw [show (repository f).getLobby lobbyID r = .ok s from hholds]
  cases s with
  | none => exact .ret hmissing
  | some l => exact hfound l (hintact l rfl)

theorem keeps_save {result : Except RepositoryFault R} (hl : l.Intact created lobbyID)
    (hresult : Post result) :
    (Prog.write ((repository f).save l) (.ret result)).Keeps (AllIntact f created) Post :=
  Prog.keeps_write (fun _ h => h.save (hl.id ▸ hl)) (.ret hresult)

theorem keeps_delete {result : Except RepositoryFault R} (hresult : Post result) :
    (Prog.write ((repository f).delete lobbyID) (.ret result)).Keeps (AllIntact f created) Post :=
  Prog.keeps_write (fun _ h => h.deleteLobby lobbyID) (.ret hresult)

end Programs

def Faultless (result : Except RepositoryFault (Except LobbyError Unit)) : Prop :=
  ∃ reply, result = .ok reply

theorem keeps_joinLobby : ((repository f).joinLobby lobbyID userID username).Keeps
    (AllIntact f created) Faultless := by
  apply keeps_load ⟨_, rfl⟩
  intro l hl
  cases hadd : l.addPlayer userID username with
  | error e => exact .ret ⟨_, rfl⟩
  | ok l' => exact keeps_save (hl.addPlayer hadd) ⟨_, rfl⟩

theorem keeps_leaveLobby :
    ((repository f).leaveLobby lobbyID userID).Keeps (AllIntact f created) Faultless := by
  apply keeps_load ⟨_, rfl⟩
  intro l hl
  cases hremove : l.removePlayer userID with
  | error e => exact .ret ⟨_, rfl⟩
  | ok l' =>
    dsimp only
    split_ifs with hempty
    · exact keeps_delete ⟨_, rfl⟩
    · exact keeps_save (hl.removePlayer hremove (Bool.eq_false_iff.mpr hempty)) ⟨_, rfl⟩

theorem keeps_deleteLobby :
    ((repository f).deleteLobby lobbyID).Keeps (AllIntact f created) Faultless :=
  keeps_load ⟨_, rfl⟩ fun _ _ => keeps_delete ⟨_, rfl⟩

theorem keeps_setPlayerReady :
    ((repository f).setPlayerReady lobbyID userID ready).Keeps (AllIntact f created) Faultless := by
  apply keeps_load ⟨_, rfl⟩
  intro l hl
  cases hready : l.setReady userID ready with
  | error e => exact keeps_save hl ⟨_, rfl⟩
  | ok l' => exact keeps_save (hl.setReady hready) ⟨_, rfl⟩

theorem answered_of_ne {reply : LobbyReply} (h : ∀ l, reply ≠ .lobby l) :
    Answered created (.ok reply) :=
  ⟨reply, rfl, fun l hl => absurd hl (h l)⟩

theorem keeps_toggleReady :
    ((repository f).toggleReady lobbyID userID).Keeps (AllIntact f created)
      (Answered created) := by
  apply keeps_load
  case hmissing => exact answered_of_ne nofun
  intro l hl
  cases l.players.find? (·.userID = userID) with
  | none => exact .ret (answered_of_ne nofun)
  | some player =>
    apply keeps_setPlayerReady.bind
    rintro _ ⟨reply, rfl⟩
    cases reply with
    | error e => exact .ret (answered_of_ne nofun)
    | ok =>
      apply Prog.keeps_read
      intro r h
      obtain ⟨s, hholds, hintact⟩ := h lobbyID
      rw [show (repository f).getLobby lobbyID r = .ok s from hholds]
      cases s with
      | none => exact .ret (answered_of_ne nofun)
      | some l' =>
        refine .ret ⟨_, rfl, ?_⟩
        rintro _ ⟨⟩
        have hl' := hintact l' rfl
        exact hl'.id ▸ hl'

theorem keeps_program (lobbyID : String) (call : LobbyCall) :
    ((repository f).program lobbyID call).Keeps (AllIntact f created) (Answered created) := by
  have hdone {p : Prog Redis (Except RepositoryFault (Except LobbyError Unit))}
      (h : p.Keeps (AllIntact f created) Faultless) :
      (p.bind fun result => .ret (result.map LobbyReply.done)).Keeps (AllIntact f created)
        (Answered created) := by
    apply h.bind
    rintro _ ⟨reply, rfl⟩
    exact .ret (answered_of_ne nofun)
  cases call with
  | join => exact hdone keeps_joinLobby
  | leave => exact hdone keeps_leaveLobby
  | delete => exact hdone keeps_deleteLobby
  | setReady => exact hdone keeps_setPlayerReady
  | toggleReady => exact keeps_toggleReady

theorem keeps_serve (call : ServiceCall) (hcreates : ∀ l, call.creates = some l → l ∈ created) :
    ((repository f).serve call).Keeps (AllIntact f created) (Answered created) := by
  cases call with
  | create now lobbyID hostID username name limit isPrivate boardSize =>
    rw [LobbyRepository.serve, LobbyRepository.createLobby]
    rw [ServiceCall.creates] at hcreates
    cases hcreate : LobbyService.createLobby now lobbyID hostID username name limit isPrivate
      boardSize with
    | error e => exact .ret (answered_of_ne nofun)
    | ok l =>
      rw [hcreate] at hcreates
      have hl := Lobby.Intact.of_createLobby hcreate (hcreates l rfl)
      refine Prog.keeps_write (fun _ h => h.save (hl.id ▸ hl)) (.ret ⟨_, rfl, ?_⟩)
      rintro _ ⟨⟩
      exact hl.id ▸ hl
  | on lobbyID call => exact keeps_program lobbyID call

section Runs

variable {ι : Type}

def everCreated (created : Set Lobby) (calls : ι → ServiceCall) : Set Lobby :=
  created ∪ {l | ∃ i, (calls i).creates = some l}

theorem keeps_start (calls : ι → ServiceCall) (h : AllIntact f created r) :
    (Conf.start r fun i => (repository f).serve (calls i)).Keeps
      (AllIntact f (everCreated created calls)) fun _ => Answered (everCreated created calls) where
  store := h.mono Set.subset_union_left
  prog i := keeps_serve (calls i) fun _ hl => .inr ⟨i, hl⟩

variable [DecidableEq ι]

def serving (f : TimeFormat) (calls : ι → ServiceCall) (r : Redis) (schedule : List (ι ⊕ Time)) :
    Conf ι Redis (Except RepositoryFault LobbyReply) :=
  (Conf.start r fun i => (repository f).serve (calls i)).execWith Redis.clock schedule

/-- However the commands of any number of calls interleave, what is stored are lobbies that have
players, within the limit and none twice, each under its own id and with the settings that it was
created with; and no call runs into a document that it cannot read, or answers with another
lobby than such. -/
theorem stored_lobbies_intact (f : TimeFormat) (calls : ι → ServiceCall)
    (h : AllIntact f created r) (schedule : List (ι ⊕ Time)) :
    AllIntact f (everCreated created calls) (serving f calls r schedule).store ∧
      ∀ i result, (serving f calls r schedule).Returned i result →
        Answered (everCreated created calls) result := by
  have hkeeps := (keeps_start calls h).execWith (fun t _ hr => hr.clock t) schedule
  exact ⟨hkeeps.store, fun i result hreturned => hkeeps.returned hreturned⟩

/-- Two join at once where there is one place. -/
theorem stored_lobbies_intact_last_place :
    let calls : Fin 3 → ServiceCall := ![.create 0 "1" 1 "a" "" 2 false 5,
      .on "1" (.join 2 "b"), .on "1" (.join 3 "c")]
    AllIntact sinceEpoch (everCreated ∅ calls) (serving sinceEpoch calls ⟨0, fun _ => none⟩
      [.inl 0, .inl 1, .inr 1, .inl 2, .inl 1, .inl 2]).store := by
  intro calls
  exact (stored_lobbies_intact sinceEpoch calls (allIntact_empty 0) _).1

end Runs

end RedisLobbyRepository

end DotsAndBoxes
