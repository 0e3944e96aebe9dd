import DotsAndBoxes.Lobby.Operations

/-! # The members of a lobby

The requests to the service are handled one at a time, and those that succeed are its log. A
user is a member of a lobby since the last time it joined, unless it has left or the lobby is
gone. The stored lobby lists its members in the order in which they joined.
-/

namespace DotsAndBoxes

/-- The service after some requests, with those that succeeded, the latest first. -/
inductive Served (stamp : Time → String) : LobbyServer → List LobbyRequest → Prop where
  | start : Served stamp {} []
  | succeeded {s s' log req} (h : Served stamp s log) (hreq : s.handle stamp req = (s', .ok ())) :
      Served stamp s' (req :: log)
  | failed {s s' log req e} (h : Served stamp s log) (hreq : s.handle stamp req = (s', .error e)) :
      Served stamp s' log

def LobbyRequest.lobbyID : LobbyRequest → String
  | .create _ lobbyID _ _ _ _ _ _ => lobbyID
  | .join lobbyID _ _ => lobbyID
  | .leave lobbyID _ => lobbyID
  | .setReady lobbyID _ _ => lobbyID
  | .delete lobbyID => lobbyID

def LobbyRequest.joins (lobbyID : String) (userID : ℤ) : LobbyRequest → Bool
  | .create _ created hostID _ _ _ _ _ => created = lobbyID ∧ hostID = userID
  | .join joined user _ => joined = lobbyID ∧ user = userID
  | _ => false

/-- The request takes the user out of the lobby: it leaves, or the lobby is deleted, or a new one
takes its place. -/
def LobbyRequest.parts (lobbyID : String) (userID : ℤ) : LobbyRequest → Bool
  | .create _ created _ _ _ _ _ _ => created = lobbyID
  | .leave left user => left = lobbyID ∧ user = userID
  | .delete deleted => deleted = lobbyID
  | _ => false

/-- When the user last joined the lobby, if it has not been out of it since. -/
def joinedAt (lobbyID : String) (userID : ℤ) : List LobbyRequest → Option ℕ
  | [] => none
  | req :: earlier =>
    if req.joins lobbyID userID then some earlier.length
    else if req.parts lobbyID userID then none
    else joinedAt lobbyID userID earlier

/-- The first user has been in the lobby for longer than the second. -/
def JoinedBefore (lobbyID : String) (log : List LobbyRequest) (first second : ℤ) : Prop :=
  ∃ i j, joinedAt lobbyID first log = some i ∧ joinedAt lobbyID second log = some j ∧ i < j

structure Lists (lobbyID : String) (log : List LobbyRequest) (l : Lobby) : Prop where
  keyed : l.lobbyID = lobbyID
  nonempty : l.playerIDs ≠ []
  wellFormed : l.WellFormed
  members : ∀ userID, userID ∈ l.playerIDs ↔ (joinedAt lobbyID userID log).isSome
  ordered : l.playerIDs.Pairwise (JoinedBefore lobbyID log)

/-- What is stored under an id lists the members, and a lobby that is not stored has none. -/
def Lodged (lobbyID : String) (log : List LobbyRequest) (s : Option Lobby) : Prop :=
  (∀ l, s = some l → Lists lobbyID log l) ∧
    (s = none → ∀ userID, joinedAt lobbyID userID log = none)

section Members

variable {stamp : Time → String} {s s' : LobbyServer} {log : List LobbyRequest}
  {req : LobbyRequest} {l l' : Lobby} {lobbyID username : String} {userID : ℤ}

theorem joinedAt_lt {i : ℕ} (h : joinedAt lobbyID userID log = some i) : i < log.length := by
  induction log with
  | nil => cases h
  | cons req log ih =>
    rw [joinedAt] at h
    split_ifs at h
    · obtain rfl := Option.some.inj h
      exact Nat.lt_succ_self _
    · exact Nat.lt_succ_of_lt (ih h)

theorem joinedAt_join (user : ℤ) : joinedAt lobbyID user (.join lobbyID userID username :: log) =
    if user = userID then some log.length else joinedAt lobbyID user log := by
  simp [joinedAt, LobbyRequest.joins, LobbyRequest.parts, eq_comm]

theorem joinedAt_leave (user : ℤ) : joinedAt lobbyID user (.leave lobbyID userID :: log) =
    if user = userID then none else joinedAt lobbyID user log := by
  simp [joinedAt, LobbyRequest.joins, LobbyRequest.parts, eq_comm]

theorem joinedAt_create (now : Time) (hostID : ℤ) (name : String) (limit : ℤ) (isPrivate : Bool)
    (boardSize user : ℤ) : joinedAt lobbyID user
      (.create now lobbyID hostID username name limit isPrivate boardSize :: log) =
      if user = hostID then some log.length else none := by
  simp [joinedAt, LobbyRequest.joins, LobbyRequest.parts, eq_comm]

theorem joinedAt_delete (user : ℤ) : joinedAt lobbyID user (.delete lobbyID :: log) = none := by
  simp [joinedAt, LobbyRequest.joins, LobbyRequest.parts]

theorem joinedAt_setReady (ready : Bool) (user : ℤ) :
    joinedAt lobbyID user (.setReady lobbyID userID ready :: log) = joinedAt lobbyID user log := rfl

theorem JoinedBefore.cons {first second : ℤ} (h : JoinedBefore lobbyID log first second)
    (hfirst : joinedAt lobbyID first (req :: log) = joinedAt lobbyID first log)
    (hsecond : joinedAt lobbyID second (req :: log) = joinedAt lobbyID second log) :
    JoinedBefore lobbyID (req :: log) first second := by
  obtain ⟨i, j, hi, hj, hlt⟩ := h
  exact ⟨i, j, hfirst.trans hi, hsecond.trans hj, hlt⟩

namespace Lists

theorem keep (h : Lists lobbyID log l)
    (hsame : ∀ userID, joinedAt lobbyID userID (req :: log) = joinedAt lobbyID userID log)
    (hkeyed : l'.lobbyID = l.lobbyID) (hplayers : l'.playerIDs = l.playerIDs)
    (hwell : l'.WellFormed) : Lists lobbyID (req :: log) l' where
  keyed := hkeyed.trans h.keyed
  nonempty := by rw [hplayers]; exact h.nonempty
  wellFormed := hwell
  members userID := by rw [hplayers, hsame]; exact h.members userID
  ordered := by
    rw [hplayers]
    exact h.ordered.imp fun hbefore => hbefore.cons (hsame _) (hsame _)

theorem join (h : Lists lobbyID log l) (hadd : l.addPlayer userID username = .ok l') :
    Lists lobbyID (.join lobbyID userID username :: log) l' := by
  have hids := Lobby.playerIDs_addPlayer hadd
  obtain ⟨-, hout, hl'⟩ := Lobby.addPlayer_eq_ok.mp hadd
  have hsame {u : ℤ} (hu : u ∈ l.playerIDs) :
      joinedAt lobbyID u (.join lobbyID userID username :: log) = joinedAt lobbyID u log := by
    rw [joinedAt_join, if_neg]
    rintro rfl
    exact hout hu
  refine ⟨by rw [hl']; exact h.keyed, by simp [hids], h.wellFormed.addPlayer hadd, fun u => ?_, ?_⟩
  · rw [hids, List.mem_append, List.mem_singleton, joinedAt_join]
    by_cases hu : u = userID
    · simp [hu]
    · rw [if_neg hu, ← h.members u, or_iff_left hu]
  · rw [hids, List.pairwise_append]
    refine ⟨h.ordered.imp_of_mem fun hu hv hbefore => hbefore.cons (hsame hu) (hsame hv),
      List.pairwise_singleton .., fun u hu v hv => ?_⟩
    obtain rfl := List.mem_singleton.mp hv
    obtain ⟨i, hi⟩ := Option.isSome_iff_exists.mp ((h.members u).mp hu)
    exact ⟨i, log.length, (hsame hu).trans hi, by rw [joinedAt_join, if_pos rfl], joinedAt_lt hi⟩

/-- A player that is removed is no longer a member, and the others keep their order. -/
theorem leave (h : Lists lobbyID log l) (hremove : l.removePlayer userID = .ok l')
    (hne : l'.isEmpty = false) : Lists lobbyID (.leave lobbyID userID :: log) l' := by
  have hids := Lobby.playerIDs_removePlayer hremove
  have hstays {u : ℤ} : u ∈ l'.playerIDs ↔ u ≠ userID ∧ u ∈ l.playerIDs := by
    rw [hids, h.wellFormed.nodup.mem_erase_iff]
  obtain ⟨-, hl'⟩ := Lobby.removePlayer_eq_ok.mp hremove
  refine ⟨by rw [hl']; exact h.keyed, ?_, h.wellFormed.removePlayer hremove, fun u => ?_, ?_⟩
  · intro hnil
    rw [Lobby.isEmpty_iff.mpr hnil] at hne
    cases hne
  · rw [hstays, joinedAt_leave]
    by_cases hu : u = userID
    · simp [hu]
    · rw [if_neg hu, ← h.members u, and_iff_right hu]
  · have hsame {u : ℤ} (hu : u ∈ l'.playerIDs) :
        joinedAt lobbyID u (.leave lobbyID userID :: log) = joinedAt lobbyID u log := by
      rw [joinedAt_leave, if_neg (hstays.mp hu).1]
    have hsub := h.ordered.sublist (List.erase_sublist (a := userID))
    rw [← hids] at hsub
    exact hsub.imp_of_mem fun hu hv hbefore => hbefore.cons (hsame hu) (hsame hv)

theorem empty (h : Lists lobbyID log l) (hremove : l.removePlayer userID = .ok l')
    (hempty : l'.isEmpty = true) (user : ℤ) :
    joinedAt lobbyID user (.leave lobbyID userID :: log) = none := by
  have hids := Lobby.playerIDs_removePlayer hremove
  rw [Lobby.isEmpty_iff.mp hempty] at hids
  rw [joinedAt_leave]
  split_ifs with hu
  · rfl
  · have hout : user ∉ l.playerIDs := fun hin => by
      have hmem := (List.mem_erase_of_ne hu).mpr hin
      rw [← hids] at hmem
      cases hmem
    rwa [h.members, Option.not_isSome_iff_eq_none] at hout

theorem create {now : Time} {hostID limit boardSize : ℤ} {name : String} {isPrivate : Bool}
    (h : LobbyService.createLobby now lobbyID hostID username name limit isPrivate boardSize =
      .ok l) (log : List LobbyRequest) :
    Lists lobbyID
      (.create now lobbyID hostID username name limit isPrivate boardSize :: log) l := by
  obtain ⟨hkeyed, hwell⟩ := createLobby_kept h l rfl
  obtain ⟨-, -, rfl⟩ := Lobby.addPlayer_eq_ok.mp h
  refine ⟨hkeyed, by simp [Lobby.playerIDs], hwell, fun u => ?_, List.pairwise_singleton ..⟩
  rw [joinedAt_create]
  by_cases hu : u = hostID <;> simp [Lobby.playerIDs, hu]

end Lists

theorem joinedAt_of_ne (hne : lobbyID ≠ req.lobbyID) (userID : ℤ) :
    joinedAt lobbyID userID (req :: log) = joinedAt lobbyID userID log := by
  have hne' := hne.symm
  cases req <;> simp_all [joinedAt, LobbyRequest.joins, LobbyRequest.parts, LobbyRequest.lobbyID]

theorem Lodged.some (h : Lists lobbyID log l) : Lodged lobbyID log (some l) := by
  refine ⟨?_, nofun⟩
  rintro _ ⟨⟩
  exact h

theorem Lodged.none (h : ∀ userID, joinedAt lobbyID userID log = none) :
    Lodged lobbyID log none := ⟨nofun, fun _ => h⟩

theorem lodged_update {lobbies : String → Option Lobby} {stored : Option Lobby}
    (hs : ∀ lobbyID, Lodged lobbyID log (lobbies lobbyID))
    (hstored : Lodged req.lobbyID (req :: log) stored) (lobbyID : String) :
    Lodged lobbyID (req :: log) (Function.update lobbies req.lobbyID stored lobbyID) := by
  by_cases hid : lobbyID = req.lobbyID
  · subst hid
    rwa [Function.update_self]
  · have hsame (userID : ℤ) : joinedAt lobbyID userID (req :: log) = joinedAt lobbyID userID log :=
      joinedAt_of_ne hid userID
    rw [Function.update_of_ne hid]
    refine ⟨fun l hl => ?_, fun hnone userID => (hsame userID).trans ((hs lobbyID).2 hnone userID)⟩
    have hlists := (hs lobbyID).1 l hl
    exact hlists.keep hsame rfl rfl hlists.wellFormed

theorem LobbyServer.Handled.lodged (h : LobbyServer.Handled stamp s req s' (.ok ()))
    (hs : ∀ lobbyID, Lodged lobbyID log (s.lobbies lobbyID)) :
    ∃ stored, s'.lobbies = Function.update s.lobbies req.lobbyID stored ∧
      Lodged req.lobbyID (req :: log) stored := by
  cases h with
  | created hcreate =>
    have hlists := Lists.create hcreate log
    exact ⟨_, by rw [← hlists.keyed]; rfl, .some hlists⟩
  | joined hl hadd =>
    have hlists := ((hs _).1 _ hl).join hadd
    exact ⟨_, by rw [← hlists.keyed]; rfl, .some hlists⟩
  | left hl hremove hne =>
    have hlists := ((hs _).1 _ hl).leave hremove hne
    exact ⟨_, by rw [← hlists.keyed]; rfl, .some hlists⟩
  | emptied hl hremove hempty => exact ⟨none, rfl, .none (((hs _).1 _ hl).empty hremove hempty)⟩
  | @readied lobbyID userID ready l l' hl hready =>
    have hlists := (hs lobbyID).1 l hl
    have hlists' : Lists lobbyID (.setReady lobbyID userID ready :: log) l' :=
      hlists.keep (joinedAt_setReady ready) (lobbyID_of_setReady hready)
        (Lobby.playerIDs_setReady hready) (hlists.wellFormed.setReady hready)
    exact ⟨some l', by rw [← hlists'.keyed]; rfl, .some hlists'⟩
  | @ignored lobbyID userID ready l hl hout =>
    have hlists := (hs lobbyID).1 l hl
    have hlists' : Lists lobbyID (.setReady lobbyID userID ready :: log) l :=
      hlists.keep (joinedAt_setReady ready) rfl rfl hlists.wellFormed
    exact ⟨some l, by rw [← hlists'.keyed]; rfl, .some hlists'⟩
  | deleted hl => exact ⟨none, rfl, .none joinedAt_delete⟩

theorem Served.lodged (h : Served stamp s log) (lobbyID : String) :
    Lodged lobbyID log (s.lobbies lobbyID) := by
  induction h generalizing lobbyID with
  | start => exact .none fun _ => rfl
  | @succeeded s s' log req _ hreq ih =>
    have hhandled := LobbyServer.handled stamp s req
    rw [hreq] at hhandled
    obtain ⟨stored, hlobbies, hstored⟩ := hhandled.lodged ih
    rw [hlobbies]
    exact lodged_update ih hstored lobbyID
  | @failed s s' log req e _ hreq ih =>
    have hhandled := LobbyServer.handled stamp s req
    rw [hreq] at hhandled
    cases hhandled
    exact ih lobbyID

theorem LobbyServer.saved (hl : s.lobbies lobbyID = some l) (l' : Lobby) :
    ¬ (s.save l').lobbies lobbyID = none := by
  by_cases hid : lobbyID = l'.lobbyID
  · simp [LobbyServer.save, hid]
  · simp [LobbyServer.save, hid, hl]

theorem LobbyServer.removed_iff (hl : s.lobbies lobbyID = some l) (removed : String) :
    (s.remove removed).lobbies lobbyID = none ↔ removed = lobbyID := by
  by_cases hid : lobbyID = removed
  · simp [LobbyServer.remove, hid]
  · simp [LobbyServer.remove, hid, hl, Ne.symm hid]

theorem Lobby.erase_eq_nil_iff (hin : userID ∈ l.playerIDs) :
    l.playerIDs.erase userID = [] ↔ l.playerIDs = [userID] := by
  rw [List.erase_eq_nil_iff, or_iff_right (List.ne_nil_of_mem hin)]

/-- A stored lobby is gone after a request exactly when its last player left, or it was deleted. -/
theorem LobbyServer.Handled.removed_iff {result : Except LobbyError Unit}
    (h : LobbyServer.Handled stamp s req s' result) (hl : s.lobbies lobbyID = some l) :
    s'.lobbies lobbyID = none ↔
      (∃ userID, req = .leave lobbyID userID ∧ l.playerIDs = [userID]) ∨
        (req = .delete lobbyID ∧ result = .ok ()) := by
  cases h with
  | refused hrefused hready =>
    refine iff_of_false (by simp [hl]) ?_
    rintro (⟨userID, rfl, hids⟩ | ⟨-, ⟨⟩⟩)
    exact not_refused_of_mem hl (by simp [hids]) hrefused
  | created hcreate => exact iff_of_false (LobbyServer.saved hl _) (by simp)
  | joined hl' hadd => exact iff_of_false (LobbyServer.saved hl _) (by simp)
  | @left joined userID l₁ l' hl' hremove hne =>
    refine iff_of_false (LobbyServer.saved hl _) ?_
    rintro (⟨userID, ⟨⟩, hids⟩ | ⟨⟨⟩, -⟩)
    obtain rfl := Option.some.inj (hl.symm.trans hl')
    have hnil : l'.playerIDs = [] := by
      rw [Lobby.playerIDs_removePlayer hremove, hids, List.erase_cons_head]
    rw [Lobby.isEmpty_iff.mpr hnil] at hne
    cases hne
  | @emptied left userID l₁ l' hl' hremove hempty =>
    refine (LobbyServer.removed_iff hl left).trans ⟨?_, ?_⟩
    · rintro rfl
      obtain rfl := Option.some.inj (hl.symm.trans hl')
      obtain ⟨hin, -⟩ := Lobby.removePlayer_eq_ok.mp hremove
      have hnil := Lobby.playerIDs_removePlayer hremove
      rw [Lobby.isEmpty_iff.mp hempty, eq_comm, Lobby.erase_eq_nil_iff hin] at hnil
      exact .inl ⟨userID, rfl, hnil⟩
    · rintro (⟨_, ⟨⟩, -⟩ | ⟨⟨⟩, -⟩)
      rfl
  | readied hl' hready => exact iff_of_false (LobbyServer.saved hl _) (by simp)
  | ignored hl' hout => exact iff_of_false (LobbyServer.saved hl _) (by simp)
  | @deleted deleted l₁ hl' =>
    refine (LobbyServer.removed_iff hl deleted).trans ?_
    simp

theorem Lobby.removePlayer_addPlayer (hadd : l.addPlayer userID username = .ok l') :
    l'.removePlayer userID = .ok l := by
  obtain ⟨-, hout, rfl⟩ := Lobby.addPlayer_eq_ok.mp hadd
  refine Lobby.removePlayer_eq_ok.mpr ⟨by simp [Lobby.playerIDs], ?_⟩
  have hnone : ∀ p ∈ l.players, ¬ decide (p.userID = userID) = true := fun p hp huser =>
    hout (List.mem_map.mpr ⟨p, hp, of_decide_eq_true huser⟩)
  rw [List.eraseP_append_right _ hnone]
  simp

end Members

/-- What is stored lists the members in the order in which they joined, a lobby is removed when
its last player leaves or it is deleted, and a member that joins and leaves changes nothing. -/
theorem members_of_served {stamp : Time → String} {s : LobbyServer} {log : List LobbyRequest}
    (h : Served stamp s log) :
    (∀ lobbyID l, s.lobbies lobbyID = some l →
      1 ≤ l.players.length ∧ (l.players.length : ℤ) ≤ l.playerLimit ∧ l.playerIDs.Nodup ∧
        (∀ userID, userID ∈ l.playerIDs ↔ (joinedAt lobbyID userID log).isSome) ∧
        l.playerIDs.Pairwise (JoinedBefore lobbyID log)) ∧
    (∀ lobbyID l req, s.lobbies lobbyID = some l →
      ((s.handle stamp req).1.lobbies lobbyID = none ↔
        (∃ userID, req = .leave lobbyID userID ∧ l.playerIDs = [userID]) ∨
          (req = .delete lobbyID ∧ (s.handle stamp req).2 = .ok ()))) ∧
    (∀ lobbyID l userID username, s.lobbies lobbyID = some l → userID ∉ l.playerIDs →
      (s.joinLobby lobbyID userID username).2 = .ok () →
        let left := (s.joinLobby lobbyID userID username).1.leaveLobby lobbyID userID
        left.2 = .ok () ∧ left.1.lobbies = s.lobbies) := by
  have hlists {lobbyID l} (hl : s.lobbies lobbyID = some l) := (h.lodged lobbyID).1 l hl
  refine ⟨fun lobbyID l hl => ?_, fun lobbyID l req hl =>
    (LobbyServer.handled stamp s req).removed_iff hl, fun lobbyID l userID username hl hout => ?_⟩
  · have hl := hlists hl
    refine ⟨?_, hl.wellFormed.limit, hl.wellFormed.nodup, hl.members, hl.ordered⟩
    rw [Nat.one_le_iff_ne_zero, Ne, List.length_eq_zero_iff]
    exact fun hnil => hl.nonempty (by simp [Lobby.playerIDs, hnil])
  · have hkept := hlists hl
    unfold LobbyServer.joinLobby
    rw [hl]
    dsimp only
    cases hadd : l.addPlayer userID username with
    | error e =>
      intro hok
      cases hok
    | ok l' =>
      intro _
      have hkeyed : l'.lobbyID = lobbyID := by
        obtain ⟨-, -, rfl⟩ := Lobby.addPlayer_eq_ok.mp hadd
        exact hkept.keyed
      have hne : l.isEmpty = false := by
        rw [← Bool.not_eq_true, Lobby.isEmpty_iff]
        exact hkept.nonempty
      simp [LobbyServer.leaveLobby, LobbyServer.saveUpdated, LobbyServer.save, LobbyServer.publish,
        hkeyed, Lobby.removePlayer_addPlayer hadd, hne, hkept.keyed, ← hl]

/-- The host of a lobby for two waits for another player. -/
theorem members_of_served_host :
    let s : LobbyServer := ((LobbyServer.handle (fun _ => "1970-01-01T00:00:00Z")
      (.create 0 "a1" 1 "ann" "" 2 false 5)) {}).1
    let joined := s.joinLobby "a1" 2 "bob"
    joined.2 = .ok () ∧ (joined.1.leaveLobby "a1" 2).1.lobbies = s.lobbies := by
  have hserved : Served (fun _ => "1970-01-01T00:00:00Z") _
      [.create 0 "a1" 1 "ann" "" 2 false 5] := .succeeded .start (Prod.ext rfl rfl)
  exact ⟨rfl, ((members_of_served hserved).2.2 "a1" _ 2 "bob" rfl (by decide) rfl).2⟩

end DotsAndBoxes
