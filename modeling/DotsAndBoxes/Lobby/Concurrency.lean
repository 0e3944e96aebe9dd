import DotsAndBoxes.Lobby.Service

/-! # Concurrent calls about a lobby

The actions of calls on a lobby interleave. As long as the lobby is still the one a call
left at its previous action whenever the call acts again, the calls might as well have
been run one after the other. A call that saves a copy which is no longer up to date takes
back what others have done in between.
-/

namespace DotsAndBoxes

open Serial Prog

theorem LobbyCall.oneWrite_program (lobbyID : String) (call : LobbyCall) :
    OneWrite ReadOnly (call.program lobbyID) := by
  have hsave (l : Lobby) : OneWrite ReadOnly
      (saveLobby lobbyID l (.ret (.ok ())) : LobbyProg (Except LobbyError Unit)) :=
    oneWrite_write _ (.ret _)
  have hready (userID : ℤ) (ready : Bool) :
      OneWrite ReadOnly (LobbyService.setPlayerReady lobbyID userID ready) := by
    apply oneWrite_read
    intro s
    cases s with
    | none => exact .ret _
    | some l =>
      dsimp only
      cases l.setReady userID ready <;> exact hsave _
  cases call with
  | join userID username =>
    refine OneWrite.bind (oneWrite_read fun s => ?_) fun _ => .ret _
    cases s with
    | none => exact .ret _
    | some l =>
      dsimp only
      cases l.addPlayer userID username with
      | error e => exact .ret _
      | ok l' => exact hsave l'
  | leave userID =>
    refine OneWrite.bind (oneWrite_read fun s => ?_) fun _ => .ret _
    cases s with
    | none => exact .ret _
    | some l =>
      dsimp only
      cases l.removePlayer userID with
      | error e => exact .ret _
      | ok l' =>
        dsimp only
        split_ifs
        · exact oneWrite_write _ (.ret _)
        · exact hsave l'
  | delete =>
    refine OneWrite.bind (oneWrite_read fun s => ?_) fun _ => .ret _
    cases s with
    | none => exact .ret _
    | some l => exact oneWrite_write _ (.ret _)
  | setReady userID ready => exact (hready userID ready).bind fun _ => .ret _
  | toggleReady userID =>
    apply oneWrite_read
    intro s
    cases s with
    | none => exact .ret _
    | some l =>
      dsimp only
      cases l.players.find? (·.userID = userID) with
      | none => exact .ret _
      | some player =>
        apply (hready userID _).bind
        intro result
        cases result with
        | error e => exact .ret _
        | ok _ =>
          apply readOnly_read
          intro s
          cases s <;> exact .ret _

theorem LobbyCall.program_ne_ret (lobbyID : String) (call : LobbyCall) (reply : LobbyReply) :
    call.program lobbyID ≠ .ret reply := by
  cases call <;> nofun

section Keeping

variable {call : LobbyCall} {s s' : Option Lobby} {userID : ℤ}

def Has (userID : ℤ) (s : Option Lobby) : Prop := ∃ l, s = some l ∧ userID ∈ l.playerIDs

theorem LobbyEffect.has (h : LobbyEffect call s s') (hleave : call ≠ .leave userID)
    (hdelete : call ≠ .delete) (hs : Has userID s) : Has userID s' := by
  obtain ⟨l, rfl, hin⟩ := hs
  cases h with
  | same => exact ⟨l, rfl, hin⟩
  | @joined _ _ _ l' hadd =>
    refine ⟨l', rfl, ?_⟩
    rw [Lobby.playerIDs_addPlayer hadd]
    exact List.mem_append_left _ hin
  | @left other _ l' hremove hne =>
    have hother : userID ≠ other := fun heq => hleave (by rw [heq])
    refine ⟨l', rfl, ?_⟩
    rw [Lobby.playerIDs_removePlayer hremove]
    exact (List.mem_erase_of_ne hother).mpr hin
  | @emptied other _ l' hremove hempty =>
    have hother : userID ≠ other := fun heq => hleave (by rw [heq])
    have hin' : userID ∈ l'.playerIDs := by
      rw [Lobby.playerIDs_removePlayer hremove]
      exact (List.mem_erase_of_ne hother).mpr hin
    rw [Lobby.isEmpty_iff.mp hempty] at hin'
    cases hin'
  | deleted => exact absurd rfl hdelete
  | @readied _ _ _ l' hready | @toggled _ _ _ l' hready =>
    refine ⟨l', rfl, ?_⟩
    rw [Lobby.playerIDs_setReady hready]
    exact hin

theorem LobbyEffect.not_has (h : LobbyEffect call s s')
    (hjoin : ∀ username, call ≠ .join userID username) (hs : ¬ Has userID s) :
    ¬ Has userID s' := by
  rintro ⟨l', rfl, hin⟩
  cases h with
  | same => exact hs ⟨l', rfl, hin⟩
  | @joined other username l _ hadd =>
    rw [Lobby.playerIDs_addPlayer hadd, List.mem_append, List.mem_singleton] at hin
    rcases hin with hin | rfl
    · exact hs ⟨l, rfl, hin⟩
    · exact hjoin username rfl
  | left hremove =>
    rw [Lobby.playerIDs_removePlayer hremove] at hin
    exact hs ⟨_, rfl, List.mem_of_mem_erase hin⟩
  | readied hready | toggled hready =>
    rw [Lobby.playerIDs_setReady hready] at hin
    exact hs ⟨_, rfl, hin⟩

variable {lobbyID : String} {username : String}

theorem has_of_join_ok (hs : LobbyKept lobbyID s)
    (h : (((LobbyCall.join userID username).program lobbyID).run s).2 = .done (.ok ())) :
    Has userID (((LobbyCall.join userID username).program lobbyID).run s).1 := by
  cases s with
  | none => cases h
  | some l =>
    rw [LobbyCall.program, run_bind, run_joinLobby (hs l rfl).1] at h ⊢
    cases hadd : l.addPlayer userID username with
    | error e =>
      rw [hadd] at h
      cases h
    | ok l' =>
      refine ⟨l', rfl, ?_⟩
      rw [Lobby.playerIDs_addPlayer hadd]
      exact List.mem_append_right _ (List.mem_singleton_self userID)

theorem not_has_of_leave_ok (hs : LobbyKept lobbyID s)
    (h : (((LobbyCall.leave userID).program lobbyID).run s).2 = .done (.ok ())) :
    ¬ Has userID (((LobbyCall.leave userID).program lobbyID).run s).1 := by
  cases s with
  | none => cases h
  | some l =>
    obtain ⟨hid, hwell⟩ := hs l rfl
    rw [LobbyCall.program, run_bind, run_leaveLobby hid] at h ⊢
    cases hremove : l.removePlayer userID with
    | error e =>
      rw [hremove] at h
      cases h
    | ok l' =>
      have hgone : userID ∉ l'.playerIDs := by
        rw [Lobby.playerIDs_removePlayer hremove]
        exact hwell.nodup.not_mem_erase
      rintro ⟨l'', hl'', hin⟩
      cases hempty : l'.isEmpty with
      | true => simp [hempty] at hl''
      | false =>
        simp only [hempty] at hl''
        cases hl''
        exact hgone hin

end Keeping

section Calls

variable {ι : Type} {lobbyID : String} {calls : ι → LobbyCall} {s : Option Lobby}

def lobbyPrograms (lobbyID : String) (calls : ι → LobbyCall) (i : ι) : LobbyProg LobbyReply :=
  (calls i).program lobbyID

/-- The stored lobby and the replies are those of the calls one after the other, and what
that means to the players. -/
structure Sequential (lobbyID : String) (calls : ι → LobbyCall) (s : Option Lobby)
    (c : Conf ι (Option Lobby) LobbyReply) (order : List ι) : Prop where
  serialized : Serialized (lobbyPrograms lobbyID calls) s c order
  complete : ∀ i reply, c.Returned i reply → i ∈ order
  /-- The limit is not exceeded, and nobody is in the lobby twice. -/
  kept : LobbyKept lobbyID c.store
  /-- A player who has joined is there, unless a later call takes the player out. -/
  joins : ∀ before i after userID username, order = before ++ i :: after →
    calls i = .join userID username → c.Returned i (.done (.ok ())) →
      (∀ j ∈ after, calls j ≠ .leave userID ∧ calls j ≠ .delete) → Has userID c.store
  /-- A player who has left is gone, unless the player joins again later. -/
  leaves : ∀ before i after userID, order = before ++ i :: after →
    calls i = .leave userID → c.Returned i (.done (.ok ())) →
      (∀ j ∈ after, ∀ username, calls j ≠ .join userID username) → ¬ Has userID c.store
  /-- Two toggles in a row cancel out. -/
  toggles : ∀ before i j after userID, order = before ++ [i, j] ++ after →
    calls i = .toggleReady userID → calls j = .toggleReady userID →
      runAll (lobbyPrograms lobbyID calls) (before ++ [i, j]) s =
        runAll (lobbyPrograms lobbyID calls) before s

theorem kept_runAll (calls : ι → LobbyCall) (hs : LobbyKept lobbyID s) (order : List ι) :
    LobbyKept lobbyID (runAll (lobbyPrograms lobbyID calls) order s) :=
  runAll_induction hs order fun i _ _ ht => (effect_run ht (calls i)).kept ht

theorem runAll_split (before : List ι) (i : ι) (after : List ι) :
    runAll (lobbyPrograms lobbyID calls) (before ++ i :: after) s =
      runAll (lobbyPrograms lobbyID calls) after
        (((calls i).program lobbyID).run
          (runAll (lobbyPrograms lobbyID calls) before s)).1 := by
  rw [runAll_append]
  rfl

theorem toggle_toggle (hs : LobbyKept lobbyID s) (userID : ℤ) :
    ((toggleReady lobbyID userID).run ((toggleReady lobbyID userID).run s).1).1 = s := by
  cases s with
  | none => rfl
  | some l =>
    have hid := (hs l rfl).1
    rw [run_toggleReady hid, run_toggleReady (by exact hid), Lobby.flipReady_flipReady]

theorem sequential_of_serialized {c : Conf ι (Option Lobby) LobbyReply} {order : List ι}
    (hs : LobbyKept lobbyID s) (h : Serialized (lobbyPrograms lobbyID calls) s c order)
    (hcomplete : ∀ i reply, c.Returned i reply → i ∈ order) :
    Sequential lobbyID calls s c order := by
  constructor
  · exact h
  · exact hcomplete
  · rw [h.store]
    exact kept_runAll calls hs order
  · rintro before i after userID username rfl hcall hret hafter
    have hbefore := kept_runAll calls hs before
    have hresult := h.result before i _ ⟨after, by simp⟩ hret
    rw [lobbyPrograms, hcall] at hresult
    have hhas := has_of_join_ok hbefore hresult
    have hkept := (effect_run hbefore (.join userID username)).kept hbefore
    rw [h.store, runAll_split, hcall]
    refine (runAll_induction (P := fun s => LobbyKept lobbyID s ∧ Has userID s) ⟨hkept, hhas⟩ after
      fun j hj t ht => ?_).2
    have heffect := effect_run ht.1 (calls j)
    exact ⟨heffect.kept ht.1, heffect.has (hafter j hj).1 (hafter j hj).2 ht.2⟩
  · rintro before i after userID rfl hcall hret hafter
    have hbefore := kept_runAll calls hs before
    have hresult := h.result before i _ ⟨after, by simp⟩ hret
    rw [lobbyPrograms, hcall] at hresult
    have hgone := not_has_of_leave_ok hbefore hresult
    have hkept := (effect_run hbefore (.leave userID)).kept hbefore
    rw [h.store, runAll_split, hcall]
    refine (runAll_induction (P := fun s => LobbyKept lobbyID s ∧ ¬ Has userID s) ⟨hkept, hgone⟩
      after fun j hj t ht => ?_).2
    have heffect := effect_run ht.1 (calls j)
    exact ⟨heffect.kept ht.1, heffect.not_has (hafter j hj) ht.2⟩
  · rintro before i j after userID rfl hi hj
    have hbefore := kept_runAll calls hs before
    rw [runAll_append]
    simp only [runAll, List.foldl_cons, List.foldl_nil, lobbyPrograms, hi, hj]
    exact toggle_toggle hbefore userID

variable [DecidableEq ι]

/-- If every action of a call finds the lobby as the call left it, then the stored lobby and
the replies are those of the calls one after the other, and a lobby that is deleted at some
point stays deleted. -/
theorem lobby_calls_serializable (hs : LobbyKept lobbyID s) (schedule : List ι)
    (hfresh : (Conf.start s (lobbyPrograms lobbyID calls)).FreshRun schedule) :
    let c := Conf.start s (lobbyPrograms lobbyID calls)
    (∃ order, Sequential lobbyID calls s (c.exec schedule) order) ∧
      ∀ before after, schedule = before ++ after → (c.exec before).store = none →
        (c.exec schedule).store = none := by
  intro c
  have hone (i : ι) : OneWrite ReadOnly (lobbyPrograms lobbyID calls i) :=
    (calls i).oneWrite_program lobbyID
  constructor
  · obtain ⟨order, hserial, -, hmem⟩ := exec_serialized settled_readOnly hone hfresh
    refine ⟨order, sequential_of_serialized hs hserial fun i reply hret => ?_⟩
    exact (hmem i reply hret).resolve_right (LobbyCall.program_ne_ret lobbyID (calls i) reply)
  · rintro before after rfl hnone
    refine exec_closed settled_readOnly hone (P := fun s => s = none) ?_ hfresh hnone
    rintro i _ rfl
    exact run_program_none lobbyID (calls i)

end Calls

def fourSeats : Lobby := ⟨"a1", 1, 5, "five by five", 4, false, 0, [⟨false, 1, "ann"⟩]⟩

theorem fourSeats_kept : LobbyKept "a1" (some fourSeats) := by
  rintro _ ⟨⟩
  exact ⟨rfl, by decide, by decide⟩

def twoJoin : Bool → LobbyCall
  | false => .join 2 "bob"
  | true => .join 3 "eve"

theorem lobby_calls_serializable_inTurn :
    ∃ order, Sequential "a1" twoJoin (some fourSeats)
      ((Conf.start (some fourSeats) (lobbyPrograms "a1" twoJoin)).exec
        [false, false, true, true]) order :=
  (lobby_calls_serializable fourSeats_kept [false, false, true, true]
    ⟨Conf.fresh_of_isNone rfl, (Conf.fresh_of_isNone rfl).step, Conf.fresh_of_isNone (by decide),
      (Conf.fresh_of_isNone (by decide)).step, trivial⟩).1

/-- Two players who both read the lobby before either saves it are both told that they have
joined, and only one of them has. -/
theorem concurrent_join_is_lost :
    ¬ ∀ schedule, ∃ order, Sequential "a1" twoJoin (some fourSeats)
      ((Conf.start (some fourSeats) (lobbyPrograms "a1" twoJoin)).exec schedule) order := by
  intro h
  obtain ⟨order, hseq⟩ := h [false, true, false, true]
  have hret : Conf.Returned ((Conf.start (some fourSeats) (lobbyPrograms "a1" twoJoin)).exec
      [false, true, false, true]) false (.done (.ok ())) := rfl
  obtain ⟨before, after, horder⟩ := List.append_of_mem (hseq.complete false _ hret)
  obtain ⟨l, hstore, hin⟩ := hseq.joins before false after 2 "bob" horder rfl hret fun j _ => by
    cases j <;> simp [twoJoin]
  have hlost : ((Conf.start (some fourSeats) (lobbyPrograms "a1" twoJoin)).exec
      [false, true, false, true]).store =
        some { fourSeats with players := [⟨false, 1, "ann"⟩, ⟨false, 3, "eve"⟩] } := rfl
  rw [hlost] at hstore
  cases hstore
  revert hin
  decide

end DotsAndBoxes
