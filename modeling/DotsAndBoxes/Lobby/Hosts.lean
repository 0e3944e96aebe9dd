import DotsAndBoxes.Library.Runs
import DotsAndBoxes.Lobby.Concurrency

/-! # The host of a lobby

A lobby keeps the id of the user who created it, and only that user is offered to start the
game. Leaving a lobby takes a player out and keeps the host, so the host stays a player exactly
as long as no host leaves other players behind.
-/

namespace DotsAndBoxes

open Runs Serial

def LobbyStep (lobbyID : String) (s : Option Lobby) (call : LobbyCall) (s' : Option Lobby) : Prop :=
  ((call.program lobbyID).run s).1 = s'

def lobbyRun (lobbyID : String) : Option Lobby → List LobbyCall → List (LobbyCall × Option Lobby)
  | _, [] => []
  | s, call :: calls =>
    (call, ((call.program lobbyID).run s).1) ::
      lobbyRun lobbyID ((call.program lobbyID).run s).1 calls

theorem along_lobbyRun (lobbyID : String) (s : Option Lobby) (calls : List LobbyCall) :
    Along (LobbyStep lobbyID) s (lobbyRun lobbyID s calls) := by
  induction calls generalizing s with
  | nil => trivial
  | cons call calls ih => exact ⟨rfl, ih _⟩

def Lobby.isHost (l : Lobby) (currentUserID : ℤ) : Bool := l.hostID = currentUserID

/-- Some player of the lobby, if it is stored, can start the game. -/
def Hosted (s : Option Lobby) : Prop := ∀ l, s = some l → ∃ p ∈ l.players, l.isHost p.userID = true

def HostLeaves (s : Option Lobby) (call : LobbyCall) : Prop :=
  ∃ l, s = some l ∧ call = .leave l.hostID ∧ ∃ userID ∈ l.playerIDs, userID ≠ l.hostID

section Hosts

variable {lobbyID : String} {s s' : Option Lobby} {call : LobbyCall} {l l' : Lobby}
  {run : List (LobbyCall × Option Lobby)}

theorem hosted_some : Hosted (some l) ↔ l.hostID ∈ l.playerIDs := by
  simp only [Hosted, Option.some.injEq, forall_eq', Lobby.isHost, decide_eq_true_eq,
    Lobby.playerIDs, List.mem_map]
  constructor
  · rintro ⟨p, hp, heq⟩
    exact ⟨p, hp, heq.symm⟩
  · rintro ⟨p, hp, heq⟩
    exact ⟨p, hp, heq.symm⟩

theorem hosted_none : Hosted none := nofun

theorem LobbyEffect.settings (h : LobbyEffect call s (some l')) :
    ∃ l, s = some l ∧ l'.hostID = l.hostID ∧ l'.boardSize = l.boardSize ∧
      l'.playerLimit = l.playerLimit := by
  cases h with
  | same => exact ⟨l', rfl, rfl, rfl, rfl⟩
  | joined hadd =>
    obtain ⟨-, -, rfl⟩ := Lobby.addPlayer_eq_ok.mp hadd
    exact ⟨_, rfl, rfl, rfl, rfl⟩
  | left hremove =>
    obtain ⟨-, rfl⟩ := Lobby.removePlayer_eq_ok.mp hremove
    exact ⟨_, rfl, rfl, rfl, rfl⟩
  | readied hready | toggled hready =>
    obtain ⟨-, rfl⟩ := Lobby.setReady_eq_ok.mp hready
    exact ⟨_, rfl, rfl, rfl, rfl⟩

/-- A lobby keeps its host through every call but its deletion and the leave of the host. -/
theorem LobbyEffect.hosted (h : LobbyEffect call s s') (hdelete : call ≠ .delete)
    (hleave : ∀ l, s = some l → call ≠ .leave l.hostID) (hs : Hosted s) : Hosted s' := by
  cases s' with
  | none => exact hosted_none
  | some l' =>
    obtain ⟨l, rfl, hhost, -, -⟩ := h.settings
    obtain ⟨l₁, heq, hin⟩ := h.has (hleave l rfl) hdelete ⟨l, rfl, hosted_some.mp hs⟩
    obtain rfl := Option.some.inj heq
    rw [hosted_some, hhost]
    exact hin

theorem run_leave (hid : l.lobbyID = lobbyID) {userID : ℤ} :
    (((LobbyCall.leave userID).program lobbyID).run (some l)).1 =
      match l.removePlayer userID with
      | .error _ => some l
      | .ok l' => if l'.isEmpty then none else some l' := by
  rw [LobbyCall.program, Prog.run_bind, run_leaveLobby hid]
  cases l.removePlayer userID <;> rfl

/-- When the host of a lobby leaves, the lobby stays hosted only if it is gone. -/
theorem hosted_leave_iff (hkept : LobbyKept lobbyID (some l)) (hs : Hosted (some l)) :
    Hosted (((LobbyCall.leave l.hostID).program lobbyID).run (some l)).1 ↔
      ¬ HostLeaves (some l) (.leave l.hostID) := by
  obtain ⟨hid, hwell⟩ := hkept l rfl
  have hin := hosted_some.mp hs
  have hremove : l.removePlayer l.hostID =
      .ok { l with players := l.players.eraseP (·.userID = l.hostID) } :=
    Lobby.removePlayer_eq_ok.mpr ⟨hin, rfl⟩
  have hids := Lobby.playerIDs_removePlayer hremove
  rw [run_leave hid, hremove]
  dsimp only
  set l' : Lobby := { l with players := l.players.eraseP (·.userID = l.hostID) } with hl'
  have hleft (userID : ℤ) : userID ∈ l'.playerIDs ↔ userID ≠ l.hostID ∧ userID ∈ l.playerIDs := by
    rw [hids, hwell.nodup.mem_erase_iff]
  have hlost : ¬ l'.hostID ∈ l'.playerIDs := fun hmem => ((hleft _).mp hmem).1 rfl
  constructor
  · rintro hhosted ⟨l₁, heq, -, userID, huser, hne⟩
    obtain rfl := Option.some.inj heq
    have hmem := (hleft userID).mpr ⟨hne, huser⟩
    split at hhosted
    case isTrue hempty =>
      rw [Lobby.isEmpty_iff.mp hempty] at hmem
      cases hmem
    case isFalse => exact hlost (hosted_some.mp hhosted)
  · intro hnone
    split
    case isTrue => exact hosted_none
    case isFalse hsome =>
      rw [Lobby.isEmpty_iff] at hsome
      obtain ⟨userID, huser⟩ := List.exists_mem_of_ne_nil _ hsome
      obtain ⟨hne, hmem⟩ := (hleft userID).mp huser
      exact absurd ⟨l, rfl, rfl, userID, hmem, hne⟩ hnone

/-- From a hosted lobby, a call loses the host exactly when the host leaves others behind. -/
theorem LobbyStep.hosted_iff (h : LobbyStep lobbyID s call s') (hkept : LobbyKept lobbyID s)
    (hs : Hosted s) : Hosted s' ↔ ¬ HostLeaves s call := by
  obtain rfl := h
  by_cases hleave : ∃ l, s = some l ∧ call = .leave l.hostID
  · obtain ⟨l, rfl, rfl⟩ := hleave
    exact hosted_leave_iff hkept hs
  · constructor
    · rintro - ⟨l, hl, hcall, -⟩
      exact hleave ⟨l, hl, hcall⟩
    · rintro -
      by_cases hdelete : call = .delete
      · subst hdelete
        cases s <;> exact hosted_none
      · exact (effect_run hkept call).hosted hdelete (fun l hl hcall => hleave ⟨l, hl, hcall⟩) hs

/-- Through a run of calls on a new lobby, some player is always the host exactly when the host
never leaves another player behind. -/
theorem lobby_is_hosted_iff {now : Time} {hostID limit boardSize : ℤ} {username name : String}
    {isPrivate : Bool} (hcreate : LobbyService.createLobby now lobbyID hostID username name limit
      isPrivate boardSize = .ok l) (hrun : Along (LobbyStep lobbyID) (some l) run) :
    (∀ s ∈ visited (some l) run, Hosted s) ↔
      Along (fun s call _ => ¬ HostLeaves s call) (some l) run := by
  have hhosted : Hosted (some l) := by
    obtain ⟨-, -, rfl⟩ := Lobby.addPlayer_eq_ok.mp hcreate
    simp [hosted_some, Lobby.playerIDs]
  apply visited_good_iff (fun s => LobbyKept lobbyID s ∧ Hosted s) hrun hhosted
    ⟨createLobby_kept hcreate, hhosted⟩
  · rintro s call s' ⟨hkept, hs⟩ hstep
    exact hstep.hosted_iff hkept hs
  · rintro s call s' ⟨hkept, hs⟩ hstep hmeets
    have hs' := (hstep.hosted_iff hkept hs).mpr hmeets
    obtain rfl := hstep
    exact ⟨(effect_run hkept call).kept hkept, hs'⟩

end Hosts

theorem lobby_is_hosted_iff_fourSeats :
    Hosted (last (some fourSeats) (lobbyRun "a1" (some fourSeats) [.join 2 "bob"])) := by
  have hcreate : LobbyService.createLobby 0 "a1" 1 "ann" "five by five" 4 false 5 = .ok fourSeats :=
    rfl
  apply (lobby_is_hosted_iff hcreate (along_lobbyRun ..)).mpr ?_ _ (last_mem_visited _ _)
  constructor
  · rintro ⟨l, -, hcall, -⟩
    cases hcall
  · trivial

/-- The host leaves the other player behind, who cannot start the game. -/
theorem host_leaves_lobby_behind :
    LobbyService.createLobby 0 "a1" 1 "ann" "five by five" 4 false 5 = .ok fourSeats ∧
    ¬ ∀ s ∈ visited (some fourSeats)
      (lobbyRun "a1" (some fourSeats) [.join 2 "bob", .leave 1]), Hosted s := by
  refine ⟨rfl, fun h => ?_⟩
  have hleft : Hosted (some { fourSeats with players := [⟨false, 2, "bob"⟩] }) :=
    h _ (.inr (List.mem_cons_of_mem _ List.mem_cons_self))
  exact absurd (hosted_some.mp hleft) (by decide)

end DotsAndBoxes
