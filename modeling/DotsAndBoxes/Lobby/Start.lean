import DotsAndBoxes.Lobby.Hosts
import DotsAndBoxes.Service.Rosters

/-! # From a lobby to a game

The handler checks the board size of a new lobby and leaves its limit of players alone, and a
lobby takes in players up to its limit. A game has at most four. So a lobby that is ready can
always start exactly when its limit is no more than that.
-/

namespace DotsAndBoxes

open Runs Serial

structure CreateLobbyRequest where
  name : String
  playerLimit : ℤ
  isPrivate : Bool
  boardSize : ℤ
  deriving DecidableEq, Repr

inductive LobbyRequestError where
  | boardSize
  | failed (e : LobbyError)
  deriving DecidableEq, Repr

def LobbyRequestError.message : LobbyRequestError → String
  | .boardSize => "board_size must be between 5 and 10"
  | .failed _ => "failed to create lobby"

def LobbyHandler.createLobby (now : Time) (lobbyID : String) (userID : ℤ) (username : String)
    (req : CreateLobbyRequest) : Except LobbyRequestError Lobby :=
  if req.boardSize < 5 ∨ req.boardSize > 10 then .error .boardSize
  else (LobbyService.createLobby now lobbyID userID username req.name req.playerLimit
    req.isPrivate req.boardSize).mapError .failed

namespace Lobby

/-- The button that starts the game is enabled: there are enough players, and all are ready. -/
def canStart (l : Lobby) : Bool := 2 ≤ l.players.length ∧ l.players.all (·.isReady)

/-- The game that the button asks for is created, whatever the order of the players and the
state of the server. -/
def Starts (l : Lobby) : Prop :=
  ∀ (db : Database) (now : Time) (shuffle : Shuffle) (usernames : ℤ → String) (s : Server),
    ∃ s' g, s.createGame db now shuffle usernames l.playerIDs l.boardSize = some (s', .ok g)

end Lobby

section Start

variable {lobbyID : String} {l l' : Lobby} {run : List (LobbyCall × Option Lobby)}

theorem named_seated {shuffle : Shuffle} {usernames : ℤ → String} {playerIDs : List ℤ} {k : ℕ}
    {p : Player} (hp : p ∈ seated (shuffle.shuffle (lineUp usernames playerIDs k))) :
    p.userID.isSome = true := by
  have hmem := (perm_userIDs shuffle usernames playerIDs k).subset (List.mem_map_of_mem hp)
  rcases List.mem_append.mp hmem with hhuman | hbot
  · obtain ⟨id, -, hid⟩ := List.mem_map.mp hhuman
    simp [← hid]
  · obtain ⟨i, -, hi⟩ := mem_botIDs.mp hbot
    simp [hi]

theorem Server.exists_createGame (db : Database) (now : Time) (shuffle : Shuffle)
    (usernames : ℤ → String) (s : Server) {playerIDs : List ℤ} {boardSize : ℤ}
    (hsize : 5 ≤ boardSize ∧ boardSize ≤ 10) (hcount : 2 ≤ playerIDs.length ∧ playerIDs.length ≤ 4)
    (hnodup : playerIDs.Nodup) :
    ∃ s' g, s.createGame db now shuffle usernames playerIDs boardSize = some (s', .ok g) := by
  have hgrid : Game.makeEmptyGrid boardSize = some _ := if_neg (by omega)
  obtain ⟨g, hnew⟩ : ∃ g, Game.newGame now (some 0) boardSize
      (seated (shuffle.shuffle (lineUp usernames playerIDs 0))) = some g :=
    ⟨_, by rw [Game.newGame_eq, hgrid]; rfl⟩
  have hnone : firstDuplicate [] playerIDs = none :=
    firstDuplicate_eq_none.mpr ⟨hnodup, fun _ _ => List.not_mem_nil⟩
  have hline : playerIDs.map (humanPlayer usernames) = lineUp usernames playerIDs 0 := by
    simp [lineUp]
  have hnamed : ¬ (g.players.any fun p => p.userID.isNone) = true := by
    rw [newGame_players hnew, List.any_eq_true]
    rintro ⟨p, hp, hanonymous⟩
    have hsome := named_seated hp
    simp [Option.isNone_iff_eq_none.mp hanonymous] at hsome
  unfold Server.createGame
  rw [if_neg (by omega), if_neg (by omega), hnone]
  simp only [hline, hnew, Option.bind_eq_bind, Option.bind_some, Database.create, hnamed]
  exact ⟨_, _, rfl⟩

/-- A well-formed lobby with enough players can start unless it has more than four. -/
theorem Lobby.starts_iff (hwell : l.WellFormed) (hsize : 5 ≤ l.boardSize ∧ l.boardSize ≤ 10)
    (htwo : 2 ≤ l.players.length) : l.Starts ↔ l.players.length ≤ 4 := by
  have hlength : l.playerIDs.length = l.players.length := List.length_map _
  constructor
  · intro h
    obtain ⟨s', g, hcreate⟩ := h .byInsertion 0 .keep (fun _ => "") (.boot 1 fun _ => [])
    obtain ⟨g₀, rows, -, hcount, -⟩ := Server.createGame_eq_ok hcreate
    omega
  · rintro hfour db now shuffle usernames s
    exact s.exists_createGame db now shuffle usernames hsize (by omega) hwell.nodup

structure Settled (lobbyID : String) (limit boardSize : ℤ) (s : Option Lobby) : Prop where
  kept : LobbyKept lobbyID s
  settings : ∀ l, s = some l → l.playerLimit = limit ∧ l.boardSize = boardSize

theorem Settled.step {limit boardSize : ℤ} {s s' : Option Lobby} {call : LobbyCall}
    (h : Settled lobbyID limit boardSize s) (hstep : LobbyStep lobbyID s call s') :
    Settled lobbyID limit boardSize s' := by
  obtain rfl := hstep
  have heffect := effect_run h.kept call
  refine ⟨heffect.kept h.kept, fun l' hl' => ?_⟩
  rw [hl'] at heffect
  obtain ⟨l, hl, -, hsize, hlimit⟩ := heffect.settings
  rw [hsize, hlimit]
  exact h.settings l hl

theorem updateFirst_append_of_find?_eq_none {α : Type*} {p : α → Bool} {f : α → α} {as bs : List α}
    (h : as.find? p = none) : updateFirst p f (as ++ bs) = as ++ updateFirst p f bs := by
  induction as with
  | nil => rfl
  | cons a as ih =>
    rw [List.find?_eq_none] at h
    rw [List.cons_append, updateFirst, if_neg (h a List.mem_cons_self),
      ih (List.find?_eq_none.mpr fun b hb => h b (List.mem_cons_of_mem a hb)), List.cons_append]

theorem exists_join_ready (hid : l.lobbyID = lobbyID) (hroom : (l.players.length : ℤ) < l.playerLimit)
    (hready : l.players.all (·.isReady) = true) :
    ∃ run l', Along (LobbyStep lobbyID) (some l) run ∧ last (some l) run = some l' ∧
      l'.lobbyID = lobbyID ∧ l'.playerLimit = l.playerLimit ∧
      l'.players.length = l.players.length + 1 ∧ l'.players.all (·.isReady) = true := by
  obtain ⟨userID, hnew⟩ := Infinite.exists_notMem_finset l.playerIDs.toFinset
  rw [List.mem_toFinset] at hnew
  set joined : Lobby := { l with players := l.players ++ [⟨false, userID, "guest"⟩] } with hjoined
  have hadd : l.addPlayer userID "guest" = .ok joined := Lobby.addPlayer_eq_ok.mpr ⟨hroom, hnew, rfl⟩
  have hjoin : LobbyStep lobbyID (some l) (.join userID "guest") (some joined) := by
    rw [LobbyStep, LobbyCall.program, Prog.run_bind, run_joinLobby hid, hadd]
    rfl
  have hnone : l.players.find? (·.userID = userID) = none := by
    rw [List.find?_eq_none]
    intro p hp heq
    exact hnew (List.mem_map.mpr ⟨p, hp, of_decide_eq_true heq⟩)
  have hflip : (joined.flipReady userID).players = l.players ++ [⟨true, userID, "guest"⟩] := by
    simp only [Lobby.flipReady, Lobby.updatePlayer, hjoined]
    rw [updateFirst_append_of_find?_eq_none hnone]
    simp [updateFirst]
  have htoggle : LobbyStep lobbyID (some joined) (.toggleReady userID)
      (some (joined.flipReady userID)) := run_toggleReady hid
  refine ⟨[(.join userID "guest", some joined), (.toggleReady userID, some (joined.flipReady userID))],
    joined.flipReady userID, ⟨hjoin, htoggle, trivial⟩, rfl, hid, rfl, ?_, ?_⟩
  · rw [hflip, List.length_append, List.length_singleton]
  · rw [hflip, List.all_append, hready]
    rfl

theorem exists_fill (hid : l.lobbyID = lobbyID) (hready : l.players.all (·.isReady) = true) (k : ℕ)
    (hroom : (l.players.length : ℤ) + k ≤ l.playerLimit) :
    ∃ run l', Along (LobbyStep lobbyID) (some l) run ∧ last (some l) run = some l' ∧
      l'.players.length = l.players.length + k ∧ l'.players.all (·.isReady) = true := by
  induction k generalizing l with
  | zero => exact ⟨[], l, trivial, rfl, rfl, hready⟩
  | succ k ih =>
    obtain ⟨run, l₁, hrun, hlast, hid₁, hlimit₁, hlength₁, hready₁⟩ :=
      exists_join_ready hid (by push_cast at hroom; omega) hready
    obtain ⟨run', l', hrun', hlast', hlength, hready'⟩ :=
      ih hid₁ hready₁ (by rw [hlength₁, hlimit₁]; push_cast at hroom ⊢; omega)
    refine ⟨run ++ run', l', along_append.mpr ⟨hrun, hlast ▸ hrun'⟩, ?_, by omega, hready'⟩
    rw [last_append, hlast, hlast']

theorem createLobby_eq_ok {now : Time} {userID : ℤ} {username : String} {req : CreateLobbyRequest}
    (h : LobbyHandler.createLobby now lobbyID userID username req = .ok l) :
    (5 ≤ req.boardSize ∧ req.boardSize ≤ 10) ∧
      LobbyService.createLobby now lobbyID userID username req.name req.playerLimit
        req.isPrivate req.boardSize = .ok l := by
  unfold LobbyHandler.createLobby at h
  split at h
  case isTrue => cases h
  case isFalse hsize =>
    refine ⟨by omega, ?_⟩
    cases hl : LobbyService.createLobby now lobbyID userID username req.name req.playerLimit
        req.isPrivate req.boardSize with
    | error e =>
      rw [hl] at h
      cases h
    | ok l₁ =>
      rw [hl] at h
      have hok : (.ok l₁ : Except LobbyRequestError Lobby) = .ok l := h
      rw [Except.ok.inj hok]

theorem settled_create {now : Time} {hostID limit boardSize : ℤ} {username name : String}
    {isPrivate : Bool} (h : LobbyService.createLobby now lobbyID hostID username name limit
      isPrivate boardSize = .ok l) : Settled lobbyID limit boardSize (some l) := by
  obtain ⟨-, -, hl⟩ := Lobby.addPlayer_eq_ok.mp h
  refine ⟨createLobby_kept h, ?_⟩
  rintro _ ⟨⟩
  rw [hl]
  exact ⟨rfl, rfl⟩

theorem Settled.reached {limit boardSize : ℤ} (h : Settled lobbyID limit boardSize (some l))
    (hrun : Along (LobbyStep lobbyID) (some l) run) (hlast : last (some l) run = some l') :
    Settled lobbyID limit boardSize (some l') := by
  have hend := hrun.inv_last h fun _ _ _ hs hstep => hs.step hstep
  rwa [hlast] at hend

theorem Settled.starts_iff {limit boardSize : ℤ} (h : Settled lobbyID limit boardSize (some l))
    (hsize : 5 ≤ boardSize ∧ boardSize ≤ 10) (hstart : l.canStart = true) :
    l.Starts ↔ l.players.length ≤ 4 := by
  obtain ⟨-, hwell⟩ := h.kept l rfl
  obtain ⟨-, hboard⟩ := h.settings l rfl
  exact Lobby.starts_iff hwell (by omega) (of_decide_eq_true hstart).1

theorem exists_crowd {now : Time} {hostID limit boardSize : ℤ} {username name : String}
    {isPrivate : Bool} (h : LobbyService.createLobby now lobbyID hostID username name limit
      isPrivate boardSize = .ok l) (hlimit : 4 < limit) :
    ∃ run l', Along (LobbyStep lobbyID) (some l) run ∧ last (some l) run = some l' ∧
      l'.canStart = true ∧ l'.players.length = 5 := by
  have hid : l.lobbyID = lobbyID := (createLobby_kept h l rfl).1
  obtain ⟨-, -, hl⟩ := Lobby.addPlayer_eq_ok.mp h
  have htoggle : LobbyStep lobbyID (some l) (.toggleReady hostID) (some (l.flipReady hostID)) :=
    run_toggleReady hid
  have hhost : (l.flipReady hostID).players = [⟨true, hostID, username⟩] := by
    rw [hl]
    simp [Lobby.flipReady, Lobby.updatePlayer, updateFirst]
  have hlimit' : (l.flipReady hostID).playerLimit = limit := by
    rw [hl]
    rfl
  obtain ⟨run, l', hrun, hlast, hlength, hready⟩ :=
    exists_fill (l := l.flipReady hostID) hid (by rw [hhost]; rfl) 4
      (by rw [hhost, hlimit', List.length_singleton]; push_cast; omega)
  rw [hhost, List.length_singleton] at hlength
  exact ⟨(.toggleReady hostID, some (l.flipReady hostID)) :: run, l', ⟨htoggle, hrun⟩, hlast,
    decide_eq_true ⟨by omega, hready⟩, hlength⟩

/-- Every lobby that its players can start makes a game exactly when it has at most four of them,
and every lobby that comes of a request does so exactly when the limit of the request is at most
four. -/
theorem ready_lobbies_start_iff {now : Time} {userID : ℤ} {username : String}
    {req : CreateLobbyRequest}
    (hcreate : LobbyHandler.createLobby now lobbyID userID username req = .ok l) :
    (∀ run l', Along (LobbyStep lobbyID) (some l) run → last (some l) run = some l' →
      l'.canStart = true → (l'.Starts ↔ l'.players.length ≤ 4)) ∧
    ((∀ run l', Along (LobbyStep lobbyID) (some l) run → last (some l) run = some l' →
      l'.canStart = true → l'.Starts) ↔ req.playerLimit ≤ 4) := by
  obtain ⟨hsize, hservice⟩ := createLobby_eq_ok hcreate
  have hsettled := settled_create hservice
  have hstarts : ∀ run l', Along (LobbyStep lobbyID) (some l) run → last (some l) run = some l' →
      l'.canStart = true → (l'.Starts ↔ l'.players.length ≤ 4) := by
    rintro run l' hrun hlast hstart
    exact (hsettled.reached hrun hlast).starts_iff hsize hstart
  refine ⟨hstarts, ?_, ?_⟩
  · intro hall
    by_contra hlimit
    obtain ⟨run, l', hrun, hlast, hstart, hlength⟩ := exists_crowd hservice (by omega)
    have hfour := (hstarts run l' hrun hlast hstart).mp (hall run l' hrun hlast hstart)
    omega
  · rintro hlimit run l' hrun hlast hstart
    have hend := hsettled.reached hrun hlast
    obtain ⟨-, hwell⟩ := hend.kept l' rfl
    have hle := hwell.limit
    rw [(hend.settings l' rfl).1] at hle
    exact (hstarts run l' hrun hlast hstart).mpr (by omega)

end Start

/-- A lobby for as many players as there are seats in a game. -/
theorem ready_lobbies_start_iff_fourSeats : ∃ l',
    last (some fourSeats) (lobbyRun "a1" (some fourSeats) [.join 2 "bob", .toggleReady 1,
      .toggleReady 2]) = some l' ∧ l'.canStart = true ∧ l'.Starts := by
  have hcreate : LobbyHandler.createLobby 0 "a1" 1 "ann" ⟨"five by five", 4, false, 5⟩ =
      .ok fourSeats := rfl
  obtain ⟨l', hlast, hstart⟩ : ∃ l', last (some fourSeats) (lobbyRun "a1" (some fourSeats)
      [.join 2 "bob", .toggleReady 1, .toggleReady 2]) = some l' ∧ l'.canStart = true :=
    ⟨_, rfl, rfl⟩
  have hsmall := (ready_lobbies_start_iff hcreate).2.mpr (by decide)
  exact ⟨l', hlast, hstart, hsmall _ l' (along_lobbyRun ..) hlast hstart⟩

/-- Four users join a lobby for five, and then all five are ready. -/
def crowdedCalls : List LobbyCall :=
  [.join 2 "bob", .join 3 "eve", .join 4 "dan", .join 5 "kim", .toggleReady 1, .toggleReady 2,
    .toggleReady 3, .toggleReady 4, .toggleReady 5]

/-- A lobby for five that is full and ready asks for a game that no server creates. -/
theorem crowded_lobby_cannot_start : ∃ l l',
    LobbyHandler.createLobby 0 "a1" 1 "ann" ⟨"five by five", 5, false, 5⟩ = .ok l ∧
    Along (LobbyStep "a1") (some l) (lobbyRun "a1" (some l) crowdedCalls) ∧
    last (some l) (lobbyRun "a1" (some l) crowdedCalls) = some l' ∧ l'.canStart = true ∧
    l'.playerIDs = [1, 2, 3, 4, 5] ∧ ¬ l'.Starts := by
  obtain ⟨l, l', hcreate, hlast, hstart, hids⟩ : ∃ l l',
      LobbyHandler.createLobby 0 "a1" 1 "ann" ⟨"five by five", 5, false, 5⟩ = .ok l ∧
      last (some l) (lobbyRun "a1" (some l) crowdedCalls) = some l' ∧ l'.canStart = true ∧
      l'.playerIDs = [1, 2, 3, 4, 5] := ⟨_, _, rfl, rfl, rfl, rfl⟩
  refine ⟨l, l', hcreate, along_lobbyRun .., hlast, hstart, hids, fun h => ?_⟩
  obtain ⟨s', g, hgame⟩ := h .byInsertion 0 .keep (fun _ => "") (.boot 1 fun _ => [])
  obtain ⟨g₀, rows, -, hcount, -⟩ := Server.createGame_eq_ok hgame
  rw [hids] at hcount
  exact absurd hcount.2 (by decide)

end DotsAndBoxes
