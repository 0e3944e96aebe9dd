import DotsAndBoxes.Library.Tombstones
import DotsAndBoxes.Lobby.Operations

/-! # The list of lobbies in the browser

The page on which players meet keeps a cached list of the lobbies. Two writers append to it
without a look at what it holds: the message that announces a lobby to everyone, and the answer
to the request that has created the lobby. So a user who creates a lobby has it on the list
twice once both have come in, and has it on the list for good if the answer comes in after the
message that the lobby is deleted.
-/

namespace DotsAndBoxes.Web

/-- A lobby as the page keeps it. The status comes with an update. -/
structure CachedLobby extends Lobby where
  status : Option String

structure LobbyUpdatedPayload where
  lobbyID : String
  players : Option (List LobbyPlayer)
  status : Option String
  boardSize : Option ℤ
  hostID : Option ℤ
  createdAt : Option Time
  name : Option String
  playerLimit : Option ℤ
  isPrivate : Option Bool

def LobbyUpdatedPayload.spread (payload : LobbyUpdatedPayload) (l : CachedLobby) : CachedLobby where
  lobbyID := payload.lobbyID
  hostID := payload.hostID.getD l.hostID
  boardSize := payload.boardSize.getD l.boardSize
  name := payload.name.getD l.name
  playerLimit := payload.playerLimit.getD l.playerLimit
  isPrivate := payload.isPrivate.getD l.isPrivate
  createdAt := payload.createdAt.getD l.createdAt
  players := payload.players.getD l.players
  status := payload.status <|> l.status

namespace Play

inductive Act where
  /-- The answer to the request that creates a lobby. -/
  | onSuccess (newLobby : Lobby)
  | lobbyCreated (payload : Lobby)
  | lobbyDeleted (lobbyID : String)
  | lobbyUpdated (payload : LobbyUpdatedPayload)

/-- The cached list is updated. There is none before it has been fetched. -/
def setQueryData (updater : List CachedLobby → List CachedLobby)
    (old : Option (List CachedLobby)) : Option (List CachedLobby) :=
  some (updater (old.getD []))

def handle : Act → Option (List CachedLobby) → Option (List CachedLobby)
  | .onSuccess newLobby => setQueryData fun old => old ++ [⟨newLobby, none⟩]
  | .lobbyCreated payload => setQueryData fun old => old ++ [⟨payload, none⟩]
  | .lobbyDeleted lobbyID => setQueryData fun old => old.filter (·.lobbyID ≠ lobbyID)
  | .lobbyUpdated payload => setQueryData fun old =>
      old.map fun l => if l.lobbyID = payload.lobbyID then payload.spread l else l

def lobbies (cached : Option (List CachedLobby)) (acts : List Act) : Option (List CachedLobby) :=
  acts.foldl (fun old act => handle act old) cached

def lobbyIDs (cached : Option (List CachedLobby)) : List String :=
  (cached.getD []).map (·.lobbyID)

def Act.appends : Act → Option Lobby
  | .onSuccess newLobby => some newLobby
  | .lobbyCreated payload => some payload
  | .lobbyDeleted _ | .lobbyUpdated _ => none

def Act.deletes : Act → Option String
  | .lobbyDeleted lobbyID => some lobbyID
  | .onSuccess _ | .lobbyCreated _ | .lobbyUpdated _ => none

def appended (acts : List Act) : List String :=
  (acts.filterMap Act.appends).map (·.lobbyID)

def deleted (acts : List Act) : List String := acts.filterMap Act.deletes

/-- The list has no lobby twice, and none whose deletion has come in. -/
structure Sound (cached : Option (List CachedLobby)) (acts : List Act) : Prop where
  nodup : (lobbyIDs (lobbies cached acts)).Nodup
  gone : ∀ lobbyID ∈ deleted acts, lobbyID ∉ lobbyIDs (lobbies cached acts)

def Act.change (act : Act) : Option (Tombstones.Change String) :=
  match act with
  | .onSuccess newLobby => some (.enter newLobby.lobbyID)
  | .lobbyCreated payload => some (.enter payload.lobbyID)
  | .lobbyDeleted lobbyID => some (.remove lobbyID)
  | .lobbyUpdated _ => none

variable {cached : Option (List CachedLobby)} {acts before : List Act} {act : Act}
  {newLobby : Lobby}

@[simp] theorem lobbyIDs_setQueryData (updater : List CachedLobby → List CachedLobby)
    (cached : Option (List CachedLobby)) :
    lobbyIDs (setQueryData updater cached) = (updater (cached.getD [])).map (·.lobbyID) :=
  rfl

theorem lobbyIDs_lobbyUpdated (payload : LobbyUpdatedPayload)
    (cached : Option (List CachedLobby)) :
    lobbyIDs (handle (.lobbyUpdated payload) cached) = lobbyIDs cached := by
  rw [handle, lobbyIDs_setQueryData, List.map_map, lobbyIDs]
  apply List.map_congr_left
  intro l _
  rw [Function.comp_apply]
  split
  case isTrue hid => exact hid.symm
  case isFalse => rfl

theorem lobbyIDs_handle (act : Act) (cached : Option (List CachedLobby)) :
    lobbyIDs (handle act cached) =
      act.change.elim (lobbyIDs cached) fun c => c.apply (lobbyIDs cached) := by
  cases act with
  | onSuccess newLobby =>
    rw [handle, lobbyIDs_setQueryData, List.map_append]
    rfl
  | lobbyCreated payload =>
    rw [handle, lobbyIDs_setQueryData, List.map_append]
    rfl
  | lobbyDeleted lobbyID =>
    rw [handle, lobbyIDs_setQueryData, Act.change, Option.elim_some, Tombstones.Change.apply,
      lobbyIDs, List.filter_map]
    rfl
  | lobbyUpdated payload => exact lobbyIDs_lobbyUpdated payload cached

theorem lobbyIDs_lobbies (cached : Option (List CachedLobby)) (acts : List Act) :
    lobbyIDs (lobbies cached acts) =
      Tombstones.kept (lobbyIDs cached) (acts.filterMap Act.change) := by
  induction acts generalizing cached with
  | nil => rfl
  | cons act acts ih =>
    rw [lobbies, List.foldl_cons, ← lobbies, ih, lobbyIDs_handle]
    cases hchange : act.change with
    | none => rw [List.filterMap_cons_none hchange]; rfl
    | some c => rw [List.filterMap_cons_some hchange]; rfl

theorem entered_change (acts : List Act) :
    Tombstones.entered (acts.filterMap Act.change) = appended acts := by
  rw [Tombstones.entered, List.filterMap_filterMap, appended, List.map_filterMap]
  apply List.filterMap_congr
  rintro (_ | _ | _ | _) - <;> rfl

theorem removed_change (acts : List Act) :
    Tombstones.removed (acts.filterMap Act.change) = deleted acts := by
  rw [Tombstones.removed, List.filterMap_filterMap, deleted]
  apply List.filterMap_congr
  rintro (_ | _ | _ | _) - <;> rfl

theorem change_eq_enter_iff {lobbyID : String} : act.change = some (.enter lobbyID) ↔
    ∃ newLobby, act.appends = some newLobby ∧ newLobby.lobbyID = lobbyID := by
  cases act <;> simp [Act.change, Act.appends]

theorem sound_iff : Sound cached acts ↔
    Tombstones.Sound (lobbyIDs cached) (acts.filterMap Act.change) := by
  constructor
  · intro h
    constructor
    · rw [← lobbyIDs_lobbies]
      exact h.nodup
    · rw [removed_change, ← lobbyIDs_lobbies]
      exact h.gone
  · intro h
    constructor
    · rw [lobbyIDs_lobbies]
      exact h.nodup
    · rw [← removed_change, lobbyIDs_lobbies]
      exact h.gone

theorem sound_iff_enterOnce : (∀ before, before <+: acts → Sound cached before) ↔
    Tombstones.EnterOnce (lobbyIDs cached) (acts.filterMap Act.change) := by
  rw [← Tombstones.sound_iff_enterOnce]
  constructor
  · intro h log hlog
    obtain ⟨before, hbefore, rfl⟩ := List.prefix_filterMap_iff.mp hlog
    exact sound_iff.mp (h before hbefore)
  · intro h before hbefore
    exact sound_iff.mpr (h _ (hbefore.filterMap _))

theorem fresh_iff : (∀ log lobbyID, log ++ [.enter lobbyID] <+: acts.filterMap Act.change →
      lobbyID ∉ Tombstones.removed log) ↔
    ∀ before act newLobby, before ++ [act] <+: acts → act.appends = some newLobby →
      newLobby.lobbyID ∉ deleted before := by
  constructor
  · intro h before act newLobby hbefore happends
    have hchange : act.change = some (.enter newLobby.lobbyID) :=
      change_eq_enter_iff.mpr ⟨newLobby, happends, rfl⟩
    rw [← removed_change]
    apply h
    have hprefix := hbefore.filterMap Act.change
    rwa [List.filterMap_append, List.filterMap_cons_some hchange] at hprefix
  · intro h log lobbyID hlog
    obtain ⟨l, hl, heq⟩ := List.prefix_filterMap_iff.mp hlog
    obtain ⟨first, rest, rfl, rfl, hrest⟩ := List.filterMap_eq_append_iff.mp heq.symm
    -- the updates between the log and the entry are no part of the log
    obtain ⟨updates, act, after, rfl, hnone, hchange, -⟩ := List.filterMap_eq_cons_iff.mp hrest
    obtain ⟨newLobby, happends, rfl⟩ := change_eq_enter_iff.mp hchange
    have hbefore : (first ++ updates) ++ [act] <+: acts := by
      refine List.IsPrefix.trans ⟨after, ?_⟩ hl
      simp
    have hfresh := h _ act newLobby hbefore happends
    rwa [← removed_change, List.filterMap_append, List.filterMap_eq_nil_iff.mpr hnone,
      List.append_nil] at hfresh

/-- The list never has a lobby twice, nor one whose deletion has come in, exactly if no lobby
is appended that is on the list at first, or was appended before, or is deleted. -/
theorem lobbies_sound_iff (cached : Option (List CachedLobby)) (acts : List Act) :
    (∀ before, before <+: acts → Sound cached before) ↔
      (lobbyIDs cached ++ appended acts).Nodup ∧
        ∀ before act newLobby, before ++ [act] <+: acts → act.appends = some newLobby →
          newLobby.lobbyID ∉ deleted before := by
  rw [sound_iff_enterOnce, ← fresh_iff, ← entered_change]
  constructor
  · intro h
    exact ⟨h.nodup, h.fresh⟩
  · rintro ⟨hnodup, hfresh⟩
    exact ⟨hnodup, hfresh⟩

/-- A user creates a lobby. The announcement comes in, and then the answer. -/
theorem created_lobby_is_listed_twice :
    ∃ server newLobby,
      LobbyServer.createLobby (fun _ => "") 0 "7" 1 "ann" "ann's" 2 false 5 {} =
        (server, .ok newLobby) ∧
      server.published = LobbyService.lobbyCreated (newLobby.marshal fun _ => "") ∧
      ¬ ∀ before, before <+: [.lobbyCreated newLobby, .onSuccess newLobby] →
        Sound (some []) before := by
  refine ⟨_, _, rfl, rfl, ?_⟩
  intro h
  have hnodup := (h _ List.prefix_rfl).nodup
  exact absurd hnodup (by decide)

/-- A user who has a lobby announced and who has created it finds it twice, in whatever order
the announcement and the answer come in. -/
theorem not_sound_of_announced {payload : Lobby} (hid : payload.lobbyID = newLobby.lobbyID)
    (hacts : [.lobbyCreated payload, .onSuccess newLobby].Sublist acts ∨
      [.onSuccess newLobby, .lobbyCreated payload].Sublist acts) :
    ¬ ∀ before, before <+: acts → Sound cached before := by
  rw [sound_iff_enterOnce]
  intro h
  have hnodup := h.nodup.of_append_right
  rw [entered_change] at hnodup
  have hpart : ∀ part, part.Sublist acts → (appended part).Nodup := fun part hpart =>
    hnodup.sublist ((hpart.filterMap Act.appends).map Lobby.lobbyID)
  rcases hacts with hacts | hacts
  · simpa [appended, Act.appends, hid] using hpart _ hacts
  · simpa [appended, Act.appends, hid] using hpart _ hacts

end Play

end DotsAndBoxes.Web
