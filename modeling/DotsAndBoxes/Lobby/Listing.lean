import DotsAndBoxes.Library.Iteration
import DotsAndBoxes.Lobby.Stored

/-! # The list of lobbies

To list the lobbies the service goes through the keys of Redis and gets the document under each,
while calls change and remove lobbies. A document that cannot be got or read is left out. So the
list need not show the lobbies of any one moment: it shows each lobby as it was at some moment,
and may show one twice. But a lobby that is there all along is on it.
-/

namespace DotsAndBoxes

open Serial Runs Iteration

structure LobbyResponse where
  lobbyID : String
  name : String
  boardSize : ℤ
  hostID : ℤ
  playerLimit : ℤ
  isPrivate : Bool
  createdAt : String
  players : List LobbyPlayer
  deriving DecidableEq, Repr

def LobbyResponse.ofLobby (stamp : Time → String) (l : Lobby) : LobbyResponse where
  lobbyID := l.lobbyID
  boardSize := l.boardSize
  name := l.name
  hostID := l.hostID
  playerLimit := l.playerLimit
  isPrivate := l.isPrivate
  createdAt := stamp l.createdAt
  players := l.players

namespace RedisLobbyRepository

/-- The keys that match the pattern `lobby:*`. -/
def lobbyKeys (r : Redis) : Set String :=
  {key | "lobby:".toList <+: key.toList ∧ (r.get key).isSome}

/-- The lobby under a key, if there is a document that can be read. -/
def readLobby (f : TimeFormat) (key : String) (r : Redis) : Option Lobby :=
  match r.get key with
  | none => none
  | some val => (Lobby.codec f).unmarshal val

section Listing

variable {ι : Type}

abbrev Listing (ι : Type) := State (Conf ι Redis (Except RepositoryFault LobbyReply)) String Lobby

def listed (f : TimeFormat) :
    Source (Conf ι Redis (Except RepositoryFault LobbyReply)) String Lobby where
  keys c := lobbyKeys c.store
  read key c := readLobby f key c.store

def startListing (f : TimeFormat) (calls : ι → ServiceCall) (r : Redis) : Listing ι :=
  (listed f).start (Conf.start r fun i => (repository f).serve (calls i))

/-- The lobbies, or an error if a page could not be fetched, once there are no more of them. -/
def getAllLobbies (s : Listing ι) : Option (Except Unit (List Lobby)) :=
  match s.pages, s.page with
  | .failed, _ => some (.error ())
  | .last, [] => some (.ok (s.found.map Prod.snd))
  | _, _ => none

end Listing

end RedisLobbyRepository

def LobbyHandler.getAllLobbies (stamp : Time → String) :
    Except Unit (List Lobby) → Except String (List LobbyResponse)
  | .error _ => .error "failed to fetch lobbies"
  | .ok lobbies => .ok (lobbies.map (.ofLobby stamp))

namespace RedisLobbyRepository

variable {f : TimeFormat} {stamp : Time → String} {lobbyID key : String} {r : Redis} {l : Lobby}
  {created : Set Lobby} {lobbies : List Lobby}

theorem exists_lobbyKey (h : key ∈ lobbyKeys r) : ∃ lobbyID, key = lobbyKey lobbyID := by
  obtain ⟨rest, hrest⟩ := h.1
  refine ⟨String.ofList rest, ?_⟩
  simp only [← String.toList_inj, ← hrest, lobbyKey, String.toList_append, String.toList_ofList]

theorem readLobby_lobbyKey : readLobby f (lobbyKey lobbyID) r = some l ↔
    getLobby f lobbyID r = .ok (some l) := by
  unfold readLobby getLobby
  cases r.get (lobbyKey lobbyID) with
  | none => simp
  | some val =>
    dsimp only
    cases (Lobby.codec f).unmarshal val <;> simp

theorem lobbyKey_mem (h : Holds f lobbyID r (some l)) : lobbyKey lobbyID ∈ lobbyKeys r := by
  constructor
  · rw [lobbyKey, String.toList_append]
    exact List.prefix_append _ _
  · unfold Holds getLobby at h
    cases hget : r.get (lobbyKey lobbyID) with
    | none =>
      rw [hget] at h
      cases h
    | some val => rfl

section Runs

variable {ι : Type} {calls : ι → ServiceCall} {s : Listing ι}

theorem getAllLobbies_eq_ok (h : getAllLobbies s = some (.ok lobbies)) :
    s.Done ∧ lobbies = s.found.map Prod.snd := by
  unfold getAllLobbies at h
  split at h
  · cases h
  · rename_i hpages hpage
    cases h
    exact ⟨⟨hpages, hpage⟩, rfl⟩
  · cases h

variable [DecidableEq ι] {run : List (Act (ι ⊕ Time) String × Listing ι)}

def ListingStep (f : TimeFormat) : Listing ι → Act (ι ⊕ Time) String → Listing ι → Prop :=
  (listed f).Step fun m c => c.move Redis.clock m

theorem intact_visited (h : AllIntact f created r)
    (hrun : Along (ListingStep f) (startListing f calls r) run) :
    ∀ t ∈ visited (startListing f calls r) run,
      AllIntact f (everCreated created calls) t.store.store := by
  have hkeeps : ∀ t ∈ visited (startListing f calls r) run,
      t.store.Keeps (AllIntact f (everCreated created calls))
        fun _ => Answered (everCreated created calls) := by
    refine hrun.forall_visited (keeps_start calls h) ?_
    intro s act t hs hstep
    cases act with
    | change m =>
      obtain rfl := hstep
      exact hs.move (fun t _ hr => hr.clock t) m
    | scan page pages =>
      obtain rfl := hstep.next
      exact hs
    | read k | skip k =>
      obtain ⟨rest, -, rfl⟩ := hstep
      exact hs
  exact fun t ht => (hkeeps t ht).store

/-- What is found is a lobby that was stored at some moment, under the key that was returned. -/
theorem found_stored (h : AllIntact f created r)
    (hrun : Along (ListingStep f) (startListing f calls r) run) :
    ∀ entry ∈ (last (startListing f calls r) run).found,
      entry.1 = lobbyKey entry.2.lobbyID ∧ ∃ t ∈ visited (startListing f calls r) run,
        getLobby f entry.2.lobbyID t.store.store = .ok (some entry.2) ∧
        entry.2.Intact (everCreated created calls) entry.2.lobbyID := by
  intro entry hentry
  have hreturned : entry.1 ∈ (last (startListing f calls r) run).returned :=
    (found_sublist hrun).subset (List.mem_append_left _ (List.mem_map_of_mem hentry))
  obtain ⟨_, -, hpresent⟩ := returned_present hrun _ hreturned
  obtain ⟨lobbyID, hkey⟩ := exists_lobbyKey hpresent
  obtain ⟨t, ht, hread⟩ := found_read hrun entry hentry
  rw [hkey] at hread
  have hget := readLobby_lobbyKey.mp hread
  obtain ⟨s, hholds, hintact⟩ := intact_visited h hrun t ht lobbyID
  obtain rfl : s = some entry.2 := Except.ok.inj (hholds.symm.trans hget)
  have hl := hintact _ rfl
  obtain rfl := hl.id
  exact ⟨hkey, t, ht, hget, hl⟩

/-- The list of lobbies that comes of a listing, while calls about any of them go on. Each lobby
on it is as it was at some moment of the listing, and is as it should be. A lobby that was there
all along is on it, unless getting it failed. And none is on it more often than Redis has
returned its key. -/
theorem lists_lobbies (f : TimeFormat) (stamp : Time → String) (h : AllIntact f created r)
    (hrun : Along (ListingStep f) (startListing f calls r) run)
    (hlobbies : getAllLobbies (last (startListing f calls r) run) = some (.ok lobbies)) :
    ∃ responses, LobbyHandler.getAllLobbies stamp (.ok lobbies) = .ok responses ∧
      (∀ resp ∈ responses, ∃ l, resp = .ofLobby stamp l ∧
        l.Intact (everCreated created calls) l.lobbyID ∧
        ∃ t ∈ visited (startListing f calls r) run,
          getLobby f l.lobbyID t.store.store = .ok (some l)) ∧
      (∀ lobbyID, (∀ t ∈ visited (startListing f calls r) run,
          ∃ l, getLobby f lobbyID t.store.store = .ok (some l)) →
        .skip (lobbyKey lobbyID) ∉ run.map Prod.fst → ∃ resp ∈ responses, resp.lobbyID = lobbyID) ∧
      ∀ lobbyID, responses.countP (·.lobbyID = lobbyID) ≤
        (last (startListing f calls r) run).returned.count (lobbyKey lobbyID) := by
  obtain ⟨hdone, rfl⟩ := getAllLobbies_eq_ok hlobbies
  have hfound := found_stored h hrun
  refine ⟨_, rfl, ?_, ?_, ?_⟩
  · intro resp hresp
    simp only [List.map_map, List.mem_map, Function.comp_apply] at hresp
    obtain ⟨entry, hentry, rfl⟩ := hresp
    obtain ⟨-, t, ht, hget, hl⟩ := hfound entry hentry
    exact ⟨entry.2, rfl, hl, t, ht, hget⟩
  · intro lobbyID hstored hskip
    have hmem : lobbyKey lobbyID ∈ (last (startListing f calls r) run).found.map Prod.fst := by
      refine found_of_steady hrun ?_ ?_ hskip hdone
      · intro t ht
        obtain ⟨l, hl⟩ := hstored t ht
        exact lobbyKey_mem hl
      · intro t ht
        obtain ⟨l, hl⟩ := hstored t ht
        exact Option.isSome_iff_exists.mpr ⟨l, readLobby_lobbyKey.mpr hl⟩
    obtain ⟨entry, hentry, hkey⟩ := List.mem_map.mp hmem
    refine ⟨_, List.mem_map_of_mem (List.mem_map_of_mem hentry), ?_⟩
    rw [(hfound entry hentry).1, lobbyKey_inj] at hkey
    exact hkey
  · intro lobbyID
    have hkeys := (List.sublist_append_left _ _).trans (found_sublist hrun)
    refine le_trans (le_of_eq ?_) (hkeys.count_le (lobbyKey lobbyID))
    rw [List.count, List.countP_map, List.countP_map, List.countP_map]
    apply List.countP_congr
    intro entry hentry
    simp only [Function.comp_apply, decide_eq_true_eq, beq_iff_eq, (hfound entry hentry).1,
      lobbyKey_inj]
    rfl

theorem eq_of_mem_lobbyKeys {t : Time}
    (h : key ∈ lobbyKeys (save f l ⟨t, fun _ => none⟩)) : key = lobbyKey l.lobbyID := by
  by_contra hne
  have hget : (save f l ⟨t, fun _ => none⟩).get key = none := get_set_of_ne hne
  have hsome := h.2
  rw [hget] at hsome
  cases hsome

/-- A join that has loaded the lobby has not saved it yet when the list is read. -/
theorem lists_lobbies_before_join :
    let lobby : Lobby := ⟨"1", 1, 5, "", 2, false, 0, [⟨false, 1, "a"⟩]⟩
    let calls : Fin 1 → ServiceCall := ![.on "1" (.join 2 "b")]
    let stored := save sinceEpoch lobby ⟨0, fun _ => none⟩
    let asked := { startListing sinceEpoch calls stored with
      pages := .last, returned := [lobbyKey "1"], page := [lobbyKey "1"] }
    let loaded : Listing (Fin 1) := { asked with
      store := asked.store.move Redis.clock (.inl 0)
      steady := asked.steady ∩ lobbyKeys stored }
    let read := { loaded with page := [], found := [(lobbyKey "1", lobby)] }
    ∃ responses, getAllLobbies read = some (.ok [lobby]) ∧
      LobbyHandler.getAllLobbies (fun _ => "") (.ok [lobby]) = .ok responses ∧
      ∃ resp ∈ responses, resp.lobbyID = "1" := by
  intro lobby calls stored asked loaded read
  have hlobby : Holds sinceEpoch "1" stored (some lobby) := by
    have hnone : Holds sinceEpoch "1" ⟨0, fun _ => none⟩ none := rfl
    exact hnone.save lobby
  have hintact : AllIntact sinceEpoch {lobby} stored := by
    have hcreated : LobbyService.createLobby 0 "1" 1 "a" "" 2 false 5 = .ok lobby := rfl
    exact ((allIntact_empty 0).mono (Set.empty_subset _)).save
      (Lobby.Intact.of_createLobby hcreated rfl)
  have hrun : Along (ListingStep sinceEpoch) (startListing sinceEpoch calls stored)
      [(.scan [lobbyKey "1"] .last, asked), (.change (.inl 0), loaded),
        (.read (lobbyKey "1"), read)] := by
    refine ⟨⟨⟨rfl, rfl⟩, ?_, ?_, ?_, rfl⟩, rfl, ⟨[], rfl, ?_⟩, trivial⟩
    · intro key hkey
      rw [List.mem_singleton.mp hkey]
      exact lobbyKey_mem hlobby
    · intro _ key hkey
      exact .inr (List.mem_singleton.mpr (eq_of_mem_lobbyKeys hkey))
    · intro hfailed
      cases hfailed
    · have hread : readLobby sinceEpoch (lobbyKey "1") stored = some lobby :=
        readLobby_lobbyKey.mpr hlobby
      show read = { loaded with
        page := []
        found := ((readLobby sinceEpoch (lobbyKey "1") stored).map (lobbyKey "1", ·)).toList }
      rw [hread]
      rfl
  obtain ⟨responses, hanswer, -, hlisted, -⟩ :=
    lists_lobbies sinceEpoch (fun _ => "") hintact hrun rfl
  refine ⟨responses, rfl, hanswer, hlisted "1" ?_ ?_⟩
  · simp only [visited, List.map_cons, List.map_nil, List.mem_cons, List.not_mem_nil, or_false]
    rintro t (rfl | rfl | rfl | rfl) <;> exact ⟨lobby, hlobby⟩
  · simp

end Runs

end RedisLobbyRepository

end DotsAndBoxes
