import DotsAndBoxes.Service.Turns

/-! # The seats of a new game

A game seats the users of a request and some bots in a random order. Bots have negative ids of
their own, so every seat is told from the others by its id, and a bot from a user by the sign,
as long as the request names users by positive ids. A persisted game refers to stored users; the
id in a request for a bot game is only compared with zero.
-/

namespace DotsAndBoxes

open Game Server

inductive CreateRequest where
  | createGame (playerIDs : List ℤ) (boardSize : ℤ)
  | createBotGame (humanPlayerID boardSize numBots : ℤ)
  deriving DecidableEq, Repr

namespace CreateRequest

def humans : CreateRequest → List ℤ
  | .createGame playerIDs _ => playerIDs
  | .createBotGame humanPlayerID _ _ => [humanPlayerID]

def bots : CreateRequest → ℤ
  | .createGame _ _ => 0
  | .createBotGame _ _ numBots => numBots

end CreateRequest

inductive BotGameRequestError where
  | humanPlayerID
  | boardSize
  | numBots
  | failed (e : CreationError)
  deriving DecidableEq, Repr

def BotGameRequestError.message : BotGameRequestError → String
  | .humanPlayerID => "human_player_id is required"
  | .boardSize => "board_size must be between 5 and 10"
  | .numBots => "num_bots must be 1–3 (that many AI players; total = you + num_bots)"
  | .failed _ => "Failed to create bot game: "

namespace GameHandler

def createBotGame (now : Time) (shuffle : Shuffle) (usernames : ℤ → String)
    (humanPlayerID boardSize numBots : ℤ) (s : Server) :
    Exec (Server × Except BotGameRequestError Game) :=
  if humanPlayerID = 0 then some (s, .error .humanPlayerID)
  else if boardSize < 5 ∨ boardSize > 10 then some (s, .error .boardSize)
  else if numBots ≤ 0 ∨ numBots > 3 then some (s, .error .numBots)
  else (s.createBotGame now shuffle usernames [humanPlayerID] numBots boardSize).map
    fun (s, result) => (s, result.mapError .failed)

end GameHandler

/-- A handler accepts the request and creates the game. The details of a persisted game refer to
stored users. -/
inductive CreateRequest.Accepted (db : Database) (users : Set ℤ) :
    CreateRequest → Server → Server → Game → Prop where
  | createGame {now : Time} {shuffle : Shuffle} {usernames : ℤ → String} {playerIDs : List ℤ}
      {boardSize : ℤ} {s s' : Server} {g : Game} :
      s.createGame db now shuffle usernames playerIDs boardSize = some (s', .ok g) →
      (∀ id ∈ playerIDs, id ∈ users) →
      Accepted db users (.createGame playerIDs boardSize) s s' g
  | createBotGame {now : Time} {shuffle : Shuffle} {usernames : ℤ → String}
      {humanPlayerID boardSize numBots : ℤ} {s s' : Server} {g : Game} :
      GameHandler.createBotGame now shuffle usernames humanPlayerID boardSize numBots s =
        some (s', .ok g) →
      Accepted db users (.createBotGame humanPlayerID boardSize numBots) s s' g

/-- Two to four seats in the order of their turns, with nothing scored, each with an id of its
own; the seats of bots are those with a negative id. -/
structure WellSeated (numBots : ℤ) (g : Game) : Prop where
  count : 2 ≤ g.players.length ∧ g.players.length ≤ 4
  seated : Seated g.players
  named : ∀ p ∈ g.players, p.userID.isSome = true
  distinct : (g.players.map (·.userID)).Nodup
  bots : (g.players.countP fun p => p.userID.any (· < 0) : ℤ) = numBots

/-- A seat is found by its user id, by the first match of a move and in the map of the timer. -/
structure SeatsFound (g : Game) : Prop where
  seatOf : ∀ (i : ℕ) p id, g.players[i]? = some p → p.userID = some id → g.seatOf id = some i
  timer : ∀ (i : ℕ) p id, g.players[i]? = some p → p.userID = some id →
    GameTimer.seats g.players id = some i

variable {db : Database} {s s' : Server} {g : Game} {numBots : ℤ}

theorem firstDuplicate_eq_none {seen ids : List ℤ} :
    firstDuplicate seen ids = none ↔ ids.Nodup ∧ ∀ id ∈ ids, id ∉ seen := by
  induction ids generalizing seen with
  | nil => simp [firstDuplicate]
  | cons id ids ih =>
    unfold firstDuplicate
    split_ifs with hseen
    · simp [hseen]
    · rw [ih]
      simp only [List.mem_cons, not_or, List.nodup_cons, forall_eq_or_imp]
      constructor
      · rintro ⟨hnodup, hnew⟩
        exact ⟨⟨fun hmem => (hnew id hmem).1 rfl, hnodup⟩, hseen, fun a ha => (hnew a ha).2⟩
      · rintro ⟨⟨hid, hnodup⟩, -, hnew⟩
        refine ⟨hnodup, fun a ha => ⟨?_, hnew a ha⟩⟩
        rintro rfl
        exact hid ha

theorem userID_seated (players : List Player) :
    (seated players).map (·.userID) = players.map (·.userID) := by
  apply List.ext_getElem
  · simp [seated]
  · intro i hi hi'
    simp [seated]

section Seats

variable {shuffle : Shuffle} {usernames : ℤ → String} {ids : List ℤ} {k : ℕ}

/-- The players of a game with `k` bots, before they are shuffled. -/
def lineUp (usernames : ℤ → String) (ids : List ℤ) (k : ℕ) : List Player :=
  ids.map (humanPlayer usernames) ++ (List.range k).map botPlayer

def botIDs (k : ℕ) : List (Option ℤ) := (List.range k).map fun i : ℕ => some (-(i + 1))

theorem perm_userIDs (shuffle : Shuffle) (usernames : ℤ → String) (ids : List ℤ) (k : ℕ) :
    ((seated (shuffle.shuffle (lineUp usernames ids k))).map (·.userID)).Perm
      (ids.map some ++ botIDs k) := by
  have hids : (lineUp usernames ids k).map (·.userID) = ids.map some ++ botIDs k := by
    simp only [lineUp, botIDs, List.map_append, List.map_map]
    rfl
  rw [userID_seated, ← hids]
  exact (shuffle.perm _).map _

theorem mem_botIDs {id : Option ℤ} :
    id ∈ botIDs k ↔ ∃ i : ℕ, i < k ∧ id = some (-((i : ℤ) + 1)) := by
  simp [botIDs, eq_comm]

theorem nodup_botIDs (k : ℕ) : (botIDs k).Nodup := by
  refine List.Nodup.map (fun i j hij => ?_) List.nodup_range
  have hneg := Option.some.inj hij
  omega

theorem countP_botIDs (k : ℕ) : (botIDs k).countP (fun id => id.any (· < 0)) = k := by
  rw [List.countP_eq_length.mpr, botIDs, List.length_map, List.length_range]
  intro id hid
  obtain ⟨i, -, rfl⟩ := mem_botIDs.mp hid
  simp
  omega

theorem countP_humans : (ids.map some).countP (fun id => id.any (· < 0)) = 0 ↔
    ∀ id ∈ ids, 0 ≤ id := by
  simp [List.countP_eq_zero]

theorem wellSeated_iff (hplayers : g.players = seated (shuffle.shuffle (lineUp usernames ids k)))
    (hcount : 2 ≤ ids.length + k ∧ ids.length + k ≤ 4) (hnodup : ids.Nodup)
    (hzero : ∀ id ∈ ids, id ≠ 0) : WellSeated k g ↔ ∀ id ∈ ids, 0 < id := by
  have hperm := perm_userIDs shuffle usernames ids k
  rw [← hplayers] at hperm
  have hbots : (g.players.countP fun p => p.userID.any (· < 0)) =
      (ids.map some).countP (fun id => id.any (· < 0)) + k := by
    have hmap : (g.players.map (·.userID)).countP (fun id => id.any (· < 0)) =
        g.players.countP fun p => p.userID.any (· < 0) := List.countP_map
    rw [← hmap, hperm.countP_eq, List.countP_append, countP_botIDs]
  constructor
  · intro h id hid
    have hnone : (ids.map some).countP (fun id => id.any (· < 0)) = 0 := by
      have := h.bots
      omega
    have hle := countP_humans.mp hnone id hid
    have hne := hzero id hid
    omega
  · intro hpos
    have hlength := hperm.length_eq
    simp only [List.length_map, List.length_append, botIDs, List.length_range] at hlength
    constructor
    · omega
    · rw [hplayers]
      exact seated_seated _
    · intro p hp
      have hmem := hperm.subset (List.mem_map_of_mem hp)
      rcases List.mem_append.mp hmem with hhuman | hbot
      · obtain ⟨id, -, hid⟩ := List.mem_map.mp hhuman
        simp [← hid]
      · obtain ⟨i, -, hi⟩ := mem_botIDs.mp hbot
        simp [hi]
    · refine hperm.nodup_iff.mpr (List.nodup_append.mpr ⟨?_, nodup_botIDs k, ?_⟩)
      · exact hnodup.map fun a b hab => Option.some.inj hab
      · rintro a ha b hb rfl
        obtain ⟨id, hid, rfl⟩ := List.mem_map.mp ha
        obtain ⟨i, -, hi⟩ := mem_botIDs.mp hb
        have hlt := hpos id hid
        have heq := Option.some.inj hi
        omega
    · rw [hbots, countP_humans.mpr fun id hid => (hpos id hid).le, Nat.zero_add]

end Seats

theorem seatOf_of_distinct (hseat : Seated g.players)
    (hdistinct : (g.players.map (·.userID)).Nodup) {i : ℕ} {p : Player} {id : ℤ}
    (hp : g.players[i]? = some p) (hid : p.userID = some id) : g.seatOf id = some i := by
  obtain ⟨hi, rfl⟩ := List.getElem?_eq_some_iff.mp hp
  have hfirst : g.players.find? (fun p => p.userID = some id) = some g.players[i] := by
    rw [List.find?_eq_some_iff_getElem]
    refine ⟨by simpa using hid, i, hi, rfl, fun j hj => ?_⟩
    have hne : g.players[j].userID ≠ g.players[i].userID := by
      intro heq
      have hlen : (g.players.map (·.userID)).length = g.players.length := List.length_map _
      have hsame : (g.players.map (·.userID)).get ⟨j, by omega⟩ =
          (g.players.map (·.userID)).get ⟨i, by omega⟩ := by simpa using heq
      have hindex := congrArg Fin.val (hdistinct.get_inj_iff.mp hsame)
      simp only at hindex
      omega
    simpa [hid] using hne
  rw [Game.seatOf, hfirst]
  exact congrArg some (hseat ⟨i, hi⟩).1

def seatStep (seats : ℤ → Option ℤ) (p : Player) : ℤ → Option ℤ :=
  match p.userID with
  | some userID => Function.update seats userID (some p.turnOrder)
  | none => seats

theorem foldl_seatStep_of_not_mem {players : List Player} {id : ℤ}
    (h : some id ∉ players.map (·.userID)) (seats : ℤ → Option ℤ) :
    players.foldl seatStep seats id = seats id := by
  induction players generalizing seats with
  | nil => rfl
  | cons p players ih =>
    rw [List.map_cons, List.mem_cons, not_or] at h
    rw [List.foldl_cons, ih h.2, seatStep]
    cases huser : p.userID with
    | none => rfl
    | some userID => exact Function.update_of_ne (fun heq => h.1 (by rw [huser, heq])) _ _

theorem seats_of_distinct {players : List Player} (hdistinct : (players.map (·.userID)).Nodup)
    {p : Player} {id : ℤ} (hp : p ∈ players) (hid : p.userID = some id) :
    GameTimer.seats players id = some p.turnOrder := by
  change players.foldl seatStep _ id = _
  generalize (fun _ => none : ℤ → Option ℤ) = seats
  induction players generalizing seats with
  | nil => cases hp
  | cons q players ih =>
    obtain ⟨hq, hrest⟩ := List.nodup_cons.mp hdistinct
    rw [List.foldl_cons]
    rcases List.mem_cons.mp hp with rfl | hp
    · have hnew : some id ∉ players.map (·.userID) := by simpa only [hid] using hq
      rw [foldl_seatStep_of_not_mem hnew, seatStep, hid]
      exact Function.update_self ..
    · exact ih hrest hp _

theorem WellSeated.found (h : WellSeated numBots g) : SeatsFound g where
  seatOf i p id hp hid := seatOf_of_distinct h.seated h.distinct hp hid
  timer i p id hp hid := by
    rw [seats_of_distinct h.distinct (List.mem_of_getElem? hp) hid]
    obtain ⟨hi, rfl⟩ := List.getElem?_eq_some_iff.mp hp
    exact congrArg some (h.seated ⟨i, hi⟩).1

theorem newGame_players {now : Time} {gameID : Option ℤ} {boardSize : ℤ} {players : List Player}
    (h : Game.newGame now gameID boardSize players = some g) : g.players = players := by
  rw [newGame_eq] at h
  obtain ⟨grid, -, rfl⟩ := Option.map_eq_some_iff.mp h
  rfl

theorem createGame_nodup {now : Time} {shuffle : Shuffle} {usernames : ℤ → String}
    {playerIDs : List ℤ} {boardSize : ℤ}
    (h : s.createGame db now shuffle usernames playerIDs boardSize = some (s', .ok g)) :
    playerIDs.Nodup := by
  unfold Server.createGame at h
  split_ifs at h
  · simp at h
  · simp at h
  · split at h
    case h_1 => simp at h
    case h_2 hnone => exact (firstDuplicate_eq_none.mp hnone).1

theorem GameHandler.createBotGame_eq_ok {now : Time} {shuffle : Shuffle} {usernames : ℤ → String}
    {humanPlayerID boardSize numBots : ℤ}
    (h : GameHandler.createBotGame now shuffle usernames humanPlayerID boardSize numBots s =
      some (s', .ok g)) :
    humanPlayerID ≠ 0 ∧ (0 < numBots ∧ numBots ≤ 3) ∧
      s.createBotGame now shuffle usernames [humanPlayerID] numBots boardSize = some (s', .ok g) := by
  unfold GameHandler.createBotGame at h
  split_ifs at h with hhuman hsize hbots
  · simp at h
  · simp at h
  · simp at h
  · obtain ⟨⟨s₁, result⟩, hcreate, heq⟩ := Option.map_eq_some_iff.mp h
    obtain ⟨rfl, hresult⟩ := Prod.mk.inj heq
    cases result with
    | error e => cases hresult
    | ok g₁ =>
      obtain rfl := Except.ok.inj hresult
      exact ⟨hhuman, by omega, hcreate⟩

/-- The seats of a new game are told apart exactly when its request names users by positive ids,
and then every seat is found by its id. -/
theorem seats_told_apart_iff {users : Set ℤ} (husers : ∀ id ∈ users, 0 < id)
    {request : CreateRequest} (h : request.Accepted db users s s' g) :
    (WellSeated request.bots g ↔ ∀ id ∈ request.humans, 0 < id) ∧
    (WellSeated request.bots g → SeatsFound g) := by
  refine ⟨?_, WellSeated.found⟩
  cases h with
  | @createGame now shuffle usernames playerIDs boardSize _ _ _ hcreate hstored =>
    obtain ⟨g₀, rows, -, hcount, hnew, hrows, -⟩ := createGame_eq_ok hcreate
    obtain ⟨-, rfl, -⟩ := Database.create_eq_ok hrows
    have hplayers := newGame_players hnew
    have hline : playerIDs.map (humanPlayer usernames) = lineUp usernames playerIDs 0 := by
      simp [lineUp]
    rw [hline] at hplayers
    exact wellSeated_iff hplayers hcount (createGame_nodup hcreate)
      fun id hid => (husers id (hstored id hid)).ne'
  | @createBotGame now shuffle usernames humanPlayerID boardSize numBots _ _ _ hcreate =>
    obtain ⟨hzero, hbots, hcreate⟩ := GameHandler.createBotGame_eq_ok hcreate
    obtain ⟨-, -, hnew, -⟩ := createBotGame_eq_ok hcreate
    obtain ⟨k, rfl⟩ := Int.eq_ofNat_of_zero_le hbots.1.le
    have hplayers := newGame_players hnew
    have hids : ∀ id ∈ [humanPlayerID], id ≠ 0 := by simpa using hzero
    have hcount : 2 ≤ [humanPlayerID].length + k ∧ [humanPlayerID].length + k ≤ 4 := by
      simp only [List.length_singleton]
      omega
    exact wellSeated_iff hplayers hcount (List.nodup_singleton _) hids

theorem seats_told_apart_iff_bot : ∃ s g,
    CreateRequest.Accepted .byInsertion {7} (.createBotGame 7 5 1) (.boot 1 fun _ => []) s g ∧
      WellSeated 1 g := by
  obtain ⟨s, g, hcreate⟩ : ∃ s g, GameHandler.createBotGame 0 .keep (fun _ => "") 7 5 1
      (.boot 1 fun _ => []) = some (s, .ok g) := ⟨_, _, rfl⟩
  have haccepted : CreateRequest.Accepted .byInsertion {7} (.createBotGame 7 5 1) _ s g :=
    .createBotGame hcreate
  exact ⟨s, g, haccepted, (seats_told_apart_iff (by simp) haccepted).1.mpr (by
    simp [CreateRequest.humans])⟩

/-- A user with the id of a bot is accepted, and then two seats have one id. -/
theorem user_takes_id_of_bot : ∃ s g,
    CreateRequest.Accepted .byInsertion {7} (.createBotGame (-1) 5 1) (.boot 1 fun _ => []) s g ∧
      g.players.map (·.userID) = [some (-1), some (-1)] ∧ ¬ WellSeated 1 g := by
  obtain ⟨s, g, hcreate, hids⟩ : ∃ s g, GameHandler.createBotGame 0 .keep (fun _ => "") (-1) 5 1
      (.boot 1 fun _ => []) = some (s, .ok g) ∧
        g.players.map (·.userID) = [some (-1), some (-1)] := ⟨_, _, rfl, rfl⟩
  refine ⟨s, g, .createBotGame hcreate, hids, fun h => ?_⟩
  have hdistinct := h.distinct
  rw [hids] at hdistinct
  simp at hdistinct

end DotsAndBoxes
