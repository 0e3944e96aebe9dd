import DotsAndBoxes.Game.Replay
import DotsAndBoxes.Service.Server
import Mathlib.Logic.Relation

/-! # Game ids

Persisted games take their ids from the identity column, which starts at one, and bot
games from a counter of the process, which starts at ten thousand. The two families
of ids stay apart until the identity column reaches the counter, and from then on an
operation on a persisted game reaches the bot game that has the same id.
-/

namespace DotsAndBoxes

open Serial

/-- A creation that has kept its game and has not yet started its timer. -/
inductive Starting where
  | persisted (g : Game)
  | bot (gameID : ℤ)

/-- The game of a creation. A bot game is the one in memory, which may have moved on. -/
def Starting.game (s : Server) : Starting → Option Game
  | .persisted g => some g
  | .bot gameID => s.bots.botGames gameID

def Server.startTimer (now : Time) (c : Starting) (s : Server) : Server :=
  match c.game s with
  | none => s
  | some g =>
    match g.gameID with
    | none => s
    | some id => { s with timers := s.timers.startTimer now id g.players g.currentTurn }

/-- The server with the creations that are under way. -/
structure Process where
  server : Server
  starting : List Starting

namespace Process

variable {db : Database}

inductive Operates (db : Database) : Server → Server → Prop where
  | request {s s' : Server} {gameID : ℤ} {q : Request} {r : Except ServiceError Game} :
      s.request db gameID q = some (s', r) → Operates db s s'
  | playBotTurn {s s' : Server} {chance : Chance} {now : Time} {gameID : ℤ} :
      s.playBotTurn chance now gameID = some s' → Operates db s s'
  | handleDisconnect (s : Server) (now : Time) (userID : ℤ) :
      Operates db s { s with timers := s.timers.handleDisconnect now userID }
  | handleReconnect (s : Server) (userID : ℤ) :
      Operates db s { s with timers := s.timers.handleReconnect userID }
  | handleDisconnectTimeout {s s' : Server} {now : Time} {gameID userID : ℤ} :
      s.handleDisconnectTimeout db now gameID userID = some s' → Operates db s s'

/-- One step of the process. A creation keeps its game in one step and starts its timer in
another, and the steps of creations and operations interleave. -/
inductive Step (db : Database) : Process → Process → Prop where
  | createGame {p : Process} {now : Time} {shuffle : Shuffle} {usernames : ℤ → String}
      {playerIDs : List ℤ} {boardSize : ℤ} {s' : Server} {g : Game} :
      p.server.createGame db now shuffle usernames playerIDs boardSize = some (s', .ok g) →
      Step db p ⟨s', p.starting ++ [.persisted g]⟩
  | createBotGame {p : Process} {now : Time} {shuffle : Shuffle} {usernames : ℤ → String}
      {playerIDs : List ℤ} {numBots boardSize gameID : ℤ} {s' : Server} {g : Game} :
      p.server.createBotGame now shuffle usernames playerIDs numBots boardSize = some (s', .ok g) →
      g.gameID = some gameID → Step db p ⟨s', p.starting ++ [.bot gameID]⟩
  | startTimer {p : Process} {before after : List Starting} {c : Starting} (now : Time) :
      p.starting = before ++ c :: after →
      Step db p ⟨p.server.startTimer now c, before ++ after⟩
  | operate {p : Process} {s' : Server} : Operates db p.server s' → Step db p ⟨s', p.starting⟩

def Reachable (db : Database) (p : Process) : Prop :=
  ∃ identity events,
    Relation.ReflTransGen (Step db) ⟨.boot identity events, []⟩ p

end Process

/-- No game and no timer is new, and every bot game has the id it had. -/
structure Server.SameGames (s s' : Server) : Prop where
  identity : s'.identity = s.identity
  nextID : s'.bots.nextID = s.bots.nextID
  ids : ∀ gameID, (s'.bots.botGames gameID).map (·.gameID) =
    (s.bots.botGames gameID).map (·.gameID)
  quiets : s.timers.Quiets s'.timers

namespace Server

variable {db : Database} {s s' s'' : Server} {gameID : ℤ} {now : Time}

theorem SameGames.refl (s : Server) : s.SameGames s := ⟨rfl, rfl, fun _ => rfl, .refl _⟩

theorem SameGames.trans (h : s.SameGames s') (h' : s'.SameGames s'') : s.SameGames s'' :=
  ⟨h'.identity.trans h.identity, h'.nextID.trans h.nextID,
    fun id => (h'.ids id).trans (h.ids id), h.quiets.trans h'.quiets⟩

theorem sameGames_timers {t : GameTimerService} (h : s.timers.Quiets t) :
    s.SameGames { s with timers := t } := ⟨rfl, rfl, fun _ => rfl, h⟩

theorem sameGames_keep {g g' : Game} (hg : s.bots.botGames gameID = some g)
    (hid : g'.gameID = g.gameID) : s.SameGames { s with bots := s.bots.keep gameID g' } := by
  refine ⟨rfl, rfl, fun id => ?_, .refl _⟩
  by_cases hne : id = gameID
  · subst hne
    simp [BotService.keep, hg, hid]
  · simp [BotService.keep, hne]

theorem sameGames_save {g g' : Game} (hget : s.getGame db gameID = some (.ok (some g)))
    (hid : g'.gameID = g.gameID) : s.SameGames (s.save db gameID g').1 := by
  cases hbot : s.bots.isBotGame gameID with
  | false =>
    rw [save_of_stored hbot]
    exact ⟨rfl, rfl, fun _ => rfl, .refl _⟩
  | true =>
    obtain ⟨g₀, hg₀⟩ := Option.isSome_iff_exists.mp hbot
    rw [getGame, hg₀] at hget
    obtain rfl := Option.some.inj (Except.ok.inj (Option.some.inj hget))
    rw [save_of_bot hbot]
    exact sameGames_keep hg₀ hid

theorem sameGames_request {q : Request} {r : Except ServiceError Game}
    (h : s.request db gameID q = some (s', r)) : s.SameGames s' := by
  rcases request_eq_some h with ⟨rfl, -⟩ | ⟨g, g', timers, hget, hplayed, rfl, -⟩
  · exact .refl s'
  · have hsave := sameGames_save hget hplayed.raises.gameID
    exact ⟨hsave.identity, hsave.nextID, hsave.ids, hplayed.quiets⟩

theorem sameGames_playBotTurn {chance : Chance}
    (h : s.playBotTurn chance now gameID = some s') : s.SameGames s' := by
  rcases playBotTurn_eq_some h with ⟨rfl, -⟩ | ⟨g, g', hgame, -, hplayed, rfl⟩
  · exact .refl s'
  · exact sameGames_keep hgame hplayed.sameID

theorem sameGames_handleDisconnectTimeout {userID : ℤ}
    (h : s.handleDisconnectTimeout db now gameID userID = some s') : s.SameGames s' := by
  obtain ⟨⟨s₁, r⟩, hforfeit, h⟩ := Option.bind_eq_some_iff.mp h
  obtain rfl := Option.some.inj h
  have hsame : s.SameGames s₁ := sameGames_request (q := .forfeitGame now userID) hforfeit
  exact hsame.trans (sameGames_timers (GameTimerService.quiets_stopTimer gameID _))

theorem sameGames_of_operates (h : Process.Operates db s s') : s.SameGames s' := by
  cases h with
  | request h => exact sameGames_request h
  | playBotTurn h => exact sameGames_playBotTurn h
  | handleDisconnect now userID =>
    apply sameGames_timers
    intro id hid
    simp [GameTimerService.handleDisconnect, hid]
  | handleReconnect userID =>
    apply sameGames_timers
    intro id hid
    simp [GameTimerService.handleReconnect, hid]
  | handleDisconnectTimeout h => exact sameGames_handleDisconnectTimeout h

end Server

def Starting.id : Starting → Option ℤ
  | .persisted g => g.gameID
  | .bot gameID => some gameID

/-- The ids that the counter of the bot service has handed out. -/
def BotService.handedOut (b : BotService) (gameID : ℤ) : Prop := 10000 ≤ gameID ∧ gameID < b.nextID

instance (b : BotService) (gameID : ℤ) : Decidable (b.handedOut gameID) :=
  inferInstanceAs (Decidable (_ ∧ _))

namespace Process

variable {db : Database} {p p' : Process}

/-- The bot games are those whose ids the counter has handed out, and a creation that is under
way has an id that its counter has handed out. -/
structure Numbered (p : Process) : Prop where
  nextID : 10000 ≤ p.server.bots.nextID
  bots : ∀ id, (p.server.bots.botGames id).map (·.gameID) =
    if p.server.bots.handedOut id then some (some id) else none
  persisted : ∀ g, .persisted g ∈ p.starting → ∃ id, g.gameID = some id ∧ id < p.server.identity
  bot : ∀ id, .bot id ∈ p.starting → p.server.bots.handedOut id

theorem Numbered.isBotGame (h : p.Numbered) (id : ℤ) :
    p.server.bots.isBotGame id = true ↔ p.server.bots.handedOut id := by
  rw [BotService.isBotGame, ← Option.isSome_map (f := (·.gameID)), h.bots]
  split_ifs with hid <;> simp [hid]

theorem Numbered.game (h : p.Numbered) {c : Starting} (hc : c ∈ p.starting) :
    ∃ g id, c.game p.server = some g ∧ g.gameID = some id ∧ c.id = some id := by
  cases c with
  | persisted g =>
    obtain ⟨id, hid, -⟩ := h.persisted g hc
    exact ⟨g, id, rfl, hid, hid⟩
  | bot id =>
    have hbot := h.bots id
    rw [if_pos (h.bot id hc)] at hbot
    obtain ⟨g, hg, hid⟩ := Option.map_eq_some_iff.mp hbot
    exact ⟨g, id, hg, hid, rfl⟩

theorem startTimer_eq {s : Server} {c : Starting} {g : Game} {id : ℤ} (hg : c.game s = some g)
    (hid : g.gameID = some id) (now : Time) : s.startTimer now c =
      { s with timers := s.timers.startTimer now id g.players g.currentTurn } := by
  simp only [Server.startTimer, hg, hid]

theorem numbered_boot (identity : ℤ) (events : ℤ → List EventRow) :
    Numbered ⟨.boot identity events, []⟩ := by
  refine ⟨le_rfl, fun id => ?_, by simp, by simp⟩
  rw [if_neg (by simp [BotService.handedOut, Server.boot])]
  rfl

theorem mem_starting_of_split {before after : List Starting} {c d : Starting}
    (hsplit : p.starting = before ++ c :: after) (hd : d ∈ before ++ after) : d ∈ p.starting := by
  rw [hsplit]
  exact ((List.sublist_cons_self c after).append_left before).subset hd

theorem Numbered.step (h : p.Numbered) (hstep : Step db p p') : p'.Numbered := by
  cases hstep with
  | createGame hcreate =>
    obtain ⟨g₀, rows, -, -, -, hrows, rfl⟩ := Server.createGame_eq_ok hcreate
    have hid := Server.create_gameID hrows
    constructor
    · exact h.nextID
    · exact h.bots
    · intro g hg
      rcases List.mem_append.mp hg with hg | hg
      · obtain ⟨id, hgid, hlt⟩ := h.persisted g hg
        exact ⟨id, hgid, hlt.trans (lt_add_one _)⟩
      · obtain rfl := Starting.persisted.inj (List.mem_singleton.mp hg)
        exact ⟨_, hid, lt_add_one _⟩
    · intro id hc
      rcases List.mem_append.mp hc with hc | hc
      · exact h.bot id hc
      · cases List.mem_singleton.mp hc
  | @createBotGame now shuffle usernames playerIDs numBots boardSize gameID s' g hcreate hg =>
    obtain ⟨-, -, hnew, rfl⟩ := Server.createBotGame_eq_ok hcreate
    have hid := Server.newGame_gameID hnew
    obtain rfl := Option.some.inj (hg.symm.trans hid)
    have hnext := h.nextID
    constructor
    · dsimp only
      omega
    · intro id
      by_cases heq : id = p.server.bots.nextID
      · subst heq
        simp [BotService.keep, BotService.handedOut, hid, hnext]
      · have hiff : (id < p.server.bots.nextID + 1) ↔ id < p.server.bots.nextID := by omega
        simp only [BotService.keep, BotService.handedOut, Function.update_of_ne heq, hiff]
        exact h.bots id
    · intro g' hc
      rcases List.mem_append.mp hc with hc | hc
      · exact h.persisted g' hc
      · cases List.mem_singleton.mp hc
    · intro id hc
      rcases List.mem_append.mp hc with hc | hc
      · exact ⟨(h.bot id hc).1, (h.bot id hc).2.trans (lt_add_one _)⟩
      · obtain rfl := Starting.bot.inj (List.mem_singleton.mp hc)
        exact ⟨hnext, lt_add_one _⟩
  | @startTimer before after c now hsplit =>
    have hc : c ∈ p.starting := by simp [hsplit]
    obtain ⟨g, id, hg, hid, -⟩ := h.game hc
    rw [startTimer_eq hg hid]
    constructor
    · exact h.nextID
    · exact h.bots
    · exact fun g' hd => h.persisted g' (mem_starting_of_split hsplit hd)
    · exact fun id' hd => h.bot id' (mem_starting_of_split hsplit hd)
  | @operate s' hop =>
    have hsame := Server.sameGames_of_operates hop
    have hhanded (id : ℤ) : s'.bots.handedOut id ↔ p.server.bots.handedOut id := by
      rw [BotService.handedOut, hsame.nextID]
      rfl
    constructor
    · exact hsame.nextID ▸ h.nextID
    · intro id
      rw [hsame.ids, h.bots]
      exact if_congr (hhanded id).symm rfl rfl
    · rw [hsame.identity]
      exact h.persisted
    · exact fun id hc => (hhanded id).mpr (h.bot id hc)

/-- The counters have handed out no id in common. -/
def Apart (p : Process) : Prop :=
  p.server.bots.nextID = 10000 ∨ p.server.identity ≤ 10000

/-- Every creation that is under way has an id of its own, for which no timer is registered. -/
structure Owned (p : Process) : Prop where
  distinct : (p.starting.map Starting.id).Nodup
  free : ∀ c ∈ p.starting, ∀ id, c.id = some id → p.server.timers.timers id = none
  registered : ∀ id, p.server.timers.timers id ≠ none →
    id < p.server.identity ∨ p.server.bots.handedOut id

theorem owned_boot (identity : ℤ) (events : ℤ → List EventRow) :
    Owned ⟨.boot identity events, []⟩ := ⟨by simp, by simp, by simp [Server.boot]⟩

theorem Apart.of_step (hn : p.Numbered) (h : p'.Apart) (hstep : Step db p p') : p.Apart := by
  have hnext := hn.nextID
  cases hstep with
  | createGame hcreate =>
    obtain ⟨g₀, rows, -, -, -, -, rfl⟩ := Server.createGame_eq_ok hcreate
    simp only [Apart] at h ⊢
    omega
  | createBotGame hcreate hg =>
    obtain ⟨-, -, -, rfl⟩ := Server.createBotGame_eq_ok hcreate
    simp only [Apart] at h ⊢
    omega
  | @startTimer before after c now hsplit =>
    obtain ⟨g, id, hg, hid, -⟩ := hn.game (c := c) (by simp [hsplit])
    rw [startTimer_eq hg hid] at h
    exact h
  | operate hop =>
    have hsame := Server.sameGames_of_operates hop
    simp only [Apart, hsame.nextID, hsame.identity] at h ⊢
    exact h

/-- A creation that is under way has an id below the identity column or one of a bot game. -/
theorem Numbered.id_lt_or_handedOut (hn : p.Numbered) {c : Starting} (hc : c ∈ p.starting) {id : ℤ}
    (hid : c.id = some id) : id < p.server.identity ∨ p.server.bots.handedOut id := by
  cases c with
  | persisted g =>
    obtain ⟨id', hg, hlt⟩ := hn.persisted g hc
    obtain rfl := Option.some.inj (hg.symm.trans hid)
    exact .inl hlt
  | bot id' =>
    obtain rfl := Option.some.inj hid
    exact .inr (hn.bot id' hc)

theorem Owned.append (h : p.Owned) (hn : p.Numbered) {c : Starting} {id : ℤ}
    (hid : c.id = some id) (hfresh : ¬ (id < p.server.identity ∨ p.server.bots.handedOut id))
    {s' : Server} (htimers : s'.timers = p.server.timers)
    (hgrow : ∀ id, id < p.server.identity ∨ p.server.bots.handedOut id →
      id < s'.identity ∨ s'.bots.handedOut id) :
    Owned ⟨s', p.starting ++ [c]⟩ := by
  have hnone : p.server.timers.timers id = none := by
    by_contra hsome
    exact hfresh (h.registered id hsome)
  refine ⟨?_, fun d hd id' hid' => ?_, fun id' hsome => ?_⟩
  · rw [List.map_append, List.map_singleton, List.nodup_append_comm, List.singleton_append,
      List.nodup_cons]
    refine ⟨fun hmem => ?_, h.distinct⟩
    obtain ⟨d, hd, heq⟩ := List.mem_map.mp hmem
    exact hfresh (hn.id_lt_or_handedOut hd (heq.trans hid))
  · rw [htimers]
    rcases List.mem_append.mp hd with hd | hd
    · exact h.free d hd id' hid'
    · obtain rfl := List.mem_singleton.mp hd
      obtain rfl := Option.some.inj (hid.symm.trans hid')
      exact hnone
  · rw [htimers] at hsome
    exact hgrow id' (h.registered id' hsome)

theorem Owned.step (h : p.Owned) (hn : p.Numbered) (hapart : p'.Apart) (hstep : Step db p p') :
    p'.Owned := by
  have hnext := hn.nextID
  cases hstep with
  | createGame hcreate =>
    obtain ⟨g₀, rows, -, -, -, hrows, rfl⟩ := Server.createGame_eq_ok hcreate
    have hid := Server.create_gameID hrows
    refine h.append hn (c := .persisted _) hid ?_ rfl fun id hgrow => hgrow.imp_left fun hlt => ?_
    · simp only [Apart, BotService.handedOut] at hapart ⊢
      omega
    · exact hlt.trans (lt_add_one _)
  | @createBotGame now shuffle usernames playerIDs numBots boardSize gameID s' g hcreate hg =>
    obtain ⟨-, -, hnew, rfl⟩ := Server.createBotGame_eq_ok hcreate
    have hid := Server.newGame_gameID hnew
    obtain rfl := Option.some.inj (hg.symm.trans hid)
    refine h.append hn (c := .bot _) rfl ?_ rfl fun id hgrow => hgrow.imp_right fun hlt => ?_
    · simp only [Apart, BotService.handedOut] at hapart ⊢
      omega
    · exact ⟨hlt.1, hlt.2.trans (lt_add_one _)⟩
  | @startTimer before after c now hsplit =>
    have hc : c ∈ p.starting := by simp [hsplit]
    obtain ⟨g, id, hg, hid, hcid⟩ := hn.game hc
    rw [startTimer_eq hg hid, GameTimerService.startTimer_of_none (h.free c hc id hcid)]
    have hdistinct := h.distinct
    rw [hsplit, List.map_append, List.map_cons, List.nodup_middle, List.nodup_cons,
      ← List.map_append] at hdistinct
    constructor
    · exact hdistinct.2
    · intro d hd id' hid'
      have hne : id' ≠ id := by
        rintro rfl
        exact hdistinct.1 (List.mem_map.mpr ⟨d, hd, hid'.trans hcid.symm⟩)
      simpa [hne] using h.free d (mem_starting_of_split hsplit hd) id' hid'
    · intro id' hsome
      by_cases heq : id' = id
      · subst heq
        exact hn.id_lt_or_handedOut hc hcid
      · exact h.registered id' (by simpa [heq] using hsome)
  | operate hop =>
    have hsame := Server.sameGames_of_operates hop
    constructor
    · exact h.distinct
    · exact fun c hc id hid => hsame.quiets id (h.free c hc id hid)
    · intro id hsome
      rw [BotService.handedOut, hsame.identity, hsame.nextID]
      exact h.registered id fun hnone => hsome (hsame.quiets id hnone)

theorem Reachable.numbered (h : Reachable db p) : p.Numbered := by
  obtain ⟨identity, events, hsteps⟩ := h
  induction hsteps with
  | refl => exact numbered_boot identity events
  | tail _ hstep ih => exact ih.step hstep

theorem Reachable.owned (h : Reachable db p) (hapart : p.Apart) : p.Owned := by
  obtain ⟨identity, events, hsteps⟩ := h
  induction hsteps with
  | refl => exact owned_boot identity events
  | tail hbefore hstep ih =>
    have hn := Reachable.numbered ⟨identity, events, hbefore⟩
    exact (ih (hapart.of_step hn hstep)).step hn hapart hstep

end Process

/-- Every operation on the id reaches the persisted game, and none a bot game: it loads the
stored events of the id, and a request appends to them as its program does. -/
structure ResolvesToPersisted (db : Database) (s : Server) (gameID : ℤ) : Prop where
  notBot : s.bots.isBotGame gameID = false
  getGame : s.getGame db gameID = db.findByID gameID (s.events gameID)
  request : ∀ q s' r, s.request db gameID q = some (s', r) →
    (q.program db gameID).run (s.events gameID) = (s'.events gameID, some r) ∧
      s'.bots = s.bots ∧ ∀ other, other ≠ gameID → s'.events other = s.events other

theorem resolvesToPersisted_of_notBot {db : Database} {s : Server} {gameID : ℤ}
    (h : s.bots.isBotGame gameID = false) : ResolvesToPersisted db s gameID := by
  refine ⟨h, ?_, fun q s' r hq => ?_⟩
  · have hnone : s.bots.botGames gameID = none := by simpa [BotService.isBotGame] using h
    rw [Server.getGame, hnone]
  cases q with
  | makeMove now playerID row col edge =>
    change s.makeMove db now gameID playerID row col edge = _ at hq
    rw [Server.makeMove] at hq
    rw [Request.program]
    cases hedge : parseEdge edge with
    | error e =>
      rw [hedge] at hq
      obtain ⟨rfl, rfl⟩ := Prod.mk.inj (Option.some.inj hq)
      exact ⟨rfl, rfl, fun _ _ => rfl⟩
    | ok edge =>
      rw [hedge, h] at hq
      refine Server.transact_stored h (fun g x hx => ?_) hq
      have hplain (g : Game) : g.makeMoveRequest false now playerID row col edge =
          g.makeMove now playerID row col edge := by
        simp [Game.makeMoveRequest]
      obtain ⟨e, hmove, rfl⟩ | ⟨g', result, t, hmove, -, rfl⟩ := Server.followed_eq_some hx
      · rw [hplain] at hmove
        rw [hmove]
        rfl
      · rw [hplain] at hmove
        rw [hmove]
        rfl
  | passTurnOnTimeout now =>
    refine Server.transact_stored h (fun g x hx => ?_) hq
    obtain ⟨e, hpass, rfl⟩ | ⟨g', result, t, hpass, -, rfl⟩ := Server.followed_eq_some hx
    · rw [hpass]
      rfl
    · rw [hpass]
      rfl
  | forfeitGame now playerID =>
    refine Server.transact_stored h (fun g x hx => ?_) hq
    obtain ⟨e, hforfeit, rfl⟩ | ⟨g', id, hforfeit, -, rfl⟩ := Server.forfeitAndStop_eq_some hx
    · rw [hforfeit]
      rfl
    · rw [hforfeit]
      rfl

/-- The creation that is under way is about to register a timer of its own game. -/
def OwnTimer (s : Server) (c : Starting) : Prop :=
  ∃ g id, c.game s = some g ∧ g.gameID = some id ∧ ∀ now,
    (s.startTimer now c).timers.timers id = some (.start now id g.players g.currentTurn)

/-- In a reachable process every id that the identity column has handed out denotes the
persisted game, and every creation gets its own timer, exactly as long as the process has
created no bot game or the identity column has not reached the ids of bot games. -/
theorem game_ids_denote_one_game {db : Database} {p : Process} (h : Process.Reachable db p) :
    ((∀ id, 1 ≤ id → id < p.server.identity → ResolvesToPersisted db p.server id) ∧
      ∀ c ∈ p.starting, OwnTimer p.server c) ↔
    p.server.bots.nextID = 10000 ∨ p.server.identity ≤ 10000 := by
  have hn := h.numbered
  have hnext := hn.nextID
  constructor
  · rintro ⟨hresolves, -⟩
    by_contra hmeet
    have hbot : p.server.bots.handedOut 10000 := by
      simp only [BotService.handedOut]
      omega
    have hnot := (hresolves 10000 (by omega) (by omega)).notBot
    rw [(hn.isBotGame 10000).mpr hbot] at hnot
    cases hnot
  · intro hapart
    constructor
    · intro id _ hlt
      apply resolvesToPersisted_of_notBot
      rw [Bool.eq_false_iff, Ne, hn.isBotGame, BotService.handedOut]
      omega
    · intro c hc
      obtain ⟨g, id, hg, hid, hcid⟩ := hn.game hc
      refine ⟨g, id, hg, hid, fun now => ?_⟩
      rw [Process.startTimer_eq hg hid,
        GameTimerService.startTimer_of_none ((h.owned hapart).free c hc id hcid)]
      simp

/-- The order the players are already in. -/
def Shuffle.keep : Shuffle := ⟨id, fun _ => .refl _⟩

theorem exists_step_createGame (db : Database) (p : Process) : ∃ p', Process.Step db p p' ∧
    p'.server.identity = p.server.identity + 1 ∧ p'.server.bots = p.server.bots := by
  obtain ⟨s', g, hcreate⟩ : ∃ s' g, p.server.createGame db 0 .keep (fun _ => "") [7, 8] 5 =
      some (s', .ok g) := ⟨_, _, rfl⟩
  obtain ⟨g₀, rows, -, -, -, -, rfl⟩ := Server.createGame_eq_ok hcreate
  exact ⟨_, .createGame hcreate, rfl, rfl⟩

theorem exists_run_createGame (db : Database) (k : ℕ) :
    ∃ p, Relation.ReflTransGen (Process.Step db) ⟨.boot 1 fun _ => [], []⟩ p ∧
      p.server.identity = k + 1 ∧ p.server.bots = (Server.boot 1 fun _ => []).bots := by
  induction k with
  | zero => exact ⟨_, .refl, rfl, rfl⟩
  | succ k ih =>
    obtain ⟨p, hrun, hidentity, hbots⟩ := ih
    obtain ⟨p', hstep, hidentity', hbots'⟩ := exists_step_createGame db p
    refine ⟨p', hrun.tail hstep, ?_, hbots'.trans hbots⟩
    rw [hidentity', hidentity]
    push_cast
    ring

/-- After ten thousand persisted games and one bot game, the last persisted game is out of
reach: its id denotes the bot game. -/
theorem ten_thousandth_game_denotes_bot_game :
    ∃ p, Process.Reachable .byInsertion p ∧ p.server.identity = 10001 ∧
      (∃ g, p.server.getGame .byInsertion 10000 = some (.ok (some g)) ∧
        g.players.map (·.userID) = [some 7, some (-1)]) ∧
      ¬ ResolvesToPersisted .byInsertion p.server 10000 := by
  obtain ⟨p, hrun, hidentity, hbots⟩ := exists_run_createGame .byInsertion 10000
  obtain ⟨s', g, hcreate, hplayers⟩ : ∃ s' g,
      p.server.createBotGame 0 .keep (fun _ => "") [7] 1 5 = some (s', .ok g) ∧
        g.players.map (·.userID) = [some 7, some (-1)] := ⟨_, _, rfl, rfl⟩
  obtain ⟨-, -, hnew, rfl⟩ := Server.createBotGame_eq_ok hcreate
  have hid := Server.newGame_gameID hnew
  have hnext : p.server.bots.nextID = 10000 := by rw [hbots]; rfl
  rw [hnext] at hid hcreate
  refine ⟨_, ⟨1, fun _ => [], hrun.tail (.createBotGame hcreate hid)⟩, hidentity,
    ⟨g, by simp [Server.getGame, BotService.keep], hplayers⟩, fun hresolves => ?_⟩
  have hnot := hresolves.notBot
  simp [BotService.isBotGame, BotService.keep] at hnot

theorem game_ids_denote_one_game_first : ∃ p : Process, p.server.identity = 2 ∧
    ResolvesToPersisted .byInsertion p.server 1 ∧ ∀ c ∈ p.starting, OwnTimer p.server c := by
  obtain ⟨p, hrun, hidentity, hbots⟩ := exists_run_createGame .byInsertion 1
  have h := (game_ids_denote_one_game ⟨1, _, hrun⟩).mpr (.inl (by rw [hbots]; rfl))
  exact ⟨p, hidentity, h.1 1 le_rfl (by rw [hidentity]; decide), h.2⟩

end DotsAndBoxes
