import DotsAndBoxes.Service.Announcements

/-! # The metrics of games

The metrics take what is announced on `global:games` for the games that go on. While all games
are persisted and none is at fault, they are behind by what calls have still to announce, and
agree with the games when these rest.
-/

namespace DotsAndBoxes

open Runs Outstanding

structure Metrics where
  activeGames : ℤ
  totalMessages : ℤ
  deriving DecidableEq, Repr

namespace Metrics

def new : Metrics := ⟨0, 0⟩

def incrementGames (m : Metrics) : Metrics := { m with activeGames := m.activeGames + 1 }

def decrementGames (m : Metrics) : Metrics := { m with activeGames := m.activeGames - 1 }

def incrementMessages (m : Metrics) : Metrics := { m with totalMessages := m.totalMessages + 1 }

/-- An event on `global:games` of the type comes in. -/
def handleGameEvent (m : Metrics) (type : String) : Metrics :=
  match type with
  | "game_created" => m.incrementGames
  | "game_completed" => m.decrementGames
  | "game_updated" => m.incrementMessages
  | _ => m

def collect (feed : List String) : Metrics := feed.foldl handleGameEvent new

theorem collect_append (feed news : List String) :
    collect (feed ++ news) = news.foldl handleGameEvent (collect feed) :=
  List.foldl_append

theorem activeGames_handleGameEvent (m : Metrics) (type : String) :
    (m.handleGameEvent type).activeGames =
      m.activeGames + [type].count "game_created" - [type].count "game_completed" := by
  unfold handleGameEvent
  split
  · simp [incrementGames]
  · simp [decrementGames]
  · simp [incrementMessages]
  · next hcreated hcompleted _ =>
    rw [List.count_eq_zero_of_not_mem fun h => hcreated (List.mem_singleton.mp h).symm,
      List.count_eq_zero_of_not_mem fun h => hcompleted (List.mem_singleton.mp h).symm]
    simp

theorem activeGames_collect (feed : List String) :
    (collect feed).activeGames = feed.count "game_created" - feed.count "game_completed" := by
  induction feed using List.reverseRecOn with
  | nil => rfl
  | append_singleton feed type ih =>
    rw [collect_append, List.foldl_cons, List.foldl_nil, activeGames_handleGameEvent, ih]
    simp only [List.count_append, Nat.cast_add]
    omega

end Metrics

/-- The games that have been created, and what has been published about them on
`global:games`. -/
structure Site where
  games : List (ℤ × World)
  feed : List String

namespace Site

open World

def empty : Site := ⟨[], []⟩

inductive Act where
  | create (gameID : ℤ) (w : World)
  /-- A step of a game. -/
  | play (gameID : ℤ) (act : World.Act)

inductive Step (db : Database) : Site → Act → Site → Prop where
  | create {s : Site} {gameID : ℤ} {w : World} : gameID ∉ s.games.map Prod.fst →
      Created db gameID w → Step db s (.create gameID w) ⟨s.games ++ [(gameID, w)], s.feed⟩
  | play {before after : List (ℤ × World)} {feed news : List String} {gameID : ℤ} {w w' : World}
      {act : World.Act} : World.Step db gameID w act w' → w'.feed = w.feed ++ news →
      Step db ⟨before ++ (gameID, w) :: after, feed⟩ (.play gameID act)
        ⟨before ++ (gameID, w') :: after, feed ++ news⟩

/-- The metrics of a collector to which every event is delivered once. -/
def metrics (s : Site) : Metrics := .collect s.feed

def unfinished (s : Site) : ℕ := s.games.countP fun game => !game.2.store.ended

/-- How many events of the type the calls have still to publish. -/
noncomputable def due (s : Site) (type : String) : ℕ :=
  (s.games.map fun game => outstanding game.2.due type).sum

/-- Every game causes one announcement of its creation and one of its end, if it has ended, and
the metrics count the games that go on. -/
structure Accounted (s : Site) : Prop where
  games : ∀ game ∈ s.games, game.2.Accounted
  /-- The metrics differ from the games only by what is still to be published. -/
  active : s.metrics.activeGames + s.due "game_created" = s.unfinished + s.due "game_completed"
  /-- The metrics are never negative, however far the collector has come. -/
  nonneg : ∀ handled, handled <+: s.feed → 0 ≤ (Metrics.collect handled).activeGames
  /-- At rest each game is announced, its end exactly when it has ended, and the metrics are
  exact. -/
  rest : (∀ game ∈ s.games, game.2.Idle) → s.metrics.activeGames = s.unfinished ∧
    ∀ game ∈ s.games, game.2.feed =
      if game.2.store.ended then ["game_created", "game_completed"] else ["game_created"]

/-- A step after which the games are not accounted for any more. -/
inductive Fault (s : Site) : Act → Prop where
  /-- A bot game is created. -/
  | bot {gameID : ℤ} {w : World} : w.store.isBot = true → Fault s (.create gameID w)
  | play {gameID : ℤ} {w : World} {act : World.Act} : (gameID, w) ∈ s.games →
      AnnounceFault w act → Fault s (.play gameID act)

section Counting

variable {games : List (ℤ × World)} {feed : List String}

theorem created_counts (h : ∀ game ∈ games, game.2.Accounted) :
    (games.map fun game => game.2.feed.count "game_created").sum +
      (games.map fun game => outstanding game.2.due "game_created").sum = games.length := by
  induction games with
  | nil => rfl
  | cons game games ih =>
    have hfirst : game.2.feed.count "game_created" + outstanding game.2.due "game_created" = 1 :=
      (h game List.mem_cons_self).created
    have hrest := ih fun game hgame => h game (List.mem_cons_of_mem _ hgame)
    simp only [List.map_cons, List.sum_cons, List.length_cons]
    omega

theorem completed_counts (h : ∀ game ∈ games, game.2.Accounted) :
    (games.map fun game => game.2.feed.count "game_completed").sum +
      (games.map fun game => outstanding game.2.due "game_completed").sum +
      (games.countP fun game => !game.2.store.ended) = games.length := by
  induction games with
  | nil => rfl
  | cons game games ih =>
    have hfirst : game.2.feed.count "game_completed" + outstanding game.2.due "game_completed" =
        if game.2.store.ended then 1 else 0 :=
      (h game List.mem_cons_self).completed
    have hrest := ih fun game hgame => h game (List.mem_cons_of_mem _ hgame)
    simp only [List.map_cons, List.sum_cons, List.countP_cons, List.length_cons]
    cases hended : game.2.store.ended <;> simp only [hended, Bool.false_eq_true, if_true,
      if_false, Bool.not_true, Bool.not_false] at hfirst ⊢ <;> omega

def Merged (games : List (ℤ × World)) (feed : List String) : Prop :=
  ∀ type, feed.count type = (games.map fun game => game.2.feed.count type).sum

theorem activeGames_nonneg (h : ∀ game ∈ games, game.2.Accounted) (hmerged : Merged games feed) :
    0 ≤ (Metrics.collect feed).activeGames := by
  have hle : (games.map fun game => game.2.feed.count "game_completed").sum ≤
      (games.map fun game => game.2.feed.count "game_created").sum := by
    apply List.sum_le_sum
    intro game hgame
    rcases (h game hgame).feed with hfeed | hfeed | hfeed <;> simp [hfeed]
  rw [Metrics.activeGames_collect, hmerged, hmerged]
  omega

end Counting

variable {db : Database} {s s' : Site} {act : Act}

structure Sound (db : Database) (s : Site) : Prop where
  ids : (s.games.map Prod.fst).Nodup
  games : ∀ game ∈ s.games, ∃ n roster, 0 < roster.length ∧ Seated roster ∧
    game.2.Reported db game.1 roster n
  merged : Merged s.games s.feed
  nonneg : ∀ handled, handled <+: s.feed → 0 ≤ (Metrics.collect handled).activeGames

theorem sound_empty : empty.Sound db where
  ids := List.nodup_nil
  games := fun _ hgame => absurd hgame List.not_mem_nil
  merged := fun _ => rfl
  nonneg := by
    intro handled hhandled
    rw [List.prefix_nil.mp hhandled]
    exact le_rfl

theorem Sound.games_accounted (h : s.Sound db) : ∀ game ∈ s.games, game.2.Accounted := by
  intro game hgame
  obtain ⟨n, roster, -, -, hw⟩ := h.games game hgame
  exact hw.accounted

theorem Sound.accounted (h : s.Sound db) : s.Accounted := by
  have hgames := h.games_accounted
  have hactive : s.metrics.activeGames + s.due "game_created" =
      s.unfinished + s.due "game_completed" := by
    have hcreated := created_counts hgames
    have hcompleted := completed_counts hgames
    rw [metrics, Metrics.activeGames_collect, h.merged, h.merged, due, due, unfinished]
    omega
  refine ⟨hgames, hactive, h.nonneg, fun hidle => ⟨?_, ?_⟩⟩
  · have hnothing (type : String) : s.due type = 0 := by
      apply List.sum_eq_zero
      intro count hcount
      obtain ⟨game, hgame, rfl⟩ := List.mem_map.mp hcount
      exact outstanding_eq_zero (hidle game hgame).due_eq_nil type
    rw [hnothing, hnothing] at hactive
    simpa using hactive
  · intro game hgame
    exact (hgames game hgame).feed_of_idle (hidle game hgame)

theorem Sound.step (h : s.Sound db) (hstep : Step db s act s') (hfault : ¬ Fault s act) :
    s'.Sound db := by
  cases hstep with
  | @create s gameID w hfresh hcreated =>
    have hstored : w.store.isBot = false := by
      cases hbot : w.store.isBot with
      | false => rfl
      | true => exact absurd (.bot hbot) hfault
    constructor
    · rw [List.map_append, List.map_singleton]
      exact h.ids.append (List.nodup_singleton _) (List.disjoint_singleton.mpr hfresh)
    · intro game hgame
      rcases List.mem_append.mp hgame with hold | hnew
      · exact h.games game hold
      · obtain rfl := List.mem_singleton.mp hnew
        exact hcreated.reported hstored
    · intro type
      rw [h.merged type]
      simp [hcreated.feed]
    · exact h.nonneg
  | @play before after feed news gameID w w' act hstep hfeed =>
    have hmem : (gameID, w) ∈ before ++ (gameID, w) :: after := by simp
    obtain ⟨n, roster, hk, hseat, hw⟩ := h.games _ hmem
    have hw' := hw.step hk hseat hstep fun hact => hfault (.play hmem hact)
    have hgames : ∀ game ∈ before ++ (gameID, w') :: after, ∃ n roster, 0 < roster.length ∧
        Seated roster ∧ game.2.Reported db game.1 roster n := by
      intro game hgame
      rcases List.mem_append.mp hgame with hbefore | hrest
      · exact h.games game (List.mem_append_left _ hbefore)
      · rcases List.mem_cons.mp hrest with rfl | hafter
        · exact ⟨n, roster, hk, hseat, hw'⟩
        · exact h.games game (List.mem_append_right _ (List.mem_cons_of_mem _ hafter))
    have hmerged : Merged (before ++ (gameID, w') :: after) (feed ++ news) := by
      intro type
      have hbefore := h.merged type
      simp only [List.map_append, List.map_cons, List.sum_append, List.sum_cons] at hbefore ⊢
      rw [hfeed, List.count_append, List.count_append, hbefore]
      omega
    refine ⟨by simpa using h.ids, hgames, hmerged, ?_⟩
    intro handled hhandled
    rcases (hstep.announces hw.stored).prefix_cases hfeed hhandled with hold | rfl
    · exact h.nonneg handled hold
    · refine activeGames_nonneg (fun game hgame => ?_) hmerged
      obtain ⟨_, _, -, -, hw⟩ := hgames game hgame
      exact hw.accounted

theorem Sound.accounted_iff (h : s.Sound db) (hstep : Step db s act s') :
    s'.Accounted ↔ ¬ Fault s act := by
  constructor
  · intro haccounted hfault
    cases hstep with
    | @create s gameID w hfresh hcreated =>
      have hw : w.Accounted := haccounted.games (gameID, w) (by simp)
      have hstored := hcreated.accounted_iff.mp hw
      cases hfault with
      | bot hbot => simp [hbot] at hstored
    | @play before after feed news gameID w w' act hstep hfeed =>
      have hmem : (gameID, w) ∈ before ++ (gameID, w) :: after := by simp
      have hw' : w'.Accounted := haccounted.games (gameID, w') (by simp)
      obtain ⟨n, roster, -, -, hw⟩ := h.games _ hmem
      cases hfault with
      | play hmem' hact =>
        cases List.inj_on_of_nodup_map h.ids hmem hmem' rfl
        exact (hw.accounted_iff hstep).mp hw' hact
  · intro hfault
    exact (h.step hstep hfault).accounted

/-- The games are accounted for all along exactly when no step is a fault. -/
theorem metrics_count_games_iff {run : List (Act × Site)} (hrun : Along (Step db) empty run) :
    (∀ s ∈ visited empty run, s.Accounted) ↔ Along (fun s act _ => ¬ Fault s act) empty run := by
  have hempty : empty.Sound db := sound_empty
  apply visited_good_iff (Sound db) hrun hempty.accounted hempty
  · intro s act s' h hstep
    exact h.accounted_iff hstep
  · intro s act s' h hstep hfault
    exact h.step hstep hfault

/-- A persisted game is created and announced. -/
theorem metrics_count_games_duel : ∃ run, Along (Step .byInsertion) empty run ∧
    (last empty run).Accounted ∧ (last empty run).metrics.activeGames = 1 := by
  set w := World.set 0 .create (.finishing .done [.startTimer duelGame])
    (duelWorld.perform .byInsertion 1 (.publishCreated duelGame)) with hw
  have hcall : duelWorld.calls 0 = some ⟨.create, .finishing .done [.publishCreated duelGame,
    .startTimer duelGame]⟩ := rfl
  have hcreate : Step .byInsertion empty (.create 1 duelWorld) ⟨[(1, duelWorld)], []⟩ :=
    .create List.not_mem_nil created_duelWorld
  have hplay : Step .byInsertion ⟨[(1, duelWorld)], []⟩ (.play 1 (.effect 0))
      ⟨[(1, w)], ["game_created"]⟩ :=
    @Step.play _ [] [] [] _ 1 _ _ _ (.effect hcall fun _ => Effect.noConfusion) rfl
  have hrun : Along (Step .byInsertion) empty [(.create 1 duelWorld, ⟨[(1, duelWorld)], []⟩),
      (.play 1 (.effect 0), ⟨[(1, w)], ["game_created"]⟩)] := ⟨hcreate, hplay, trivial⟩
  refine ⟨_, hrun, (metrics_count_games_iff hrun).mpr ⟨?_, ?_, trivial⟩ _ (last_mem_visited _ _), rfl⟩
  · rintro ⟨hbot⟩
    cases hbot
  · rintro (_ | ⟨hmem, hact⟩)
    cases List.mem_singleton.mp hmem
    obtain _ | ⟨hcall', -⟩ := hact
    cases hcall.symm.trans hcall'

theorem leads_of_along {gameID : ℤ} {w : World} {run : List (World.Act × World)}
    (h : Along (World.Step db gameID) w run) :
    Leads (Step db) ⟨[(gameID, w)], w.feed⟩ ⟨[(gameID, last w run)], (last w run).feed⟩ := by
  induction run generalizing w with
  | nil => exact .refl _
  | cons step run ih =>
    obtain ⟨hstep, hrest⟩ := h
    obtain ⟨news, hnews⟩ := hstep.feed
    have hfirst : Step db ⟨[(gameID, w)], w.feed⟩ (.play gameID step.1)
        ⟨[(gameID, step.2)], step.2.feed⟩ := by
      rw [hnews]
      exact @Step.play db [] [] _ _ gameID _ _ _ hstep hnews
    exact .head hfirst (ih hrest)

theorem not_accounted (h : s.metrics.activeGames < 0) : ¬ s.Accounted := fun haccounted =>
  absurd (haccounted.nonneg s.feed List.prefix_rfl) (Int.not_le.mpr h)

theorem leads_of_play {gameID : ℤ} {w : World} {chance : Chance} {m : ℕ} {orders : List Order}
    {feed : List String} (hcreated : Created db gameID w) (hnumbered : w.Numbered m)
    (hplay : ((w.play db gameID chance m orders).map fun run =>
      ((last w run).returnedBelow m, (last w run).feed)) = some (true, feed)) :
    ∃ s w', Leads (Step db) empty s ∧ s.games = [(gameID, w')] ∧ w'.Idle ∧ s.feed = feed := by
  obtain ⟨run, hrun, hlast⟩ := Option.map_eq_some_iff.mp hplay
  obtain ⟨hreturned, rfl⟩ := Prod.mk.inj hlast
  have hcreate : Step db empty (.create gameID w) ⟨[(gameID, w)], w.feed⟩ := by
    rw [hcreated.feed]
    exact .create List.not_mem_nil hcreated
  exact ⟨_, _, .head hcreate (leads_of_along (along_play hnumbered hrun)), rfl,
    (hnumbered.play hrun).idle hreturned, rfl⟩

def botForfeit : List Order := [.go 0, .go 0, .go 0, .receive 1 (.forfeit 7)] ++
  List.replicate 4 (.go 1)

/-- Both players of a persisted game forfeit at once. -/
def bothForfeit : List Order :=
  [.go 0, .go 0, .receive 1 (.forfeit 7), .receive 2 (.forfeit 8), .go 1, .go 2] ++
    List.replicate 6 (.go 1) ++ List.replicate 6 (.go 2)

/-- The end of a bot game is announced without its creation, and the end of a persisted game
twice. In either case the metrics count less than no games. -/
theorem activeGames_below_zero :
    (∃ s w, Leads (Step .byInsertion) empty s ∧ s.games = [(10000, w)] ∧ w.Idle ∧
      s.feed = ["game_completed"] ∧ s.metrics.activeGames = -1 ∧ ¬ s.Accounted) ∧
    ∃ s w, Leads (Step .byInsertion) empty s ∧ s.games = [(1, w)] ∧ w.Idle ∧
      s.feed = ["game_created", "game_completed", "game_completed"] ∧
      s.metrics.activeGames = -1 ∧ ¬ s.Accounted := by
  constructor
  · have hplay : ((botDuelWorld.play .byInsertion 10000 .first 2 botForfeit).map fun run =>
        ((last botDuelWorld run).returnedBelow 2, (last botDuelWorld run).feed)) =
        some (true, ["game_completed"]) := by
      decide +kernel
    obtain ⟨s, w, hleads, hgames, hidle, hfeed⟩ :=
      leads_of_play (created_botDuelWorld _) (numbered_botDuelWorld (by omega)) hplay
    have hactive : s.metrics.activeGames = -1 := by
      rw [metrics, hfeed]
      rfl
    exact ⟨s, w, hleads, hgames, hidle, hfeed, hactive, not_accounted (by omega)⟩
  · have hplay : ((duelWorld.play .byInsertion 1 .first 3 bothForfeit).map fun run =>
        ((last duelWorld run).returnedBelow 3, (last duelWorld run).feed)) =
        some (true, ["game_created", "game_completed", "game_completed"]) := by
      decide +kernel
    obtain ⟨s, w, hleads, hgames, hidle, hfeed⟩ :=
      leads_of_play created_duelWorld (numbered_duelWorld (by omega)) hplay
    have hactive : s.metrics.activeGames = -1 := by
      rw [metrics, hfeed]
      rfl
    exact ⟨s, w, hleads, hgames, hidle, hfeed, hactive, not_accounted (by omega)⟩

end Site

end DotsAndBoxes
