import DotsAndBoxes.Hub.Realtime

/-! # Presence on the page of a game

A user is present in a game while one of the open sessions of the user is on the page of
the game. The timer service does not know sessions or pages: it forfeits a game when the
last event about the user that it heard of, a grace period ago, was a disconnect. The
events keep pace with the presence as long as no page is left while the user remains
present elsewhere, and no announced connection is overtaken by the end of a grace period.
-/

namespace DotsAndBoxes

open Tagged Runs

/-- Whether a grace period of the user runs once an event is handled. -/
def Event.arms (userID : ℤ) (armed : Bool) (e : Event) : Bool :=
  if e.Connects userID then false else if e.Disconnects userID then true else armed

/-- Whether a grace period of the user runs once all events are handled. -/
def graceRuns (userID : ℤ) (armed : Bool) (posts : List Post) : Bool :=
  posts.foldl (fun armed post => post.event.arms userID armed) armed

section Events

variable {userID user : ℤ} {armed armed' : Bool} {posts : List Post}

@[simp] theorem arms_userConnected :
    (userConnected user).arms userID armed = if user = userID then false else armed := by
  simp [Event.arms]

@[simp] theorem arms_userDisconnected :
    (userDisconnected user).arms userID armed = if user = userID then true else armed := by
  simp [Event.arms]

theorem graceRuns_append (more : List Post) : graceRuns userID armed (posts ++ more) =
    graceRuns userID (graceRuns userID armed posts) more := List.foldl_append

theorem arms_mono {e : Event} (h : armed' = true → armed = true)
    (harms : e.arms userID armed' = true) : e.arms userID armed = true := by
  unfold Event.arms at harms ⊢
  split_ifs at harms ⊢
  · rfl
  · exact h harms

theorem graceRuns_mono (h : armed' = true → armed = true)
    (hruns : graceRuns userID armed' posts = true) : graceRuns userID armed posts = true := by
  induction posts generalizing armed armed' with
  | nil => exact h hruns
  | cons post posts ih => exact ih (arms_mono h) hruns

theorem exists_connects_of_graceRuns (h : graceRuns userID true posts = false) :
    ∃ post ∈ posts, post.event.Connects userID := by
  by_contra hnone
  push Not at hnone
  have hruns : graceRuns userID true posts = true := by
    induction posts with
    | nil => rfl
    | cons post posts ih =>
      have harms : post.event.arms userID true = true := by
        simp [Event.arms, hnone post List.mem_cons_self]
      rw [graceRuns, List.foldl_cons, harms] at h ⊢
      exact ih h fun q hq => hnone q (List.mem_cons_of_mem _ hq)
  simp [h] at hruns

end Events

namespace Realtime

def Present (userID gameID : ℤ) (s : Realtime) : Prop :=
  ∃ conn ∈ s.hub.manager.connections, conn.userID = userID ∧ gameTopic gameID ∈ s.pages conn

/-- A connection of the user is on its way to the timer service. -/
def Announced (userID : ℤ) (s : Realtime) : Prop :=
  ∃ post ∈ s.bus.connections, post.event.Connects userID

def PageFrame (frame : Json) : Prop := ∃ topic, Joins frame topic ∨ Leaves frame topic

def Act.OnPages : Act → Prop
  | .frame _ _ raw => PageFrame raw
  | _ => True

/-- The user does not leave a page while an open session remains on the page of the game,
does not join that page while a forfeit of the game is carried out, and has no connection
announced when a grace period of the game runs out. -/
def InStep (userID gameID : ℤ) (s : Realtime) (a : Act) (_ : Realtime) : Prop :=
  match a with
  | .frame conn _ frame => conn.userID = userID →
    (∀ topic, Leaves frame topic → ∀ other ∈ s.hub.manager.connections,
      other.userID = userID → gameTopic gameID ∈ s.pages other →
        other = conn ∧ topic = gameTopic gameID) ∧
    (Joins frame (gameTopic gameID) → (gameID, userID) ∉ s.firing)
  | .graceOver game user => game = gameID → user = userID → ¬ s.Announced userID
  | _ => True

/-- What the timer service and the bus know agrees with the presence of the user in the
game, in a state and in those before it. -/
structure Watched (userID gameID : ℤ) (past : Set Realtime) (s : Realtime) : Prop where
  mem : s ∈ past
  past_le : ∀ t ∈ past, t.now ≤ s.now
  grouped : s.hub.manager.Grouped
  seated : s.timers.Seated
  /-- The events on the bus leave a present user without a grace period. -/
  settles : s.Present userID gameID →
    graceRuns userID (s.timers.deadline gameID userID).isSome s.bus.connections = false
  /-- A user seen during the running grace period has a connection announced. -/
  seen : ∀ d, s.timers.deadline gameID userID = some d →
    ∀ t ∈ past, d - disconnectGracePeriod < t.now → t.Present userID gameID → s.Announced userID
  /-- A user about to forfeit has not been present for a grace period. -/
  absent : (gameID, userID) ∈ s.firing →
    ∀ t ∈ past, s.now - disconnectGracePeriod < t.now → ¬ t.Present userID gameID

variable {userID gameID : ℤ} {past : Set Realtime} {s s' : Realtime} {a : Act}

theorem Present.of_register {conn : Connection} (hp : s'.Present userID gameID)
    (hmanager : s'.hub.manager = s.hub.manager.register conn)
    (hpages : s'.pages = openPages (.register conn) s.pages) : s.Present userID gameID := by
  obtain ⟨other, hother, huser, hpage⟩ := hp
  rw [hmanager] at hother
  rw [hpages] at hpage
  by_cases hconn : other = conn
  · simp [hconn, openPages] at hpage
  · exact ⟨other, by simpa [hconn] using hother, huser, by simpa [openPages, hconn] using hpage⟩

theorem Present.of_unregister {conn : Connection} (hp : s'.Present userID gameID)
    (hgrouped : s.hub.manager.Grouped)
    (hmanager : s'.hub.manager = s.hub.manager.unregister conn) (hpages : s'.pages = s.pages) :
    s.Present userID gameID ∧
      (conn.userID = userID → s.hub.manager.lastSession conn = false) := by
  obtain ⟨other, hother, huser, hpage⟩ := hp
  rw [hmanager] at hother
  rw [hpages] at hpage
  constructor
  · exact ⟨other, Finset.mem_of_mem_erase hother, huser, hpage⟩
  · intro hconn
    apply Bool.eq_false_of_not_eq_true
    intro hlast
    exact hgrouped.not_mem_of_lastSession conn hlast hother (huser.trans hconn.symm)

namespace Watched

/-- A later state is watched if the events on its bus settle the user, and what it knows holds of
the states before it. -/
theorem next (h : Watched userID gameID past s) (hnow : s.now ≤ s'.now)
    (hgrouped : s'.hub.manager.Grouped) (hseated : s'.timers.Seated)
    (hsettles : s'.Present userID gameID →
      graceRuns userID (s'.timers.deadline gameID userID).isSome s'.bus.connections = false)
    (hseen : ∀ d, s'.timers.deadline gameID userID = some d → ∀ t ∈ past,
      d - disconnectGracePeriod < t.now → t.Present userID gameID → s'.Announced userID)
    (habsent : (gameID, userID) ∈ s'.firing → ¬ s'.Present userID gameID ∧ ∀ t ∈ past,
      s'.now - disconnectGracePeriod < t.now → ¬ t.Present userID gameID) :
    Watched userID gameID (insert s' past) s' := by
  constructor
  · exact Set.mem_insert s' past
  · rintro t (rfl | ht)
    · exact le_rfl
    · exact (h.past_le t ht).trans hnow
  · exact hgrouped
  · exact hseated
  · exact hsettles
  · rintro d hd t (rfl | ht) hlater hpresent
    · have hsettled := hsettles hpresent
      rw [hd] at hsettled
      exact exists_connects_of_graceRuns hsettled
    · exact hseen d hd t ht hlater hpresent
  · rintro hfire t (rfl | ht) hlater
    · exact (habsent hfire).1
    · exact (habsent hfire).2 t ht hlater

/-- A step that only adds events to the bus, and makes no user present without announcing
a connection. -/
theorem extend (h : Watched userID gameID past s) (new : List Post)
    (hnow : s.now ≤ s'.now) (hgrouped : s'.hub.manager.Grouped) (hseated : s'.timers.Seated)
    (hbus : s'.bus.connections = s.bus.connections ++ new)
    (hdeadline : ∀ d, s'.timers.deadline gameID userID = some d →
      s.timers.deadline gameID userID = some d)
    (hfiring : (gameID, userID) ∈ s'.firing → (gameID, userID) ∈ s.firing)
    (hjoins : (gameID, userID) ∈ s'.firing → s'.Present userID gameID → s.Present userID gameID)
    (hnew : s'.Present userID gameID → ∀ armed, (s.Present userID gameID → armed = false) →
      graceRuns userID armed new = false) :
    Watched userID gameID (insert s' past) s' := by
  apply h.next hnow hgrouped hseated
  · intro hpresent
    have harmed : (s'.timers.deadline gameID userID).isSome = true →
        (s.timers.deadline gameID userID).isSome = true := by
      rw [Option.isSome_iff_exists, Option.isSome_iff_exists]
      exact Exists.imp hdeadline
    have hold := hnew hpresent _ h.settles
    rw [hbus, graceRuns_append]
    apply Bool.eq_false_of_not_eq_true
    intro hruns
    rw [graceRuns_mono (graceRuns_mono harmed) hruns] at hold
    cases hold
  · intro d hd t ht hlater hpresent
    obtain ⟨post, hpost, hconnects⟩ := h.seen d (hdeadline d hd) t ht hlater hpresent
    exact ⟨post, hbus ▸ List.mem_append_left new hpost, hconnects⟩
  · intro hfire
    have hgone := h.absent (hfiring hfire)
    constructor
    · intro hpresent
      exact hgone s h.mem (sub_lt_self _ (by decide)) (hjoins hfire hpresent)
    · intro t ht hlater
      exact hgone t ht (lt_of_le_of_lt (sub_le_sub_right hnow _) hlater)

/-- A step that publishes nothing about connections and makes no user present. -/
theorem quiet (h : Watched userID gameID past s)
    (hnow : s.now ≤ s'.now) (hgrouped : s'.hub.manager.Grouped) (hseated : s'.timers.Seated)
    (hbus : s'.bus.connections = s.bus.connections)
    (hdeadline : ∀ d, s'.timers.deadline gameID userID = some d →
      s.timers.deadline gameID userID = some d)
    (hfiring : (gameID, userID) ∈ s'.firing → (gameID, userID) ∈ s.firing)
    (hpresent : s'.Present userID gameID → s.Present userID gameID) :
    Watched userID gameID (insert s' past) s' :=
  h.extend [] hnow hgrouped hseated (by simpa using hbus) hdeadline hfiring
    (fun _ => hpresent) fun hp _ harmed => harmed (hpresent hp)

theorem elapse (h : Watched userID gameID past s) {d : Time} (hd : 0 ≤ d) :
    Watched userID gameID (insert { s with now := s.now + d } past) { s with now := s.now + d } :=
  h.quiet (le_add_of_nonneg_right hd) h.grouped h.seated rfl (fun _ => id) id id

theorem hub (h : Watched userID gameID past s) {a : Hub.Act} {h' : Hub}
    (hstep : Hub.Step s.hub a h') (hs' : s' = { s with
      hub := h'
      bus := s.bus.publishAll .server (a.published s.hub.manager)
      pages := openPages a s.pages }) :
    Watched userID gameID (insert s' past) s' := by
  have hmanager : s'.hub.manager = a.serve s.hub.manager := by
    rw [hs']
    exact hstep.manager_eq
  have hbus : s'.bus.connections = s.bus.connections ++
      Bus.aboutConnections .server (a.published s.hub.manager) := by
    rw [hs', Bus.connections_publishAll]
  have hpages : s'.pages = openPages a s.pages := by rw [hs']
  have hnow : s.now ≤ s'.now := by rw [hs']
  have hseated : s'.timers.Seated := hs' ▸ h.seated
  have hdeadline (d : Time) (hd : s'.timers.deadline gameID userID = some d) :
      s.timers.deadline gameID userID = some d := by rwa [hs'] at hd
  have hfiring (hf : (gameID, userID) ∈ s'.firing) : (gameID, userID) ∈ s.firing := by
    rwa [hs'] at hf
  cases a with
  | register conn =>
    have hpresent (hp : s'.Present userID gameID) : s.Present userID gameID :=
      hp.of_register hmanager hpages
    refine h.extend _ hnow ?_ hseated hbus hdeadline hfiring (fun _ => hpresent) ?_
    · rw [hmanager]
      exact h.grouped.register conn
    · intro hp armed harmed
      rw [harmed (hpresent hp)]
      simp only [Hub.Act.published, Bus.aboutConnections_map, Manager.registerEvents]
      split_ifs <;> simp [graceRuns]
  | unregister conn =>
    have hpresent (hp : s'.Present userID gameID) : s.Present userID gameID ∧
        (conn.userID = userID → s.hub.manager.lastSession conn = false) :=
      hp.of_unregister h.grouped hmanager hpages
    refine h.extend _ hnow ?_ hseated hbus hdeadline hfiring (fun _ hp => (hpresent hp).1) ?_
    · rw [hmanager]
      exact h.grouped.unregister conn
    · intro hp armed harmed
      rw [harmed (hpresent hp).1]
      simp only [Hub.Act.published, Bus.aboutConnections_map, Manager.unregisterEvents]
      split_ifs with hlast
      · have hconn : conn.userID ≠ userID := fun heq => by simp [(hpresent hp).2 heq] at hlast
        simp [graceRuns, hconn]
      · rfl
  | subscribe topic conn =>
    refine h.quiet hnow ?_ hseated (by simpa [Hub.Act.published, Bus.aboutConnections] using hbus)
      hdeadline hfiring ?_
    · rw [hmanager]
      exact h.grouped.subscribe conn topic
    · simp [Present, hmanager, hpages, Hub.Act.serve, openPages]
  | _ =>
    refine h.quiet hnow ?_ hseated (by simpa [Hub.Act.published, Bus.aboutConnections] using hbus)
      hdeadline hfiring ?_
    · rw [hmanager]
      exact h.grouped
    · simp [Present, hmanager, hpages, Hub.Act.serve, openPages]

theorem joins (h : Watched userID gameID past s) {conn : Connection} {allowed : Bool}
    {frame : Json} {topic : String} {h' : Hub}
    (hopen : conn ∈ s.hub.manager.connections) (hjoins : Joins frame topic)
    (hrequests : Requests conn (conn.readMessage allowed frame).subscribe s.hub h')
    (hfree : conn.userID = userID → topic = gameTopic gameID → (gameID, userID) ∉ s.firing)
    (hs' : s' = { s with
      hub := h'
      bus := s.bus.publishAll (.frame conn.userID) (conn.readMessage allowed frame).published
      pages := Function.update s.pages conn (turnPage frame (s.pages conn)) }) :
    Watched userID gameID (insert s' past) s' := by
  rw [hjoins.readMessage, hjoins.turnPage] at hs'
  have hmanager : s'.hub.manager = s.hub.manager := by
    rw [hs']
    exact hrequests.manager_eq
  have hpresent : s'.Present userID gameID → s.Present userID gameID ∨
      conn.userID = userID ∧ topic = gameTopic gameID := by
    rintro ⟨other, hother, huser, hpage⟩
    rw [hmanager] at hother
    rw [hs'] at hpage
    by_cases hconn : other = conn
    · subst hconn
      rcases (by simpa using hpage : gameTopic gameID = topic ∨ _) with htopic | hpage
      · exact .inr ⟨huser, htopic.symm⟩
      · exact .inl ⟨other, hother, huser, hpage⟩
    · exact .inl ⟨other, hother, huser, by simpa [hconn] using hpage⟩
  refine h.extend [⟨userConnected conn.userID, .frame conn.userID⟩] ?_ ?_ ?_ ?_ ?_ ?_ ?_ ?_
  · rw [hs']
  · rw [hmanager]
    exact h.grouped
  · exact hs' ▸ h.seated
  · simp [hs', Bus.aboutConnections]
  · intro d hd
    rwa [hs'] at hd
  · intro hf
    rwa [hs'] at hf
  · rintro hf hp
    rcases hpresent hp with hold | ⟨huser, htopic⟩
    · exact hold
    · rw [hs'] at hf
      exact absurd hf (hfree huser htopic)
  · intro hp armed harmed
    by_cases huser : conn.userID = userID
    · simp [graceRuns, huser]
    · have hold : s.Present userID gameID := (hpresent hp).resolve_right fun hnew => huser hnew.1
      simp [graceRuns, huser, harmed hold]

theorem leaves (h : Watched userID gameID past s) {conn : Connection} {allowed : Bool}
    {frame : Json} {topic : String} {h' : Hub} (hleaves : Leaves frame topic)
    (hrequests : Requests conn (conn.readMessage allowed frame).subscribe s.hub h')
    (hlast : conn.userID = userID → ∀ other ∈ s.hub.manager.connections, other.userID = userID →
      gameTopic gameID ∈ s.pages other → other = conn ∧ topic = gameTopic gameID)
    (hs' : s' = { s with
      hub := h'
      bus := s.bus.publishAll (.frame conn.userID) (conn.readMessage allowed frame).published
      pages := Function.update s.pages conn (turnPage frame (s.pages conn)) }) :
    Watched userID gameID (insert s' past) s' := by
  rw [hleaves.readMessage, hleaves.turnPage] at hs'
  have hmanager : s'.hub.manager = s.hub.manager := by
    rw [hs']
    exact hrequests.manager_eq
  have hpresent : s'.Present userID gameID →
      s.Present userID gameID ∧ conn.userID ≠ userID := by
    rintro ⟨other, hother, huser, hpage⟩
    rw [hmanager] at hother
    have hpages : s'.pages = Function.update s.pages conn ((s.pages conn).erase topic) := by
      rw [hs']
    rw [hpages] at hpage
    have hsplit : gameTopic gameID ∈ s.pages other ∧
        ¬ (other = conn ∧ topic = gameTopic gameID) := by
      by_cases hconn : other = conn
      · subst hconn
        rw [Function.update_self, Finset.mem_erase] at hpage
        exact ⟨hpage.2, fun hsame => hpage.1 hsame.2.symm⟩
      · exact ⟨by simpa [hconn] using hpage, fun hsame => hconn hsame.1⟩
    exact ⟨⟨other, hother, huser, hsplit.1⟩,
      fun hconn => hsplit.2 (hlast hconn other hother huser hsplit.1)⟩
  refine h.extend [⟨userDisconnected conn.userID, .frame conn.userID⟩] ?_ ?_ ?_ ?_ ?_ ?_ ?_ ?_
  · rw [hs']
  · rw [hmanager]
    exact h.grouped
  · exact hs' ▸ h.seated
  · simp [hs', Bus.aboutConnections]
  · intro d hd
    rwa [hs'] at hd
  · intro hf
    rwa [hs'] at hf
  · exact fun _ hp => (hpresent hp).1
  · intro hp armed harmed
    obtain ⟨hold, huser⟩ := hpresent hp
    simp [graceRuns, huser, harmed hold]

/-- Handling an event arms the grace period of the user as the event says, from now on. -/
theorem deadline_listen (h : Watched userID gameID past s) {e : Event} {d : Time}
    (hd : (s.timers.listenForConnectionEvents s.now e).deadline gameID userID = some d) :
    ¬ e.Connects userID ∧
      (s.timers.deadline gameID userID = some d ∨
        e.Disconnects userID ∧ d = s.now + disconnectGracePeriod) := by
  rcases s.timers.listen_cases s.now e with ⟨user, he, hlisten⟩ | ⟨user, he, hlisten⟩ |
    ⟨hc, -, hlisten⟩ <;> rw [hlisten] at hd
  · rw [h.seated.deadline_handleReconnect] at hd
    split_ifs at hd with huser
    exact ⟨fun hconnects => huser (hconnects.user_eq he), .inl hd⟩
  · refine ⟨fun hconnects => hconnects.not_disconnects he, ?_⟩
    rcases s.timers.deadline_handleDisconnect s.now gameID userID user with
      hsame | ⟨huser, harmed⟩
    · exact .inl (hsame ▸ hd)
    · exact .inr ⟨huser ▸ he, Option.some.inj (hd.symm.trans harmed)⟩
  · exact ⟨hc userID, .inl hd⟩

theorem listen (h : Watched userID gameID past s) {post : Post} {rest : List Post}
    (hbus : s.bus.connections = post :: rest) (hs' : s' = { s with
      bus := { s.bus with connections := rest }
      timers := s.timers.listenForConnectionEvents s.now post.event }) :
    Watched userID gameID (insert s' past) s' := by
  have hdeadline (d : Time) (hd : s'.timers.deadline gameID userID = some d) :=
    h.deadline_listen (e := post.event) (d := d) (by rwa [hs'] at hd)
  have hpresent : s'.Present userID gameID → s.Present userID gameID := by
    rw [hs']
    exact id
  apply h.next
  · rw [hs']
  · rw [hs']
    exact h.grouped
  · rw [hs']
    exact h.seated.listen s.now post.event
  · intro hp
    have hold := h.settles (hpresent hp)
    rw [hbus, graceRuns, List.foldl_cons, ← graceRuns] at hold
    have harms : (s'.timers.deadline gameID userID).isSome = true →
        post.event.arms userID (s.timers.deadline gameID userID).isSome = true := by
      intro hsome
      obtain ⟨d, hd⟩ := Option.isSome_iff_exists.mp hsome
      obtain ⟨hnot, hsame | ⟨hdisconnects, -⟩⟩ := hdeadline d hd
      · simp [Event.arms, hnot, hsame]
      · simp [Event.arms, hnot, hdisconnects]
    apply Bool.eq_false_of_not_eq_true
    intro hruns
    rw [hs'] at hruns
    have hruns := graceRuns_mono (hs' ▸ harms) hruns
    simp [hold] at hruns
  · intro d hd t ht hlater hp
    obtain ⟨hnot, hsame | ⟨-, rfl⟩⟩ := hdeadline d hd
    · obtain ⟨q, hq, hconnects⟩ := h.seen d hsame t ht hlater hp
      rw [hbus] at hq
      rcases List.mem_cons.mp hq with rfl | hq
      · exact absurd hconnects hnot
      · rw [hs']
        exact ⟨q, hq, hconnects⟩
    · rw [add_sub_cancel_right] at hlater
      exact absurd (h.past_le t ht) hlater.not_ge
  · intro hf
    rw [hs'] at hf
    constructor
    · intro hp
      exact h.absent hf s h.mem (sub_lt_self _ (by decide)) (hpresent hp)
    · intro t ht hlater
      rw [hs'] at hlater
      exact h.absent hf t ht hlater

theorem graceOver (h : Watched userID gameID past s) {game user : ℤ}
    (hexpired : s.timers.expired s.now game user = true)
    (hannounced : game = gameID → user = userID → ¬ s.Announced userID) (hs' : s' = { s with
      timers := s.timers.graceOver game user
      firing := (game, user) :: s.firing }) :
    Watched userID gameID (insert s' past) s' := by
  have hdeadline (d : Time) (hd : s'.timers.deadline gameID userID = some d) :
      s.timers.deadline gameID userID = some d := by
    rw [hs', GameTimerService.deadline_graceOver] at hd
    split_ifs at hd
    exact hd
  have hpresent : s'.Present userID gameID → s.Present userID gameID := by
    rw [hs']
    exact id
  by_cases hsame : gameID = game ∧ userID = user
  · obtain ⟨rfl, rfl⟩ := hsame
    obtain ⟨d, hd, hle⟩ := GameTimerService.expired_eq_true.mp hexpired
    have hquiet := hannounced rfl rfl
    have habsent : ¬ s.Present userID gameID := by
      intro hp
      have hsettled := h.settles hp
      rw [hd] at hsettled
      exact hquiet (exists_connects_of_graceRuns hsettled)
    apply h.next
    · rw [hs']
    · rw [hs']
      exact h.grouped
    · rw [hs']
      exact h.seated.graceOver gameID userID
    · exact fun hp => absurd (hpresent hp) habsent
    · intro d' hd'
      rw [hs', GameTimerService.deadline_graceOver, if_pos ⟨rfl, rfl⟩] at hd'
      cases hd'
    · intro _
      constructor
      · exact fun hp => habsent (hpresent hp)
      · intro t ht hlater hp
        rw [hs'] at hlater
        have hwithin := lt_of_le_of_lt (sub_le_sub_right hle disconnectGracePeriod) hlater
        exact hquiet (h.seen d hd t ht hwithin hp)
  · refine h.quiet ?_ ?_ ?_ ?_ hdeadline ?_ hpresent
    · rw [hs']
    · rw [hs']
      exact h.grouped
    · rw [hs']
      exact h.seated.graceOver game user
    · rw [hs']
    · intro hf
      rw [hs'] at hf
      rcases List.mem_cons.mp hf with heq | hf
      · exact absurd (Prod.mk.inj heq) hsame
      · exact hf

theorem step (h : Watched userID gameID past s) (hstep : Step s a s') (hpages : a.OnPages)
    (hinstep : InStep userID gameID s a s') : Watched userID gameID (insert s' past) s' := by
  cases hstep with
  | elapse hd => exact h.elapse hd
  | hub hstep _ => exact h.hub hstep rfl
  | subscribed _ => exact h.quiet le_rfl h.grouped h.seated rfl (fun _ => id) id id
  | feed hfeed hstep =>
    have hmanager := hstep.manager_eq
    refine h.quiet le_rfl ?_ h.seated rfl (fun _ => id) id ?_
    · exact (congrArg Manager.Grouped hmanager).mpr h.grouped
    · rintro ⟨conn, hconn, huser, hpage⟩
      exact ⟨conn, congrArg Manager.connections hmanager ▸ hconn, huser, hpage⟩
  | frame hopen hrequests =>
    obtain ⟨topic, hjoins | hleaves⟩ := hpages
    · exact h.joins hopen hjoins hrequests
        (fun huser htopic => (hinstep huser).2 (htopic ▸ hjoins)) rfl
    · exact h.leaves hleaves hrequests (fun huser => (hinstep huser).1 topic hleaves) rfl
  | publish htopic =>
    refine h.quiet le_rfl h.grouped h.seated ?_ (fun _ => id) id id
    rw [Bus.publish_eq]
    exact if_neg htopic
  | listen hbus => exact h.listen hbus rfl
  | startTimer =>
    exact h.quiet le_rfl h.grouped (h.seated.startTimer _ _ _ _) rfl (fun _ hd => by simpa using hd)
      id id
  | switchTurn =>
    exact h.quiet le_rfl h.grouped (h.seated.switchTurn _ _ _) rfl (fun _ hd => by simpa using hd)
      id id
  | stopTimer =>
    exact h.quiet le_rfl h.grouped (h.seated.stopTimer _) rfl
      (fun _ => GameTimerService.deadline_stopTimer) id id
  | graceOver hexpired => exact h.graceOver hexpired hinstep rfl
  | forfeit hfiring =>
    exact h.quiet le_rfl h.grouped (h.seated.stopTimer _) rfl
      (fun _ => GameTimerService.deadline_stopTimer) List.mem_of_mem_erase id

end Watched

theorem watched_start (userID gameID now : ℤ) :
    Watched userID gameID {start now} (start now) := by
  have habsent : ¬ (start now).Present userID gameID := by
    rintro ⟨conn, hconn, -⟩
    simp [start, Hub.start] at hconn
  constructor
  · rfl
  · rintro t rfl
    exact le_rfl
  · intro user
    rfl
  · rintro game timer ⟨⟩
  · exact fun hpresent => absurd hpresent habsent
  · rintro d ⟨⟩
  · intro hfiring
    simp [start] at hfiring

/-- Whenever the user forfeits the game, no session of the user has been open and on the
page of the game in the grace period before. -/
def AbsentBeforeForfeits (userID gameID : ℤ) (s : Realtime) (run : List (Act × Realtime)) :
    Prop :=
  ∀ before s' after, run = before ++ (.forfeit gameID userID, s') :: after →
    ∀ t ∈ visited s before, (last s before).now - disconnectGracePeriod < t.now →
      ¬ t.Present userID gameID

/-- In every run of any sessions that join and leave pages, a user forfeits a game only after
a grace period of absence from its page, provided that the user never leaves a page while
present in the game, and that no announced connection is overtaken by a forfeit. -/
theorem forfeit_only_after_absence {userID gameID now : ℤ} {run : List (Act × Realtime)}
    (h : Along Step (start now) run) (hpages : Along (fun _ a _ => a.OnPages) (start now) run)
    (hinstep : Along (InStep userID gameID) (start now) run) :
    AbsentBeforeForfeits userID gameID (start now) run := by
  rintro before s' after rfl t ht hlater
  rw [along_append] at h hpages hinstep
  have hwatched : Watched userID gameID (visited (start now) before) (last (start now) before) :=
    ((h.1.and hpages.1).and hinstep.1).inv_visited (Watched userID gameID)
      (watched_start userID gameID now) fun _ _ _ _ hw hstep =>
        hw.step hstep.1.1 hstep.1.2 hstep.2
  have hfiring : (gameID, userID) ∈ (last (start now) before).firing := by
    cases h.2.1 with
    | forfeit hfiring => exact hfiring
  exact hwatched.absent hfiring t ht hlater

theorem AbsentBeforeForfeits.of_append {before run : List (Act × Realtime)}
    (h : AbsentBeforeForfeits userID gameID s (before ++ run)) :
    AbsentBeforeForfeits userID gameID (last s before) run := by
  rintro mid s' after rfl t ht hlater
  refine h (before ++ mid) s' after (List.append_assoc _ _ _).symm t
    (visited_append s before mid ht) ?_
  rwa [last_append]

/-- A step on pages that keeps in step with the presence of the user. -/
def Paced (userID gameID : ℤ) (s : Realtime) (a : Act) (s' : Realtime) : Prop :=
  (Step s a s' ∧ a.OnPages) ∧ InStep userID gameID s a s'

theorem leads_delivered (userID gameID : ℤ) {posts rest : List Post}
    (hbus : s.bus.connections = posts ++ rest) :
    ∃ t, Leads (Paced userID gameID) s t ∧ t.bus.connections = rest ∧
      t.hub = s.hub ∧ t.pages = s.pages ∧
      t.timers.seat gameID userID = s.timers.seat gameID userID := by
  induction posts generalizing s with
  | nil => exact ⟨s, .refl s, hbus, rfl, rfl, rfl⟩
  | cons post posts ih =>
    have hlisten : Paced userID gameID s (.listen post) { s with
        bus := { s.bus with connections := posts ++ rest }
        timers := s.timers.listenForConnectionEvents s.now post.event } :=
      ⟨⟨.listen hbus, trivial⟩, trivial⟩
    obtain ⟨t, ht, hrest, hhub, hpages, hseat⟩ := ih (s := { s with
      bus := { s.bus with connections := posts ++ rest }
      timers := s.timers.listenForConnectionEvents s.now post.event }) rfl
    exact ⟨t, ht.head hlisten, hrest, hhub, hpages, by simpa using hseat⟩

/-- A disconnect at the end of the bus is carried out as a forfeit, when nothing follows. -/
theorem leads_firing {posts : List Post} {author : Author}
    (hseat : (s.timers.seat gameID userID).isSome)
    (hbus : s.bus.connections = posts ++ [⟨userDisconnected userID, author⟩]) :
    ∃ t, Leads (Paced userID gameID) s t ∧ (gameID, userID) ∈ t.firing ∧
      t.hub = s.hub ∧ t.pages = s.pages := by
  obtain ⟨t, ht, hrest, hhub, hpages, hsame⟩ := leads_delivered userID gameID hbus
  let heard : Realtime := { t with
    bus := { t.bus with connections := [] }
    timers := t.timers.listenForConnectionEvents t.now (userDisconnected userID) }
  let late : Realtime := { heard with now := heard.now + disconnectGracePeriod }
  let spent : Realtime := { late with
    timers := late.timers.graceOver gameID userID
    firing := (gameID, userID) :: late.firing }
  have hdeadline : heard.timers.deadline gameID userID =
      some (t.now + disconnectGracePeriod) := by
    change (t.timers.listenForConnectionEvents t.now (userDisconnected userID)).deadline
      gameID userID = _
    rw [GameTimerService.listen_of_disconnects (Event.disconnects_userDisconnected.mpr rfl)]
    exact GameTimerService.deadline_handleDisconnect_of_seat (hsame ▸ hseat)
  have hheard : Paced userID gameID t (.listen ⟨userDisconnected userID, author⟩) heard :=
    ⟨⟨.listen hrest, trivial⟩, trivial⟩
  have hlate : Paced userID gameID heard (.elapse disconnectGracePeriod) late :=
    ⟨⟨.elapse (by decide), trivial⟩, trivial⟩
  have hspent : Paced userID gameID late (.graceOver gameID userID) spent := by
    refine ⟨⟨.graceOver ?_, trivial⟩, ?_⟩
    · exact GameTimerService.expired_eq_true.mpr ⟨_, hdeadline, le_rfl⟩
    · rintro - - ⟨post, hpost, -⟩
      simp [late, heard] at hpost
  exact ⟨spent, ((ht.tail hheard).tail hlate).tail hspent, List.mem_cons_self, hhub, hpages⟩

/-- A user who leaves a page while present in a game may have to forfeit the game. -/
theorem present_may_forfeit {posts : List Post} {author : Author}
    (hseat : (s.timers.seat gameID userID).isSome) (hpresent : s.Present userID gameID)
    (hbus : s.bus.connections = posts ++ [⟨userDisconnected userID, author⟩]) :
    ∃ run, Along (fun s a s' => Step s a s' ∧ a.OnPages) s run ∧
      ¬ AbsentBeforeForfeits userID gameID s run := by
  obtain ⟨t, ht, hfiring, hhub, hpages⟩ := leads_firing hseat hbus
  obtain ⟨run, hrun, rfl⟩ := ht.imp fun _ _ _ h => h.1
  have hforfeit : Step (last s run) (.forfeit gameID userID) _ := .forfeit hfiring
  refine ⟨_, hrun.snoc ⟨hforfeit, trivial⟩, fun habsent => ?_⟩
  apply habsent run _ [] rfl _ (last_mem_visited s run) (sub_lt_self _ (by decide))
  rwa [Present, hhub, hpages]

/-- The only game starts, and its player has a session. -/
def annPlays : GameTimerService :=
  (start 0).timers.startTimer 0 1 [⟨some 1, "ann", 0, false, 0⟩] 0

theorem annPlays_seat : (annPlays.seat 1 1).isSome := by
  simp [annPlays, start, GameTimerService.startTimer, GameTimerService.seat, GameTimer.start,
    GameTimer.seats]

theorem leads_annPlays : Leads (Paced 1 1) (start 0)
    (single Hub.ann annPlays ∅ [] [⟨userConnected 1, .server⟩]) :=
  ((Leads.refl _).tail ⟨⟨single_opens Hub.ann, trivial⟩, trivial⟩).tail
    (i := .startTimer 1 [⟨some 1, "ann", 0, false, 0⟩] 0) ⟨⟨.startTimer, trivial⟩, trivial⟩

/-- The player was never on the page of the game, and forfeits it after leaving the lobby. -/
theorem forfeit_only_after_absence_lobby :
    ∃ run s, Along Step (start 0) (run ++ [(.forfeit 1 1, s)]) ∧
      AbsentBeforeForfeits 1 1 (start 0) (run ++ [(.forfeit 1 1, s)]) := by
  have hleave : Leaves (leavePage "lobby:1") "lobby:1" := leaves_leavePage (by decide)
  have hleaves : Paced 1 1 (single Hub.ann annPlays ∅ [] [⟨userConnected 1, .server⟩])
      (.frame Hub.ann true (leavePage "lobby:1")) (single Hub.ann annPlays ∅ []
        ([⟨userConnected 1, .server⟩] ++ [⟨userDisconnected 1, .frame 1⟩])) := by
    refine ⟨⟨single_leaves Hub.ann annPlays ∅ _ hleave, "lobby:1", .inr hleave⟩,
      fun _ => ⟨?_, fun _ => List.not_mem_nil⟩⟩
    rintro - - other - - hpage
    by_cases hother : other = Hub.ann <;> simp [single, hother] at hpage
  have hbus : (single Hub.ann annPlays ∅ [] ([⟨userConnected 1, .server⟩] ++
      [⟨userDisconnected 1, .frame 1⟩])).bus.connections =
        [⟨userConnected 1, .server⟩] ++ [⟨userDisconnected 1, .frame 1⟩] := rfl
  obtain ⟨t, ht, hfiring, -⟩ := leads_firing annPlays_seat hbus
  obtain ⟨run, hrun, hlast⟩ := (leads_annPlays.tail hleaves).trans ht
  have hforfeit : Paced 1 1 (last (start 0) run) (.forfeit 1 1) _ :=
    ⟨⟨.forfeit (hlast ▸ hfiring), trivial⟩, trivial⟩
  have hall := hrun.snoc hforfeit
  exact ⟨run, _, hall.imp fun _ _ _ h => h.1.1, forfeit_only_after_absence
    (hall.imp fun _ _ _ h => h.1.1) (hall.imp fun _ _ _ h => h.1.2) (hall.imp fun _ _ _ h => h.2)⟩

/-- A player on the page of the game leaves another page, and forfeits. -/
theorem leaving_another_page_forfeits :
    ¬ ∀ run, Along Step (start 0) run → Along (fun _ a _ => a.OnPages) (start 0) run →
      AbsentBeforeForfeits 1 1 (start 0) run := by
  intro h
  have hjoin : Joins (joinPage "game:1") "game:1" := joins_joinPage (by decide)
  have hleave : Leaves (leavePage "lobby:1") "lobby:1" := leaves_leavePage (by decide)
  obtain ⟨before, hbefore, hlast⟩ := ((leads_annPlays.imp fun _ _ _ h => h.1).tail
    ⟨single_joins Hub.ann annPlays ∅ _ hjoin (Nat.zero_lt_succ 99), "game:1", .inl hjoin⟩).tail
      ⟨single_leaves Hub.ann annPlays _ _ hleave, "lobby:1", .inr hleave⟩
  obtain ⟨run, hrun, hforfeits⟩ := present_may_forfeit annPlays_seat
    (⟨Hub.ann, Finset.mem_insert_self Hub.ann ∅, rfl, by decide⟩ : Present 1 1 (single Hub.ann
      annPlays ((insert "game:1" ∅ : Finset String).erase "lobby:1") [("game:1", Hub.ann)]
        ([⟨userConnected 1, .server⟩, ⟨userConnected 1, .frame 1⟩] ++
          [⟨userDisconnected 1, .frame 1⟩]))) rfl
  have hall := along_append.mpr ⟨hbefore, hlast ▸ hrun⟩
  exact hforfeits (hlast ▸
    (h _ (hall.imp fun _ _ _ h => h.1) (hall.imp fun _ _ _ h => h.2)).of_append)

end Realtime

end DotsAndBoxes
