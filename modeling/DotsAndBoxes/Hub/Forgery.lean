import DotsAndBoxes.Hub.Realtime
import DotsAndBoxes.Library.Interference

/-! # Frames that speak for others

A session may put any event on the bus, under any topic, and the readers of the bus take
it for one of the server. A frame forges when it says something about the connections of
another user, or of a game to those who watch it. Users whose frames do not forge are
heard of in their own name only, and do not interfere with the others.
-/

namespace DotsAndBoxes

open Tagged Runs

/-- The states and timers of games, which the server alone publishes. -/
def GameEvent (e : Event) : Prop := e.type = "game:state" ∨ e.type = "game:timer"

/-- What the timer service takes the event for concerns the user. -/
def SpeaksFor (userID : ℤ) (e : Event) : Prop :=
  ∀ user, e.Connects user ∨ e.Disconnects user → user = userID

/-- The frame of a session of the user is an event about the connections of another, or a
game event under a topic that is delivered to clients. -/
def Forges (userID : ℤ) (subscribed : String → Bool) (frame : Json) : Prop :=
  ∃ event, eventCodec.unmarshal frame = some event ∧
    (Connection.topicOf event = "connections" ∧ ¬ SpeaksFor userID event ∨
      GameEvent event ∧ subscribed (Connection.topicOf event) = true)

theorem speaksFor_userConnected (userID : ℤ) : SpeaksFor userID (userConnected userID) := by
  rintro user (h | h)
  · exact (Event.connects_userConnected.mp h).symm
  · exact absurd h Event.not_disconnects_userConnected

theorem speaksFor_userDisconnected (userID : ℤ) : SpeaksFor userID (userDisconnected userID) := by
  rintro user (h | h)
  · exact absurd h Event.not_connects_userDisconnected
  · exact (Event.disconnects_userDisconnected.mp h).symm

theorem speaksFor_of_chat {userID : ℤ} {e : Event} (h : e.type = "chat:new") :
    SpeaksFor userID e := by
  rintro user (hc | hd)
  · exact absurd (h.symm.trans hc.1) (by decide)
  · exact absurd (h.symm.trans hd.1) (by decide)

theorem not_gameEvent_of_chat {e : Event} (h : e.type = "chat:new") : ¬ GameEvent e := by
  simp [GameEvent, h]

theorem published_of_not_forges {conn : Connection} {allowed : Bool} {frame : Json}
    {subscribed : String → Bool} (h : ¬ Forges conn.userID subscribed frame) :
    ∀ e ∈ (conn.readMessage allowed frame).published,
      (e.1 = "connections" → SpeaksFor conn.userID e.2) ∧
        (GameEvent e.2 → subscribed e.1 = false) := by
  intro e he
  have hpublishes := conn.publishes_readMessage allowed frame
  generalize (conn.readMessage allowed frame).published = published at he hpublishes
  cases hpublishes with
  | nothing => cases he
  | joined =>
    obtain rfl := List.mem_singleton.mp he
    exact ⟨fun _ => speaksFor_userConnected _, fun hgame => by
      simp [GameEvent, userConnected] at hgame⟩
  | left =>
    obtain rfl := List.mem_singleton.mp he
    exact ⟨fun _ => speaksFor_userDisconnected _, fun hgame => by
      simp [GameEvent, userDisconnected] at hgame⟩
  | chat _ hchat =>
    have hnew : e.2.type = "chat:new" := by
      rcases List.mem_pair.mp he with rfl | rfl
      · rfl
      · exact hchat
    exact ⟨fun _ => speaksFor_of_chat hnew,
      fun hgame => absurd hgame (not_gameEvent_of_chat hnew)⟩
  | passed hevent =>
    obtain rfl := List.mem_singleton.mp he
    constructor
    · intro htopic
      by_contra hspeaks
      exact h ⟨_, hevent, .inl ⟨htopic, hspeaks⟩⟩
    · intro hgame
      apply Bool.eq_false_of_not_eq_true
      intro hsub
      exact h ⟨_, hevent, .inr ⟨hgame, hsub⟩⟩

namespace Realtime

/-- The step is no forging frame of the user. -/
def Candid (userID : ℤ) (s : Realtime) (a : Act) (_ : Realtime) : Prop :=
  match a with
  | .frame conn _ frame => conn.userID = userID → ¬ Forges userID s.bus.subscribed frame
  | _ => True

/-- What the frames of the user have put on the bus speaks for the user. -/
structure Honest (userID : ℤ) (s : Realtime) : Prop where
  connections : ∀ post ∈ s.bus.connections, post.author = .frame userID →
    SpeaksFor userID post.event
  feed : ∀ topic, ∀ post ∈ s.bus.feed topic, GameEvent post.event → post.author ≠ .frame userID
  holds : ∀ post, s.hub.Holds post → GameEvent post.event → post.author ≠ .frame userID

variable {userID gameID : ℤ} {s s' : Realtime} {a : Act}

theorem honest_start (userID now : ℤ) : Honest userID (start now) := by
  constructor
  · intro post hpost
    cases hpost
  · intro topic post hpost
    cases hpost
  · rintro post (hmem | ⟨rest, ⟨⟩⟩ | ⟨conn, hmem⟩)
    · cases hmem
    · cases hmem

namespace Honest

/-- Publishing keeps the bus honest when the events speak for the author, in case the author
is the user. -/
theorem publishAll (h : Honest userID s) {author : Author} {events : List (String × Event)}
    (hbus : s'.bus = s.bus.publishAll author events)
    (hspeaks : author = .frame userID → ∀ e ∈ events,
      (e.1 = "connections" → SpeaksFor userID e.2) ∧
        (GameEvent e.2 → s.bus.subscribed e.1 = false))
    (hholds : ∀ post, s'.hub.Holds post → s.hub.Holds post) : Honest userID s' := by
  constructor
  · intro post hpost hauthor
    rw [hbus, Bus.connections_publishAll] at hpost
    rcases List.mem_append.mp hpost with hold | hnew
    · exact h.connections post hold hauthor
    · obtain ⟨e, he, rfl⟩ := List.mem_map.mp hnew
      obtain ⟨he, htopic⟩ := List.mem_filter.mp he
      exact (hspeaks hauthor e he).1 (of_decide_eq_true htopic)
  · intro topic post hpost hgame
    rw [hbus] at hpost
    rcases Bus.mem_feed_publishAll hpost with hold | ⟨e, he, rfl, hsub, rfl⟩
    · exact h.feed topic post hold hgame
    · intro hauthor
      rw [(hspeaks hauthor e he).2 hgame] at hsub
      cases hsub
  · exact fun post hpost => h.holds post (hholds post hpost)

theorem step (h : Honest userID s) (hstep : Step s a s') (hcandid : Candid userID s a s') :
    Honest userID s' := by
  cases hstep with
  | elapse | subscribed | startTimer | switchTurn | stopTimer | graceOver | forfeit =>
    exact ⟨h.connections, h.feed, h.holds⟩
  | hub hstep hoffer =>
    refine h.publishAll rfl (by rintro ⟨⟩) fun post hpost => ?_
    exact (hstep.holds hpost).resolve_right (hoffer post)
  | @feed topic post rest h' hfeed hstep =>
    constructor
    · exact h.connections
    · intro other q hq
      by_cases hother : other = topic
      · subst hother
        simp only [Function.update_self] at hq
        exact h.feed other q (hfeed ▸ List.mem_cons_of_mem _ hq)
      · exact h.feed other q (by simpa [hother] using hq)
    · intro q hq
      rcases hstep.holds hq with hold | hoffer
      · exact h.holds q hold
      · obtain rfl := Hub.Act.offer.inj hoffer
        exact h.feed topic post (hfeed ▸ List.mem_cons_self)
  | @frame conn allowed frame h' hopen hrequests =>
    refine h.publishAll rfl ?_ fun post hpost => hrequests.holds hpost
    intro hauthor
    obtain rfl := Author.frame.inj hauthor
    exact published_of_not_forges (hcandid rfl)
  | @publish topic event htopic =>
    have hbus : s.bus.publish .server topic event = s.bus.publishAll .server [(topic, event)] :=
      rfl
    exact h.publishAll hbus (by rintro ⟨⟩) fun _ hpost => hpost
  | listen hbus =>
    exact ⟨fun q hq => h.connections q (hbus ▸ List.mem_cons_of_mem _ hq), h.feed, h.holds⟩

end Honest

/-- A step that acts on an event, or writes one to a client, that a frame of the user has put
on the bus: the event is about the connections of the user, and about no game. -/
def Act.Heard (userID : ℤ) : Act → Prop
  | .listen post => post.author = .frame userID → SpeaksFor userID post.event
  | .hub (.write _ post) => GameEvent post.event → post.author ≠ .frame userID
  | _ => True

theorem Honest.heard (h : Honest userID s) (hstep : Step s a s') : a.Heard userID := by
  cases hstep with
  | listen hbus => exact h.connections _ (hbus ▸ List.mem_cons_self)
  | hub hstep hoffer =>
    cases hstep with
    | @write conn post rest hqueue =>
      exact h.holds post (.inr (.inr ⟨conn, hqueue ▸ List.mem_cons_self⟩))
    | _ => trivial
  | _ => trivial

end Realtime

def GameTimer.besides (userID : ℤ) (timer : GameTimer) : GameTimer :=
  { timer with
    disconnected := Function.update timer.disconnected userID false
    disconnectTimers := Function.update timer.disconnectTimers userID none }

def GameTimer.listen (now : Time) (e : Event) (timer : GameTimer) : GameTimer :=
  match connectionPayload.unmarshal e.payload with
  | none => timer
  | some userID =>
    if e.type = "user_disconnected" then timer.handleDisconnect now userID
    else if e.type = "user_connected" then timer.handleReconnect userID
    else timer

namespace GameTimer

variable {userID user : ℤ} {now : Time} {timer : GameTimer}

@[simp] theorem besides_besides : (timer.besides userID).besides userID = timer.besides userID := by
  simp [besides]

@[simp] theorem besides_handleDisconnect_self :
    (timer.handleDisconnect now userID).besides userID = timer.besides userID := by
  unfold handleDisconnect besides
  split_ifs <;> simp

@[simp] theorem besides_handleReconnect_self :
    (timer.handleReconnect userID).besides userID = timer.besides userID := by
  unfold handleReconnect besides
  split_ifs <;> simp

@[simp] theorem besides_graceOver_self :
    (timer.graceOver userID).besides userID = timer.besides userID := by
  simp [graceOver, besides]

theorem besides_handleDisconnect (now : Time) (user : ℤ) (timer : GameTimer) :
    (timer.handleDisconnect now user).besides userID =
      ((timer.besides userID).handleDisconnect now user).besides userID := by
  by_cases huser : user = userID
  · subst huser
    simp
  · unfold handleDisconnect besides
    split_ifs <;> simp [Function.update_comm huser]

theorem besides_handleReconnect (user : ℤ) (timer : GameTimer) :
    (timer.handleReconnect user).besides userID =
      ((timer.besides userID).handleReconnect user).besides userID := by
  by_cases huser : user = userID
  · subst huser
    simp
  · unfold handleReconnect besides
    split_ifs <;> simp [Function.update_comm huser]

theorem besides_graceOver (user : ℤ) (timer : GameTimer) :
    (timer.graceOver user).besides userID =
      ((timer.besides userID).graceOver user).besides userID := by
  by_cases huser : user = userID
  · subst huser
    simp
  · simp [graceOver, besides, Function.update_comm huser]

theorem besides_switchTurn (now : Time) (newTurn : ℤ) (timer : GameTimer) :
    (timer.switchTurn now newTurn).besides userID =
      ((timer.besides userID).switchTurn now newTurn).besides userID := by
  unfold switchTurn besides
  split_ifs <;> simp

theorem besides_listen (now : Time) (e : Event) (timer : GameTimer) :
    (timer.listen now e).besides userID =
      ((timer.besides userID).listen now e).besides userID := by
  unfold listen
  split
  · simp
  · split_ifs
    · exact besides_handleDisconnect now _ timer
    · exact besides_handleReconnect _ timer
    · simp

theorem besides_listen_of_speaksFor {e : Event} (h : SpeaksFor userID e) :
    (timer.listen now e).besides userID = timer.besides userID := by
  unfold listen
  split
  · rfl
  · rename_i user hpayload
    split_ifs with hd hc
    · obtain rfl := h user (.inr ⟨hd, hpayload⟩)
      simp
    · obtain rfl := h user (.inl ⟨hc, hpayload⟩)
      simp
    · rfl

end GameTimer

namespace GameTimerService

variable {userID gameID game user : ℤ} {now : Time} {s t : GameTimerService}

/-- The timer of a game with the grace period of a user blotted out. -/
def besides (userID gameID : ℤ) (s : GameTimerService) : Option GameTimer :=
  (s.timers gameID).map (·.besides userID)

theorem timers_listen (now : Time) (e : Event) (s : GameTimerService) :
    (s.listenForConnectionEvents now e).timers gameID =
      (s.timers gameID).map (·.listen now e) := by
  unfold listenForConnectionEvents GameTimer.listen
  cases connectionPayload.unmarshal e.payload with
  | none => simp
  | some user =>
    dsimp only
    split_ifs
    · rfl
    · rfl
    · simp

theorem besides_map {f : GameTimer → GameTimer} {o o' : Option GameTimer}
    (hf : ∀ timer : GameTimer,
      (f timer).besides userID = (f (timer.besides userID)).besides userID)
    (h : o.map (·.besides userID) = o'.map (·.besides userID)) :
    (o.map f).map (·.besides userID) = (o'.map f).map (·.besides userID) := by
  have hthrough (o : Option GameTimer) : (o.map f).map (·.besides userID) =
      (o.map (·.besides userID)).map fun timer => (f timer).besides userID := by
    rw [Option.map_map, Option.map_map]
    exact congrArg (o.map ·) (funext hf)
  rw [hthrough, hthrough, h]

theorem besides_listen (e : Event) (h : s.besides userID gameID = t.besides userID gameID) :
    (s.listenForConnectionEvents now e).besides userID gameID =
      (t.listenForConnectionEvents now e).besides userID gameID := by
  rw [besides, besides, timers_listen, timers_listen]
  exact besides_map (GameTimer.besides_listen now e) h

theorem besides_listen_of_speaksFor {e : Event} (h : SpeaksFor userID e) :
    (s.listenForConnectionEvents now e).besides userID gameID = s.besides userID gameID := by
  rw [besides, timers_listen, Option.map_map, besides]
  exact congrArg (fun f => (s.timers gameID).map f)
    (funext fun _ => GameTimer.besides_listen_of_speaksFor h)

theorem besides_startTimer (players : List Player) (startingTurn : ℤ)
    (h : s.besides userID gameID = t.besides userID gameID) :
    (s.startTimer now game players startingTurn).besides userID gameID =
      (t.startTimer now game players startingTurn).besides userID gameID := by
  have htimers (s : GameTimerService) : (s.startTimer now game players startingTurn).timers gameID =
      if gameID = game then
        some ((s.timers gameID).getD (.start now game players startingTurn))
      else s.timers gameID := by
    unfold startTimer
    cases hs : s.timers game <;> by_cases hgame : gameID = game <;>
      simp [hgame, hs]
  rw [besides, besides, htimers, htimers]
  split_ifs
  · rw [besides, besides] at h
    cases hs : s.timers gameID <;> cases ht : t.timers gameID <;> simp_all
  · exact h

theorem besides_switchTurn (newTurn : ℤ) (h : s.besides userID gameID = t.besides userID gameID) :
    (s.switchTurn now game newTurn).besides userID gameID =
      (t.switchTurn now game newTurn).besides userID gameID := by
  by_cases hgame : gameID = game
  · subst hgame
    rw [besides, besides, timers_switchTurn, timers_switchTurn]
    exact besides_map (GameTimer.besides_switchTurn now newTurn) h
  · rw [besides, besides, timers_switchTurn_of_ne hgame, timers_switchTurn_of_ne hgame]
    exact h

theorem besides_stopTimer (h : s.besides userID gameID = t.besides userID gameID) :
    (s.stopTimer game).besides userID gameID = (t.stopTimer game).besides userID gameID := by
  by_cases hgame : gameID = game
  · subst hgame
    simp [besides]
  · rw [besides, besides, timers_stopTimer_of_ne hgame, timers_stopTimer_of_ne hgame]
    exact h

theorem timers_graceOver : (s.graceOver game user).timers gameID =
    if gameID = game then (s.timers gameID).map (·.graceOver user) else s.timers gameID := by
  unfold graceOver
  cases hs : s.timers game <;> by_cases hgame : gameID = game <;> simp [hgame, hs]

theorem besides_graceOver (h : s.besides userID gameID = t.besides userID gameID) :
    (s.graceOver game user).besides userID gameID =
      (t.graceOver game user).besides userID gameID := by
  rw [besides, besides, timers_graceOver, timers_graceOver]
  split_ifs
  · exact besides_map (GameTimer.besides_graceOver user) h
  · exact h

theorem besides_graceOver_self :
    (s.graceOver game userID).besides userID gameID = s.besides userID gameID := by
  rw [besides, timers_graceOver, besides]
  split_ifs
  · simp [Option.map_map, Function.comp_def]
  · rfl

end GameTimerService

/-- What a timer says about the connection of a user, when the game has one. -/
def GameTimerService.disconnectedIn (gameID userID : ℤ) (s : GameTimerService) : Option Bool :=
  (s.timers gameID).map (·.disconnected userID)

theorem GameTimerService.eq_of_besides {s t : GameTimerService} {userID gameID user : ℤ}
    (h : s.besides userID gameID = t.besides userID gameID) (huser : user ≠ userID) :
    s.disconnectedIn gameID user = t.disconnectedIn gameID user ∧
      s.deadline gameID user = t.deadline gameID user := by
  have hflag (s : GameTimerService) : s.disconnectedIn gameID user =
      (s.besides userID gameID).map (·.disconnected user) := by
    simp [disconnectedIn, besides, GameTimer.besides, Function.comp_def, huser]
  have hgrace (s : GameTimerService) : s.deadline gameID user =
      (s.besides userID gameID).bind (·.disconnectTimers user) := by
    simp [deadline, besides, GameTimer.besides, Option.bind_map, huser]
  rw [hflag, hflag, hgrace, hgrace, h]
  exact ⟨rfl, rfl⟩

namespace Realtime

/-- What of a state the frames of a user should not bear on: the sessions of all users, the
events that other frames and the server put on the bus, and the timer of a game. -/
structure View where
  now : Time
  userConns : ℤ → Option (Finset Connection)
  posts : List Post
  timer : Option GameTimer

def view (userID gameID : ℤ) (s : Realtime) : View where
  now := s.now
  userConns := s.hub.manager.userConns
  posts := s.bus.connections.filter fun post => post.author ≠ .frame userID
  timer := s.timers.besides userID gameID

/-- The steps that are a user's own, or only deliver events to clients: frames, the handling
of what they put on the bus, and the end of the user's grace periods. -/
def Act.apart (userID : ℤ) : Act → Bool
  | .frame conn _ _ => conn.userID = userID
  | .listen post => post.author = .frame userID
  | .graceOver _ user => user = userID
  | .forfeit _ user => user = userID
  | .hub (.register _) => false
  | .hub (.unregister _) => false
  | .hub _ => true
  | .subscribed _ => true
  | .feed _ => true
  | .publish _ _ => true
  | _ => false

/-- A step of a run in which the user is honest, that does not end the game for the user. -/
def Fair (userID gameID : ℤ) (s : Realtime) (a : Act) (s' : Realtime) : Prop :=
  (Step s a s' ∧ Honest userID s) ∧ a ≠ .forfeit gameID userID

variable {userID gameID : ℤ}

theorem view_eq {s t : Realtime} (hnow : s.now = t.now)
    (hconns : s.hub.manager.userConns = t.hub.manager.userConns)
    (hposts : s.bus.connections.filter (fun post => post.author ≠ .frame userID) =
      t.bus.connections.filter fun post => post.author ≠ .frame userID)
    (htimer : s.timers.besides userID gameID = t.timers.besides userID gameID) :
    view userID gameID s = view userID gameID t := by
  rw [view, view, hnow, hconns, hposts, htimer]

theorem filter_aboutConnections_frame (events : List (String × Event)) :
    (Bus.aboutConnections (.frame userID) events).filter
      (fun post => post.author ≠ .frame userID) = [] := by
  rw [List.filter_eq_nil_iff]
  intro post hpost
  obtain ⟨e, -, rfl⟩ := List.mem_map.mp hpost
  simp

/-- Serving the clients leaves the sessions as they are, and publishes nothing. -/
theorem serve_of_apart {a : Hub.Act} (h : Act.apart userID (.hub a) = true) (m : Manager) :
    (a.serve m).userConns = m.userConns ∧ a.published m = [] := by
  cases a with
  | register | unregister => cases h
  | _ => exact ⟨rfl, rfl⟩

theorem hides_fair : Hides (Fair userID gameID) (Act.apart userID) (view userID gameID) := by
  rintro s a s' ⟨⟨hstep, hhonest⟩, hgoes⟩ hapart
  cases hstep with
  | elapse | startTimer | switchTurn | stopTimer => cases hapart
  | subscribed => rfl
  | feed hfeed hstep => exact view_eq rfl (congrArg Manager.userConns hstep.manager_eq) rfl rfl
  | publish htopic =>
    refine view_eq rfl rfl ?_ rfl
    rw [Bus.publish_eq, if_neg htopic]
  | hub hstep hoffer =>
    obtain ⟨hconns, hpublished⟩ := serve_of_apart hapart s.hub.manager
    refine view_eq rfl ?_ ?_ rfl
    · rw [hstep.manager_eq, hconns]
    · rw [hpublished, Bus.publishAll, List.foldl_nil]
  | frame hopen hrequests =>
    obtain rfl := of_decide_eq_true hapart
    refine view_eq rfl (congrArg Manager.userConns hrequests.manager_eq) ?_ rfl
    rw [Bus.connections_publishAll, List.filter_append, filter_aboutConnections_frame,
      List.append_nil]
  | @listen post rest hbus =>
    have hauthor : post.author = .frame userID := of_decide_eq_true hapart
    have hspeaks := hhonest.connections post (hbus ▸ List.mem_cons_self) hauthor
    refine view_eq rfl rfl ?_ (GameTimerService.besides_listen_of_speaksFor hspeaks)
    rw [hbus, List.filter_cons_of_neg (by simp [hauthor])]
  | graceOver hexpired =>
    obtain rfl := of_decide_eq_true hapart
    exact view_eq rfl rfl rfl GameTimerService.besides_graceOver_self
  | @forfeit game user hfiring =>
    obtain rfl := of_decide_eq_true hapart
    have hgame : gameID ≠ game := fun heq => hgoes (by rw [heq])
    refine view_eq rfl rfl rfl ?_
    rw [GameTimerService.besides, GameTimerService.timers_stopTimer_of_ne hgame,
      GameTimerService.besides]

/-- The events of a session that comes or goes depend on the sessions of its user. -/
theorem published_congr {a : Hub.Act} {m m' : Manager} (h : m.userConns = m'.userConns) :
    a.published m = a.published m' := by
  cases a with
  | register conn =>
    have hfirst : m.firstSession conn = m'.firstSession conn := by
      rw [Manager.firstSession, Manager.firstSession, Manager.sessions, Manager.sessions, h]
    rw [Hub.Act.published, Manager.registerEvents, hfirst]
    rfl
  | unregister conn =>
    have hlast : m.lastSession conn = m'.lastSession conn := by
      rw [Manager.lastSession, Manager.lastSession, h]
    rw [Hub.Act.published, Manager.unregisterEvents, hlast]
    rfl
  | _ => rfl

theorem userConns_serve_congr {a : Hub.Act} {m m' : Manager} (h : m.userConns = m'.userConns) :
    (a.serve m).userConns = (a.serve m').userConns := by
  cases a with
  | register conn => simp only [Hub.Act.serve, Manager.register, Manager.sessions, h]
  | unregister conn =>
    simp only [Hub.Act.serve, Manager.unregister, Manager.unsubscribeAll, h]
  | _ => exact h

theorem determines_fair :
    Determines (Fair userID gameID) (Act.apart userID) (view userID gameID) := by
  rintro s t a s' t' ⟨⟨hs, -⟩, -⟩ ⟨⟨ht, -⟩, -⟩ hapart hview
  obtain ⟨hnow, hconns, hposts, htimer⟩ := View.mk.inj hview
  cases hs with
  | subscribed | feed | publish => cases hapart
  | elapse hd =>
    cases ht with
    | elapse => exact view_eq (by rw [hnow]) hconns hposts htimer
  | hub hstep hoffer =>
    cases ht with
    | hub hstep' hoffer' =>
      refine view_eq hnow ?_ ?_ htimer
      · rw [hstep.manager_eq, hstep'.manager_eq]
        exact userConns_serve_congr hconns
      · rw [Bus.connections_publishAll, Bus.connections_publishAll, List.filter_append,
          List.filter_append, hposts, published_congr hconns]
  | frame hopen hrequests =>
    cases ht with
    | frame hopen' hrequests' =>
      refine view_eq hnow ?_ ?_ htimer
      · rw [hrequests.manager_eq, hrequests'.manager_eq]
        exact hconns
      · rw [Bus.connections_publishAll, Bus.connections_publishAll, List.filter_append,
          List.filter_append, hposts]
  | @listen post rest hbus =>
    cases ht with
    | @listen _ rest' hbus' =>
      have hauthor : ¬ post.author = .frame userID := of_decide_eq_false hapart
      refine view_eq hnow hconns ?_ ?_
      · rw [hbus, hbus', List.filter_cons_of_pos (by simpa using hauthor),
          List.filter_cons_of_pos (by simpa using hauthor)] at hposts
        exact List.cons.inj hposts |>.2
      · rw [hnow]
        exact GameTimerService.besides_listen post.event htimer
  | startTimer =>
    cases ht with
    | startTimer =>
      refine view_eq hnow hconns hposts ?_
      rw [hnow]
      exact GameTimerService.besides_startTimer _ _ htimer
  | switchTurn =>
    cases ht with
    | switchTurn =>
      refine view_eq hnow hconns hposts ?_
      rw [hnow]
      exact GameTimerService.besides_switchTurn _ htimer
  | stopTimer =>
    cases ht with
    | stopTimer => exact view_eq hnow hconns hposts (GameTimerService.besides_stopTimer htimer)
  | graceOver =>
    cases ht with
    | graceOver => exact view_eq hnow hconns hposts (GameTimerService.besides_graceOver htimer)
  | forfeit =>
    cases ht with
    | forfeit => exact view_eq hnow hconns hposts (GameTimerService.besides_stopTimer htimer)

def Act.FrameOf (userID : ℤ) : Act → Prop
  | .frame conn _ _ => conn.userID = userID
  | _ => False

/-- The user is heard of in no name but the user's own, and the other users of every game that
the user does not forfeit are where they are in a run with the same steps, except that no
session of the user sends a frame. -/
structure Confined (userID : ℤ) (now : Time) (run : List (Act × Realtime)) : Prop where
  heard : ∀ step ∈ run, step.1.Heard userID
  timers : ∀ gameID run', Along Step (start now) run' →
    (∀ step ∈ run', ¬ step.1.FrameOf userID) →
    shown (Act.apart userID) run = shown (Act.apart userID) run' →
    (∀ step ∈ run ++ run', step.1 ≠ .forfeit gameID userID) →
    ∀ user ≠ userID,
      (last (start now) run).timers.disconnectedIn gameID user =
          (last (start now) run').timers.disconnectedIn gameID user ∧
        (last (start now) run).timers.deadline gameID user =
          (last (start now) run').timers.deadline gameID user

theorem along_honest {now : Time} {run : List (Act × Realtime)}
    (h : Along Step (start now) run) (hcandid : Along (Candid userID) (start now) run) :
    Along (fun s a s' => Step s a s' ∧ Honest userID s) (start now) run :=
  ((h.and hcandid).with_inv (honest_start userID now) fun _ _ _ hs hstep =>
    hs.step hstep.1 hstep.2).imp fun _ _ _ hstep => ⟨hstep.1.1, hstep.2⟩

/-- Whatever frames the sessions send, a user whose frames do not forge is heard of in the
user's own name only, and does not interfere with the others. -/
theorem frames_speak_for_their_user {userID now : ℤ} {run : List (Act × Realtime)}
    (h : Along Step (start now) run) (hcandid : Along (Candid userID) (start now) run) :
    Confined userID now run := by
  have hhonest := along_honest h hcandid
  constructor
  · exact along_label_iff.mp (hhonest.imp fun _ _ _ hstep => hstep.2.heard hstep.1)
  · intro gameID run' h' hsilent hshown hgoes user huser
    have hcandid' : Along (Candid userID) (start now) run' := by
      have hlabels : Along (fun _ a _ => ¬ Act.FrameOf userID a) (start now) run' :=
        along_label_iff.mpr hsilent
      apply hlabels.imp
      intro s a s' hframe
      cases a with
      | frame conn allowed frame => exact fun hconn => absurd hconn hframe
      | _ => trivial
    have hfair : Along (Fair userID gameID) (start now) run :=
      hhonest.and (along_label_iff.mpr fun step hmem => hgoes step (List.mem_append_left _ hmem))
    have hfair' : Along (Fair userID gameID) (start now) run' :=
      (along_honest h' hcandid').and
        (along_label_iff.mpr fun step hmem => hgoes step (List.mem_append_right _ hmem))
    have hview := view_last_eq hides_fair determines_fair hfair hfair' rfl hshown
    exact GameTimerService.eq_of_besides (View.mk.inj hview).2.2.2 huser

/-- A session that joins the page of a game speaks for its user. -/
theorem frames_speak_for_their_user_join :
    ∃ run s, (Act.frame Hub.ann true (joinPage "game:1"), s) ∈ run ∧
      Along Step (start 0) run ∧ Confined 1 0 run := by
  have hjoin : Joins (joinPage "game:1") "game:1" := joins_joinPage (by decide)
  have hrun : Along Step (start 0) [(.hub (.register Hub.ann), _),
      (.frame Hub.ann true (joinPage "game:1"), _)] :=
    ⟨single_opens Hub.ann, single_joins Hub.ann _ ∅ _ hjoin (Nat.zero_lt_succ 99), trivial⟩
  refine ⟨_, _, List.mem_cons_of_mem _ List.mem_cons_self, hrun, frames_speak_for_their_user hrun ⟨trivial, ?_, trivial⟩⟩
  rintro - ⟨event, hevent, hforges⟩
  obtain ⟨_, hdecoded, htype, htopic⟩ := hjoin
  obtain rfl := Option.some.inj (hevent.symm.trans hdecoded)
  rcases hforges with ⟨hconnections, -⟩ | ⟨hgame | hgame, -⟩
  · exact absurd (htopic.symm.trans hconnections) (by decide)
  · exact absurd (htype.symm.trans hgame) (by decide)
  · exact absurd (htype.symm.trans hgame) (by decide)

/-- A session of one user tells the timer service that another user has disconnected. -/
theorem forged_disconnect_is_heard :
    ¬ ∀ run, Along Step (start 0) run → Confined 1 0 run := by
  intro h
  have hrun : Along Step (start 0) [(.hub (.register Hub.ann), _),
      (.frame Hub.ann true (eventCodec.marshal (userDisconnected 2)), _),
      (.listen ⟨userConnected 1, .server⟩, _), (.listen ⟨userDisconnected 2, .frame 1⟩, _)] :=
    ⟨single_opens Hub.ann, single_forges Hub.ann _ ∅ _ 2, .listen rfl, .listen rfl, trivial⟩
  have hspeaks : SpeaksFor 1 (userDisconnected 2) :=
    (h _ hrun).heard _ (List.mem_cons_of_mem _ (List.mem_cons_of_mem _ (List.mem_cons_of_mem _
      List.mem_cons_self))) rfl
  exact absurd (hspeaks 2 (.inr (by simp))) (by decide)

end Realtime

end DotsAndBoxes
