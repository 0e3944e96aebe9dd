import DotsAndBoxes.Library.Channels
import DotsAndBoxes.Library.Runs
import DotsAndBoxes.Lobby.Changes
import DotsAndBoxes.Web.LobbyPage

/-! # The updates that come to the page of a lobby

The page of a lobby fetches the lobby once and goes by the updates from then on. An update is
published twice, on the topic of the lobby and on the topic of all lobbies, and both copies name
the topic of the lobby. The two topics are different channels of the bus, and nothing orders what
comes on the one against what comes on the other, so the page may show an older list of players
after a newer one. The calls about the lobby overlap as well: each loads the lobby, writes it and
makes its two publications, and others may act in between. As long as they publish in the order
in which they have written, the page shows the stored lobby once nothing is on its way, and
whoever starts the game from it starts it for the players who are stored.
-/

namespace DotsAndBoxes.Web.LobbyPage

open Tagged Runs Channels

/-- The topics that the hub listens to, and the rooms that the session of the page is in. -/
structure Wiring where
  heard : String → Bool
  rooms : String → Bool

/-- The stored lobbies, the changes that calls have decided on, those that are written, in that
order and with how many of their publications are made, the events that are on their way on each
topic of the bus, and the page. -/
structure System where
  lobbies : String → Option Lobby
  decided : List LobbyChange
  written : List (LobbyChange × ℕ)
  queues : String → List Event
  page : LobbyPage

inductive Act where
  | load (req : LobbyRequest)
  | write (i : ℕ)
  | publish (i : ℕ)
  | expire (expired : String)
  | startGame (lobbyID : String) (gameID : ℤ) (playerIDs : List ℤ)
  | deliver (channel : String)

namespace System

def write (i : ℕ) (change : LobbyChange) (s : System) : System :=
  { s with
    lobbies := change.write s.lobbies
    decided := s.decided.eraseIdx i
    written := s.written ++ [(change, 0)] }

def publish (w : Wiring) (publications : List Publication) (s : System) : System :=
  { s with
    queues := fun channel => s.queues channel ++
      if w.heard channel then (publications.filter (·.channel = channel)).map (·.event) else [] }

end System

/-- A call loads its lobby and is refused or decides on a change, writes the change, and makes its
next publication. A stored lobby expires, a game is started, or the hub passes an event on to the
room that the event names. -/
inductive Step (stamp : Time → String) (w : Wiring) (lobbyID : String) :
    System → Act → System → Prop where
  | refused {s req e} (h : req.change (s.lobbies req.lobbyID) = .error e) :
      Step stamp w lobbyID s (.load req) s
  | loaded {s req change} (h : req.change (s.lobbies req.lobbyID) = .ok change) :
      Step stamp w lobbyID s (.load req) { s with decided := s.decided ++ [change] }
  | write {s i change} (h : s.decided[i]? = some change) :
      Step stamp w lobbyID s (.write i) (s.write i change)
  | publish {s i change n p} (h : s.written[i]? = some (change, n))
      (hp : (change.publications stamp)[n]? = some p) :
      Step stamp w lobbyID s (.publish i)
        (System.publish w [p] { s with written := s.written.set i (change, n + 1) })
  | expire {s expired} : Step stamp w lobbyID s (.expire expired)
      { s with lobbies := Function.update s.lobbies expired none }
  | startGame {s startedID gameID playerIDs} :
      Step stamp w lobbyID s (.startGame startedID gameID playerIDs)
        (s.publish w (publishLobbyGameStarted startedID gameID playerIDs))
  | deliver {s channel event rest} (h : s.queues channel = event :: rest) :
      Step stamp w lobbyID s (.deliver channel)
        { s with
          queues := Function.update s.queues channel rest
          page := if w.rooms event.topic then s.page.handle lobbyID event else s.page }

/-- The publications that calls have still to make, those of an earlier write before those of a
later one. -/
def unpublished (stamp : Time → String) (written : List (LobbyChange × ℕ)) : List Publication :=
  written.flatMap fun call => (call.1.publications stamp).drop call.2

/-- The updates of the lobby among publications, on one topic of the bus. -/
def updatesOn (lobbyID channel : String) (publications : List Publication) : List Json :=
  (publications.filter (·.channel = channel)).filterMap fun p => update? lobbyID p.event

/-- The updates of the lobby that are to come on a topic: those that are on their way, and those
that are still to be published where the hub listens. -/
def System.coming (stamp : Time → String) (w : Wiring) (lobbyID : String) (s : System)
    (channel : String) : List Json :=
  (s.queues channel).filterMap (update? lobbyID) ++
    if w.heard channel then updatesOn lobbyID channel (unpublished stamp s.written) else []

/-- The request creates the lobby. A lobby gets a new id. -/
def Act.Creates (lobbyID : String) (a : Act) : Prop :=
  ∃ now hostID username name limit isPrivate boardSize,
    a = .load (.create now lobbyID hostID username name limit isPrivate boardSize)

def Updates (lobbyID : String) (s : System) (a : Act) : Prop :=
  ∃ i l, a = .write i ∧ s.decided[i]? = some (.updated lobbyID l)

/-- No update of the lobby is published on a topic before one that was written earlier. -/
def InOrder (stamp : Time → String) (lobbyID : String) (s : System) : Act → System → Prop
  | .publish i, _ => ∀ call, s.written[i]? = some call →
    ∀ p, (call.1.publications stamp)[call.2]? = some p → (update? lobbyID p.event).isSome →
      updatesOn lobbyID p.channel (unpublished stamp (s.written.take i)) = []
  | _, _ => True

/-- A change goes with the lobby that was created as `l₀`, with whatever players. -/
def Fits (lobbyID : String) (l₀ : Lobby) : LobbyChange → Prop
  | .created l => l.lobbyID ≠ lobbyID
  | .updated updatedID l =>
    l.lobbyID = updatedID ∧ (updatedID = lobbyID → l = { l₀ with players := l.players })
  | .deleted _ => True

/-- The page has been opened when the lobby was created as `l₀`, with whatever players. -/
structure Opened (stamp seconds : Time → String) (w : Wiring) (lobbyID : String) (l₀ : Lobby)
    (s : System) : Prop where
  keyed : ∀ id l, s.lobbies id = some l → l.lobbyID = id
  settings : ∀ l, s.lobbies lobbyID = some l → l = { l₀ with players := l.players }
  decided : ∀ change ∈ s.decided, Fits lobbyID l₀ change
  shown : ∃ players, s.page.cached = some (LobbyHandler.responseWith seconds l₀ players)
  carried : ∀ channel, s.coming stamp w lobbyID channel ≠ [] → w.heard channel = true ∧
    (channel = lobbyTopic lobbyID ∨ channel = "global:lobbies")

/-- What the page shows, unless it has gone on to a game, comes to be the stored lobby. -/
def ComesToShow (stamp seconds : Time → String) (w : Wiring) (lobbyID : String) (l₀ : Lobby)
    (s : System) : Prop :=
  s.page.goneTo = none → ∀ copy,
    s.page.cached = some (LobbyHandler.responseWith seconds l₀ copy) →
      ∃ players, Converging players copy (s.coming stamp w lobbyID) ∧
        ∀ l, s.lobbies lobbyID = some l → players = LobbyPlayer.codec.slice.marshal l.players

variable {stamp seconds : Time → String} {w : Wiring} {lobbyID channel : String} {l₀ l : Lobby}
  {s s' : System} {a : Act} {req : LobbyRequest} {change : LobbyChange} {page : LobbyPage}
  {event : Event} {rest : List Event} {p : Publication} {publications : List Publication}
  {written written' : List (LobbyChange × ℕ)} {i n : ℕ}

@[simp] theorem updatesOn_append (publications publications' : List Publication) :
    updatesOn lobbyID channel (publications ++ publications') =
      updatesOn lobbyID channel publications ++ updatesOn lobbyID channel publications' := by
  simp [updatesOn]

theorem updatesOn_of_none (h : ∀ p ∈ publications, update? lobbyID p.event = none) :
    updatesOn lobbyID channel publications = [] :=
  List.filterMap_eq_nil_iff.mpr fun p hp => h p (List.mem_filter.mp hp).1

/-- A publication on another topic, or without an update of the lobby, brings none. -/
theorem updatesOn_singleton (h : updatesOn lobbyID channel [p] ≠ []) :
    p.channel = channel ∧ (update? lobbyID p.event).isSome := by
  by_cases hchannel : p.channel = channel
  · cases hupdate : update? lobbyID p.event with
    | none => simp [updatesOn, hchannel, hupdate] at h
    | some players => exact ⟨hchannel, rfl⟩
  · simp [updatesOn, hchannel] at h

/-- The update of a lobby goes to the topic of the lobby and to that of all lobbies. -/
theorem updatesOn_lobbyUpdated (lobbyID channel : String) (players : List LobbyPlayer) :
    updatesOn lobbyID channel (LobbyService.lobbyUpdated lobbyID
      (LobbyUpdatedPayload.codec.marshal ⟨lobbyID, players, "waiting"⟩)) =
      if channel = lobbyTopic lobbyID ∨ channel = "global:lobbies" then
        [LobbyPlayer.codec.slice.marshal players]
      else [] := by
  have hne : lobbyTopic lobbyID ≠ "global:lobbies" := by
    intro h
    have hhead := congrArg (fun t => t.toList.head?) h
    simp [lobbyTopic] at hhead
  have hupdate (p : Publication) (hp : p ∈ LobbyService.lobbyUpdated lobbyID
      (LobbyUpdatedPayload.codec.marshal ⟨lobbyID, players, "waiting"⟩)) :
      update? lobbyID p.event = some (LobbyPlayer.codec.slice.marshal players) :=
    update?_lobbyUpdated hp
  simp only [LobbyService.lobbyUpdated, List.mem_cons, List.not_mem_nil, or_false,
    forall_eq_or_imp, forall_eq] at hupdate
  unfold updatesOn LobbyService.lobbyUpdated
  by_cases hown : channel = lobbyTopic lobbyID
  · subst hown
    simp [hne, hne.symm, hupdate.1]
  · by_cases hall : channel = "global:lobbies"
    · subst hall
      simp [hne, hupdate.2]
    · simp [hown, hall, Ne.symm hown, Ne.symm hall]

theorem unpublished_append (written written' : List (LobbyChange × ℕ)) :
    unpublished stamp (written ++ written') =
      unpublished stamp written ++ unpublished stamp written' :=
  List.flatMap_append

/-- A call that has still to make a publication does so before those of later writes. -/
theorem unpublished_split (h : written[i]? = some (change, n))
    (hp : (change.publications stamp)[n]? = some p) : ∃ later,
      unpublished stamp written = unpublished stamp (written.take i) ++ p :: later ∧
      unpublished stamp (written.set i (change, n + 1)) =
        unpublished stamp (written.take i) ++ later := by
  obtain ⟨hi, hcall⟩ := List.getElem?_eq_some_iff.mp h
  obtain ⟨hn, rfl⟩ := List.getElem?_eq_some_iff.mp hp
  refine ⟨(change.publications stamp).drop (n + 1) ++ unpublished stamp (written.drop (i + 1)),
    ?_, ?_⟩
  · conv_lhs => rw [← List.take_append_drop i written, List.drop_eq_getElem_cons hi, hcall]
    rw [unpublished_append]
    congr 1
    rw [unpublished, List.flatMap_cons, List.drop_eq_getElem_cons hn]
    rfl
  · rw [List.set_eq_take_append_cons_drop, if_pos hi, unpublished_append]
    rfl

theorem pending_publish (publications : List Publication) (channel : String) :
    ((s.publish w publications).queues channel).filterMap (update? lobbyID) =
      (s.queues channel).filterMap (update? lobbyID) ++
        if w.heard channel then updatesOn lobbyID channel publications else [] := by
  unfold System.publish
  dsimp only
  rw [List.filterMap_append]
  split
  · rw [List.filterMap_map]
    rfl
  · rfl

theorem coming_publish (h : s.written[i]? = some (change, n))
    (hp : (change.publications stamp)[n]? = some p)
    (hfirst : (update? lobbyID p.event).isSome →
      updatesOn lobbyID p.channel (unpublished stamp (s.written.take i)) = []) :
    (System.publish w [p] { s with written := s.written.set i (change, n + 1) }).coming stamp w
      lobbyID = s.coming stamp w lobbyID := by
  funext channel
  obtain ⟨later, hbefore, hafter⟩ := unpublished_split h hp
  unfold System.coming
  rw [pending_publish, List.append_assoc]
  congr 1
  change _ ++ (if w.heard channel = true then
    updatesOn lobbyID channel (unpublished stamp (s.written.set i (change, n + 1))) else []) = _
  cases w.heard channel with
  | false => rfl
  | true =>
    simp only [if_true]
    rw [hbefore, hafter, List.append_cons]
    simp only [updatesOn_append]
    by_cases hnone : updatesOn lobbyID channel [p] = []
    · simp [hnone]
    · obtain ⟨rfl, hupdate⟩ := updatesOn_singleton hnone
      simp [hfirst hupdate]

theorem coming_write : (s.write i change).coming stamp w lobbyID channel =
    s.coming stamp w lobbyID channel ++
      if w.heard channel then updatesOn lobbyID channel (change.publications stamp) else [] := by
  unfold System.coming System.write
  rw [unpublished_append, updatesOn_append, List.append_assoc]
  congr 1
  simp only [unpublished, List.flatMap_cons, List.flatMap_nil, List.drop_zero, List.append_nil]
  cases w.heard channel <;> rfl

theorem coming_publish_of_none (h : ∀ p ∈ publications, update? lobbyID p.event = none) :
    (s.publish w publications).coming stamp w lobbyID = s.coming stamp w lobbyID := by
  funext channel
  unfold System.coming
  rw [pending_publish, updatesOn_of_none h]
  simp [System.publish]

/-- An event that is delivered was the first to come on its topic, if it is an update. -/
theorem coming_deliver (stamp : Time → String) (w : Wiring) (lobbyID : String)
    (h : s.queues channel = event :: rest) (page : LobbyPage) :
    let s' : System := { s with queues := Function.update s.queues channel rest, page }
    s.coming stamp w lobbyID channel =
        (update? lobbyID event).toList ++ s'.coming stamp w lobbyID channel ∧
      s'.coming stamp w lobbyID =
        Function.update (s.coming stamp w lobbyID) channel (s'.coming stamp w lobbyID channel) := by
  intro s'
  constructor
  · simp only [s', System.coming, Function.update_self, h]
    cases hupdate : update? lobbyID event with
    | none => rw [List.filterMap_cons_none hupdate, Option.toList_none, List.nil_append]
    | some players => rw [List.filterMap_cons_some hupdate, Option.toList_some, List.cons_append,
        List.singleton_append]
  · funext other
    by_cases hother : other = channel
    · subst hother
      rw [Function.update_self]
    · simp only [s', System.coming, Function.update_of_ne hother]

/-- An update of the lobby is stored and is to come on the topics in use for it. Any other change
is no update of the lobby, and leaves the stored lobby alone or takes it away. -/
theorem write_cases (stamp : Time → String) (w : Wiring) (i : ℕ) (s : System)
    (hfits : Fits lobbyID l₀ change) :
    let s' := s.write i change
    (∃ players, change = .updated lobbyID { l₀ with players } ∧
      s'.lobbies lobbyID = some { l₀ with players } ∧
      ∀ channel, s'.coming stamp w lobbyID channel = s.coming stamp w lobbyID channel ++
        if w.heard channel = true ∧ (channel = lobbyTopic lobbyID ∨ channel = "global:lobbies") then
          [LobbyPlayer.codec.slice.marshal players]
        else []) ∨
    ((∀ l, change ≠ .updated lobbyID l) ∧ s'.coming stamp w lobbyID = s.coming stamp w lobbyID ∧
      (s'.lobbies lobbyID = s.lobbies lobbyID ∨ s'.lobbies lobbyID = none)) := by
  intro s'
  have hcoming (hnone : ∀ p ∈ change.publications stamp, update? lobbyID p.event = none) :
      s'.coming stamp w lobbyID = s.coming stamp w lobbyID := by
    funext channel
    rw [coming_write, updatesOn_of_none hnone, ite_self, List.append_nil]
  cases change with
  | created l =>
    refine .inr ⟨by simp, hcoming ?_, .inl (Function.update_of_ne (Ne.symm hfits) _ _)⟩
    intro p hp
    obtain rfl := List.mem_singleton.mp hp
    exact update?_of_type (by simp)
  | updated updatedID l =>
    obtain ⟨rfl, hsettings⟩ := hfits
    by_cases hsame : l.lobbyID = lobbyID
    · subst hsame
      refine .inl ⟨l.players, congrArg _ (hsettings rfl), ?_, ?_⟩
      · rw [← hsettings rfl]
        exact Function.update_self ..
      · intro channel
        rw [coming_write, LobbyChange.publications, updatesOn_lobbyUpdated]
        cases w.heard channel <;> simp
    · refine .inr ⟨by simp [hsame], hcoming ?_, .inl (Function.update_of_ne (Ne.symm hsame) _ _)⟩
      intro p hp
      apply update?_of_topic
      rw [topic_of_lobbyUpdated hp, Ne, lobbyTopic_inj]
      exact hsame
  | deleted deletedID =>
    refine .inr ⟨by simp, hcoming ?_, ?_⟩
    · intro p hp
      obtain rfl := List.mem_singleton.mp hp
      exact update?_of_type (by simp)
    · by_cases hsame : lobbyID = deletedID
      · subst hsame
        exact .inr (Function.update_self ..)
      · exact .inl (Function.update_of_ne hsame _ _)

theorem fits_change (h : req.change (s.lobbies req.lobbyID) = .ok change)
    (hkeyed : ∀ id l, s.lobbies id = some l → l.lobbyID = id)
    (hsettings : ∀ l, s.lobbies lobbyID = some l → l = { l₀ with players := l.players })
    (hfresh : ¬ Act.Creates lobbyID (.load req)) : Fits lobbyID l₀ change := by
  have hfrom := LobbyChange.from_change h
  cases hfrom with
  | @created now createdID hostID username name limit isPrivate boardSize l hreq hid =>
    rintro rfl
    subst hid hreq
    exact hfresh ⟨now, hostID, username, name, limit, isPrivate, boardSize, rfl⟩
  | @updated l players hl =>
    refine ⟨hkeyed _ l hl, ?_⟩
    intro hsame
    rw [hsettings l (hsame ▸ hl)]
  | deleted => trivial

theorem keyed_write {lobbies : String → Option Lobby}
    (hkeyed : ∀ id l, lobbies id = some l → l.lobbyID = id) (id : String) (l : Lobby)
    (hl : change.write lobbies id = some l) : l.lobbyID = id := by
  have hupdate {changed : String} {stored : Option Lobby}
      (hstored : ∀ l, stored = some l → l.lobbyID = changed)
      (hl : Function.update lobbies changed stored id = some l) : l.lobbyID = id := by
    by_cases hid : id = changed
    · subst hid
      rw [Function.update_self] at hl
      exact hstored l hl
    · rw [Function.update_of_ne hid] at hl
      exact hkeyed id l hl
  cases change with
  | created | updated => exact hupdate (by rintro _ ⟨⟩; rfl) hl
  | deleted => exact hupdate (by rintro _ ⟨⟩) hl

theorem Opened.write (h : Opened stamp seconds w lobbyID l₀ s) (hfits : Fits lobbyID l₀ change)
    (i : ℕ) : Opened stamp seconds w lobbyID l₀ (s.write i change) := by
  refine ⟨keyed_write h.keyed, ?_, ?_, h.shown, ?_⟩
  · intro l hl
    rcases write_cases stamp w i s hfits with ⟨players, -, hwritten, -⟩ | ⟨-, -, hsame | hnone⟩
    · obtain rfl := Option.some.inj (hwritten.symm.trans hl)
      rfl
    · exact h.settings l (hsame ▸ hl)
    · rw [hnone] at hl
      cases hl
  · intro other hmem
    exact h.decided other (List.mem_of_mem_eraseIdx hmem)
  · intro channel hne
    rcases write_cases stamp w i s hfits with ⟨players, -, -, hcoming⟩ | ⟨-, hcoming, -⟩
    · by_cases hcarried : w.heard channel = true ∧
        (channel = lobbyTopic lobbyID ∨ channel = "global:lobbies")
      · exact hcarried
      · rw [hcoming, if_neg hcarried, List.append_nil] at hne
        exact h.carried channel hne
    · exact h.carried channel (hcoming ▸ hne)

theorem Opened.step (h : Opened stamp seconds w lobbyID l₀ s)
    (hstep : Step stamp w lobbyID s a s') (hfresh : ¬ a.Creates lobbyID)
    (horder : InOrder stamp lobbyID s a s') : Opened stamp seconds w lobbyID l₀ s' := by
  cases hstep with
  | refused => exact h
  | loaded hchange =>
    refine ⟨h.keyed, h.settings, ?_, h.shown, h.carried⟩
    intro change hmem
    rcases List.mem_append.mp hmem with hold | hnew
    · exact h.decided change hold
    · obtain rfl := List.mem_singleton.mp hnew
      exact fits_change hchange h.keyed h.settings hfresh
  | @write i change hdecided =>
    exact h.write (h.decided change (List.mem_of_getElem? hdecided)) i
  | @publish i change n p hwritten hp =>
    refine ⟨h.keyed, h.settings, h.decided, h.shown, ?_⟩
    rw [coming_publish hwritten hp (horder _ hwritten p hp)]
    exact h.carried
  | @expire expired =>
    have hkept {id : String} {l : Lobby}
        (hl : Function.update s.lobbies expired none id = some l) : s.lobbies id = some l := by
      by_cases hid : id = expired
      · subst hid
        rw [Function.update_self] at hl
        cases hl
      · rwa [Function.update_of_ne hid] at hl
    refine ⟨?_, ?_, h.decided, h.shown, h.carried⟩
    · intro id l hl
      exact h.keyed id l (hkept hl)
    · intro l hl
      exact h.settings l (hkept hl)
  | startGame =>
    refine ⟨h.keyed, h.settings, h.decided, h.shown, ?_⟩
    rw [coming_publish_of_none fun p hp => update?_of_type (by simp [type_of_started hp])]
    exact h.carried
  | @deliver channel event rest hqueue =>
    refine ⟨h.keyed, h.settings, h.decided, ?_, ?_⟩
    · dsimp only
      split
      · exact shown_handle h.shown event
      · exact h.shown
    · intro other hne
      apply h.carried
      obtain ⟨hfirst, hothers⟩ := coming_deliver stamp w lobbyID hqueue
        (if w.rooms event.topic then s.page.handle lobbyID event else s.page)
      by_cases hother : other = channel
      · subst hother
        rw [hfirst]
        exact List.append_ne_nil_of_right_ne_nil _ hne
      · rwa [hothers, Function.update_of_ne hother] at hne

theorem ComesToShow.of_written (h : Opened stamp seconds w lobbyID l₀ s)
    (hheard : w.heard (lobbyTopic lobbyID) = true) {players : List LobbyPlayer}
    (hwritten : s'.lobbies lobbyID = some { l with players })
    (hcoming : ∀ channel, s'.coming stamp w lobbyID channel =
      s.coming stamp w lobbyID channel ++
        if w.heard channel = true ∧ (channel = lobbyTopic lobbyID ∨ channel = "global:lobbies") then
          [LobbyPlayer.codec.slice.marshal players]
        else []) :
    ComesToShow stamp seconds w lobbyID l₀ s' := by
  intro _ copy _
  refine ⟨LobbyPlayer.codec.slice.marshal players, .of_change ?_ ?_, ?_⟩
  · intro channel
    rw [hcoming]
    by_cases hcarried : w.heard channel = true ∧
        (channel = lobbyTopic lobbyID ∨ channel = "global:lobbies")
    · rw [if_pos hcarried]
      exact .inr (by simp)
    · rw [if_neg hcarried, List.append_nil]
      by_contra hnot
      exact hcarried (h.carried channel fun hnil => hnot (.inl hnil))
  · refine ⟨lobbyTopic lobbyID, ?_⟩
    rw [hcoming, if_pos ⟨hheard, .inl rfl⟩]
    simp
  · intro l' hl'
    obtain rfl := Option.some.inj (hwritten.symm.trans hl')
    rfl

/-- Whatever is still to come, the page comes to show an update that is written. -/
theorem ComesToShow.of_updates (h : Opened stamp seconds w lobbyID l₀ s)
    (hheard : w.heard (lobbyTopic lobbyID) = true) (hstep : Step stamp w lobbyID s a s')
    (hupdates : Updates lobbyID s a) : ComesToShow stamp seconds w lobbyID l₀ s' := by
  obtain ⟨i, l, rfl, hl⟩ := hupdates
  cases hstep with
  | @write _ change hdecided =>
    have hfits : Fits lobbyID l₀ change := h.decided change (List.mem_of_getElem? hdecided)
    obtain rfl := Option.some.inj (hdecided.symm.trans hl)
    rcases write_cases stamp w i s hfits with ⟨players, -, hwritten, hcoming⟩ | ⟨hnot, -⟩
    · exact .of_written h hheard hwritten hcoming
    · exact absurd rfl (hnot l)

/-- A step that brings the page no update, and leaves the stored lobby as it was or takes it
away. -/
theorem ComesToShow.skip (hc : ComesToShow stamp seconds w lobbyID l₀ s)
    (hlobbies : s'.lobbies lobbyID = s.lobbies lobbyID ∨ s'.lobbies lobbyID = none)
    (hcoming : s'.coming stamp w lobbyID = s.coming stamp w lobbyID)
    (hopen : s'.page.goneTo = none → s.page.goneTo = none)
    (hcached : s'.page.cached = s.page.cached) :
    ComesToShow stamp seconds w lobbyID l₀ s' := by
  intro hgone copy hcopy
  obtain ⟨players, hconverging, hstored⟩ := hc (hopen hgone) copy (hcached ▸ hcopy)
  refine ⟨players, hcoming ▸ hconverging, ?_⟩
  intro l hl
  rcases hlobbies with hsame | hnone
  · exact hstored l (hsame ▸ hl)
  · rw [hnone] at hl
    cases hl

theorem ComesToShow.deliver (hc : ComesToShow stamp seconds w lobbyID l₀ s)
    (h : Opened stamp seconds w lobbyID l₀ s) (hroom : w.rooms (lobbyTopic lobbyID) = true)
    (hqueue : s.queues channel = event :: rest) :
    ComesToShow stamp seconds w lobbyID l₀
      { s with
        queues := Function.update s.queues channel rest
        page := if w.rooms event.topic then s.page.handle lobbyID event else s.page } := by
  obtain ⟨hfirst, hothers⟩ := coming_deliver stamp w lobbyID hqueue
    (if w.rooms event.topic then s.page.handle lobbyID event else s.page)
  cases hupdate : update? lobbyID event with
  | none =>
    rw [hupdate, Option.toList_none, List.nil_append] at hfirst
    refine hc.skip (.inl rfl) ?_ ?_ ?_
    · rw [hothers, ← hfirst, Function.update_eq_self]
    · dsimp only
      split
      · exact goneTo_handle
      · exact id
    · dsimp only
      split
      · unfold handle
        split
        · rfl
        · rw [cached_receive, hupdate]
      · rfl
  | some players =>
    have htopic : event.topic = lobbyTopic lobbyID := by
      by_contra hne
      rw [update?_of_topic hne] at hupdate
      cases hupdate
    rw [hupdate, Option.toList_some, List.singleton_append] at hfirst
    simp only [htopic, hroom, if_true] at hfirst hothers ⊢
    intro hgone copy hcopy
    have hopen : s.page.goneTo = none := goneTo_handle hgone
    obtain ⟨shown, hshown⟩ := h.shown
    obtain ⟨newest, hconverging, hstored⟩ := hc hopen shown hshown
    have hcopied : copy = players := by
      simp only [handle, hopen, Option.isSome_none, Bool.false_eq_true, if_false, cached_receive,
        hupdate, hshown, Option.map_some, setProperty_players] at hcopy
      simpa [LobbyHandler.responseWith, eq_comm] using hcopy
    rw [hcopied, hothers]
    exact ⟨newest, hconverging.deliver hfirst, hstored⟩

theorem ComesToShow.step (hc : ComesToShow stamp seconds w lobbyID l₀ s)
    (h : Opened stamp seconds w lobbyID l₀ s) (hheard : w.heard (lobbyTopic lobbyID) = true)
    (hroom : w.rooms (lobbyTopic lobbyID) = true) (hstep : Step stamp w lobbyID s a s')
    (horder : InOrder stamp lobbyID s a s') : ComesToShow stamp seconds w lobbyID l₀ s' := by
  cases hstep with
  | refused => exact hc
  | loaded => exact hc.skip (.inl rfl) rfl id rfl
  | @write i change hdecided =>
    have hfits : Fits lobbyID l₀ change := h.decided change (List.mem_of_getElem? hdecided)
    rcases write_cases stamp w i s hfits with ⟨players, -, hwritten, hcoming⟩ |
      ⟨-, hcoming, hlobbies⟩
    · exact .of_written h hheard hwritten hcoming
    · exact hc.skip hlobbies hcoming id rfl
  | @publish i change n p hwritten hp =>
    exact hc.skip (.inl rfl)
      (coming_publish hwritten hp (horder _ hwritten p hp)) id rfl
  | @expire expired =>
    refine hc.skip ?_ rfl id rfl
    by_cases hid : lobbyID = expired
    · subst hid
      exact .inr (Function.update_self ..)
    · exact .inl (Function.update_of_ne hid _ _)
  | startGame =>
    refine hc.skip (.inl rfl) ?_ id rfl
    exact coming_publish_of_none fun p hp => update?_of_type (by simp [type_of_started hp])
  | deliver hqueue => exact hc.deliver h hroom hqueue

/-- No update of the lobby is still to come, and the page shows the lobby as it is stored. -/
structure Shows (stamp seconds : Time → String) (w : Wiring) (lobbyID : String) (s : System) :
    Prop where
  quiet : ∀ channel, s.coming stamp w lobbyID channel = []
  shown : ∀ l, s.lobbies lobbyID = some l →
    s.page.cached = some (LobbyHandler.response seconds l)

theorem Shows.comesToShow (hs : Shows stamp seconds w lobbyID s)
    (h : Opened stamp seconds w lobbyID l₀ s) : ComesToShow stamp seconds w lobbyID l₀ s := by
  intro _ copy hcopy
  refine ⟨copy, .of_drained hs.quiet rfl, ?_⟩
  intro l hl
  have hsame := hcopy.symm.trans (hs.shown l hl)
  rw [h.settings l hl] at hsame
  simpa [LobbyHandler.response, LobbyHandler.responseWith] using hsame

theorem ComesToShow.shows (hc : ComesToShow stamp seconds w lobbyID l₀ s)
    (h : Opened stamp seconds w lobbyID l₀ s) (hopen : s.page.goneTo = none)
    (hquiet : ∀ channel, s.coming stamp w lobbyID channel = []) :
    Shows stamp seconds w lobbyID s := by
  refine ⟨hquiet, ?_⟩
  intro l hl
  obtain ⟨copy, hcopy⟩ := h.shown
  obtain ⟨players, hconverging, hstored⟩ := hc hopen copy hcopy
  rw [hcopy, hconverging.drained hquiet, hstored l hl, h.settings l hl]
  rfl

/-- A page that shows the stored lobby at first, or that is open when an update of the lobby is
written, shows the stored lobby whenever no update is still to come, in whatever order the topics
of the bus are served and however the calls overlap, as long as the updates are published on each
topic in the order in which they were written. The start button then starts a game for the stored
players. -/
theorem shows_stored_lobby {run : List (Act × System)}
    (hrun : Along (Step stamp w lobbyID) s run) (hfresh : ∀ step ∈ run, ¬ step.1.Creates lobbyID)
    (horder : Along (InOrder stamp lobbyID) s run)
    (hheard : w.heard (lobbyTopic lobbyID) = true) (hroom : w.rooms (lobbyTopic lobbyID) = true)
    (hopened : Opened stamp seconds w lobbyID l₀ s)
    (hstart : Shows stamp seconds w lobbyID s ∨ ∃ before a t after, run = before ++ (a, t) :: after ∧
      Updates lobbyID (last s before) a)
    (hopen : (last s run).page.goneTo = none)
    (hquiet : ∀ channel, (last s run).coming stamp w lobbyID channel = [])
    (hl : (last s run).lobbies lobbyID = some l) :
    (last s run).page.cached = some (LobbyHandler.response seconds l) ∧
      ∃ body, startBody lobbyID (LobbyHandler.response seconds l) = some body ∧
        CreateGameBody.codec.unmarshal body = some ⟨l.playerIDs, l.boardSize, lobbyID⟩ := by
  let Taken (s : System) (a : Act) (s' : System) : Prop :=
    (Step stamp w lobbyID s a s' ∧ ¬ a.Creates lobbyID) ∧ InOrder stamp lobbyID s a s'
  have hsteps : Along Taken s run := (hrun.and (along_label_iff.mpr hfresh)).and horder
  have hkept {t : System} {rest : List (Act × System)}
      (ht : Opened stamp seconds w lobbyID l₀ t) (hrest : Along Taken t rest) :
      Opened stamp seconds w lobbyID l₀ (last t rest) :=
    hrest.inv_last ht fun s a s' h hstep => h.step hstep.1.1 hstep.1.2 hstep.2
  have hcomes {t : System} {rest : List (Act × System)}
      (ht : Opened stamp seconds w lobbyID l₀ t) (hc : ComesToShow stamp seconds w lobbyID l₀ t)
      (hrest : Along Taken t rest) : ComesToShow stamp seconds w lobbyID l₀ (last t rest) := by
    let Both (s : System) : Prop :=
      Opened stamp seconds w lobbyID l₀ s ∧ ComesToShow stamp seconds w lobbyID l₀ s
    refine (hrest.inv_last (show Both t from ⟨ht, hc⟩) fun s a s' h hstep => ⟨?_, ?_⟩).2
    · exact h.1.step hstep.1.1 hstep.1.2 hstep.2
    · exact h.2.step h.1 hheard hroom hstep.1.1 hstep.2
  have hopenedLast := hkept hopened hsteps
  have hcomesLast : ComesToShow stamp seconds w lobbyID l₀ (last s run) := by
    rcases hstart with hshows | ⟨before, a, t, after, rfl, hupdates⟩
    · exact hcomes hopened (hshows.comesToShow hopened) hsteps
    · obtain ⟨hbefore, ⟨⟨hstep, hnew⟩, hturn⟩, hafter⟩ := along_append.mp hsteps
      have hopenedBefore := hkept hopened hbefore
      rw [last_append]
      change ComesToShow stamp seconds w lobbyID l₀ (last t after)
      exact hcomes (hopenedBefore.step hstep hnew hturn)
        (.of_updates hopenedBefore hheard hstep hupdates) hafter
  have hid : l.lobbyID = lobbyID := hopenedLast.keyed lobbyID l hl
  have hstart := startBody_response seconds l
  rw [hid] at hstart
  exact ⟨(hcomesLast.shows hopenedLast hopen hquiet).shown l hl, hstart⟩

def hostWaits : System where
  lobbies := Function.update (fun _ => none) "a1"
    (some ⟨"a1", 1, 5, "", 3, false, 0, [⟨false, 1, "ann"⟩]⟩)
  decided := []
  written := []
  queues _ := []
  page := {
    cached := some (LobbyHandler.response (fun _ => "")
      ⟨"a1", 1, 5, "", 3, false, 0, [⟨false, 1, "ann"⟩]⟩)
    goneTo := none }

theorem opened_hostWaits (w : Wiring) : Opened (fun _ => "") (fun _ => "") w "a1"
    ⟨"a1", 1, 5, "", 3, false, 0, [⟨false, 1, "ann"⟩]⟩ hostWaits where
  keyed id l hl := by
    unfold hostWaits at hl
    by_cases hid : id = "a1"
    · subst hid
      obtain rfl := Option.some.inj hl
      rfl
    · simp [Function.update_of_ne hid] at hl
  settings l hl := by
    obtain rfl := Option.some.inj hl
    rfl
  decided change hmem := absurd hmem List.not_mem_nil
  shown := ⟨_, rfl⟩
  carried channel hne := by
    refine absurd ?_ hne
    unfold System.coming
    cases w.heard channel <;> rfl

/-- Two players join at once, so that the second takes the place of the first, and the copies of
both updates come in. -/
theorem shows_stored_lobby_joined :
    ∃ run, Along (Step (fun _ => "") ⟨fun _ => true, fun _ => true⟩ "a1") hostWaits run ∧
      (last hostWaits run).page.cached = some (LobbyHandler.response (fun _ => "")
        ⟨"a1", 1, 5, "", 3, false, 0, [⟨false, 1, "ann"⟩, ⟨false, 3, "cat"⟩]⟩) := by
  let w : Wiring := ⟨fun _ => true, fun _ => true⟩
  let lobbyWith (players : List LobbyPlayer) : Lobby := ⟨"a1", 1, 5, "", 3, false, 0, players⟩
  let bob : LobbyChange := .updated "a1" (lobbyWith [⟨false, 1, "ann"⟩, ⟨false, 2, "bob"⟩])
  let cat : LobbyChange := .updated "a1" (lobbyWith [⟨false, 1, "ann"⟩, ⟨false, 3, "cat"⟩])
  let bobIn : Event := ⟨"lobby:a1", "lobby_updated", LobbyUpdatedPayload.codec.marshal
    ⟨"a1", [⟨false, 1, "ann"⟩, ⟨false, 2, "bob"⟩], "waiting"⟩⟩
  let catIn : Event := ⟨"lobby:a1", "lobby_updated", LobbyUpdatedPayload.codec.marshal
    ⟨"a1", [⟨false, 1, "ann"⟩, ⟨false, 3, "cat"⟩], "waiting"⟩⟩
  let bobLoads : System := { hostWaits with decided := [bob] }
  let catLoads : System := { bobLoads with decided := [bob, cat] }
  let bobSaves := catLoads.write 0 bob
  let catSaves := bobSaves.write 0 cat
  let bobTellsLobby := System.publish w [⟨"lobby:a1", bobIn⟩]
    { catSaves with written := [(bob, 1), (cat, 0)] }
  let catTellsLobby := System.publish w [⟨"lobby:a1", catIn⟩]
    { bobTellsLobby with written := [(bob, 1), (cat, 1)] }
  let bobTellsAll := System.publish w [⟨"global:lobbies", bobIn⟩]
    { catTellsLobby with written := [(bob, 2), (cat, 1)] }
  let catTellsAll := System.publish w [⟨"global:lobbies", catIn⟩]
    { bobTellsAll with written := [(bob, 2), (cat, 2)] }
  let come (channel : String) (event : Event) (rest : List Event) (s : System) : System :=
    { s with
      queues := Function.update s.queues channel rest
      page := s.page.handle "a1" event }
  let first := come "lobby:a1" bobIn [catIn] catTellsAll
  let second := come "lobby:a1" catIn [] first
  let third := come "global:lobbies" bobIn [catIn] second
  let fourth := come "global:lobbies" catIn [] third
  let run : List (Act × System) := [(.load (.join "a1" 2 "bob"), bobLoads),
    (.load (.join "a1" 3 "cat"), catLoads), (.write 0, bobSaves), (.write 0, catSaves),
    (.publish 0, bobTellsLobby), (.publish 1, catTellsLobby), (.publish 0, bobTellsAll),
    (.publish 1, catTellsAll), (.deliver "lobby:a1", first), (.deliver "lobby:a1", second),
    (.deliver "global:lobbies", third), (.deliver "global:lobbies", fourth)]
  have hown : catTellsAll.queues "lobby:a1" = [bobIn, catIn] := rfl
  have hownRest : first.queues "lobby:a1" = [catIn] := rfl
  have hall : second.queues "global:lobbies" = [bobIn, catIn] := rfl
  have hallRest : third.queues "global:lobbies" = [catIn] := rfl
  have hrun : Along (Step (fun _ => "") w "a1") hostWaits run :=
    ⟨.loaded rfl, .loaded rfl, .write rfl, .write rfl, .publish rfl rfl, .publish rfl rfl,
      .publish rfl rfl, .publish rfl rfl, .deliver hown, .deliver hownRest, .deliver hall,
      .deliver hallRest, trivial⟩
  have horder : Along (InOrder (fun _ => "") "a1") hostWaits run := by
    refine ⟨trivial, trivial, trivial, trivial, ?_, ?_, ?_, ?_, trivial, trivial, trivial, trivial,
      trivial⟩
    all_goals
      intro call hcall p hp _
      obtain rfl := Option.some.inj hcall
      obtain rfl := Option.some.inj hp
      rfl
  refine ⟨run, hrun, ?_⟩
  refine (shows_stored_lobby hrun ?_ horder rfl rfl (opened_hostWaits w) (.inr ?_) rfl ?_ rfl).1
  · intro step hstep
    rintro ⟨_, _, _, _, _, _, _, hact⟩
    simp only [run, List.mem_cons, List.not_mem_nil, or_false] at hstep
    rcases hstep with rfl | rfl | rfl | rfl | rfl | rfl | rfl | rfl | rfl | rfl | rfl | rfl <;>
      cases hact
  · exact ⟨[_, _], _, bobSaves, _, rfl, 0, _, rfl, rfl⟩
  · intro channel
    by_cases hlobby : channel = "lobby:a1"
    · subst hlobby
      rfl
    · by_cases hglobal : channel = "global:lobbies"
      · subst hglobal
        rfl
      · have hqueue : fourth.queues channel = [] := by
          simp [fourth, third, second, first, come, catTellsAll, bobTellsAll, catTellsLobby,
            bobTellsLobby, catSaves, bobSaves, catLoads, bobLoads, System.publish, System.write,
            hostWaits, hlobby, hglobal, Ne.symm hlobby, Ne.symm hglobal]
        simp only [last, run]
        unfold System.coming
        rw [hqueue]
        rfl

end DotsAndBoxes.Web.LobbyPage
