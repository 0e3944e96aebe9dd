import DotsAndBoxes.Hub.Manager
import DotsAndBoxes.Library.Runs

/-! # Backpressure

One goroutine serves the requests to the manager, one after another. A broadcast is sent
to each session of a room in turn, into a bounded queue that the client drains. When a
queue is full the goroutine asks for the session to be unregistered, and waits for itself
to serve that request.
-/

namespace DotsAndBoxes

open Runs

def egressCapacity : ℕ := 100

def broadcastCapacity : ℕ := 100

def subscribeCapacity : ℕ := 100

inductive RunState where
  | select
  /-- Sending a message to what remains of a room. -/
  | sending (msg : Post) (rest : List Connection)
  /-- Sending on the channel of the unregister requests. -/
  | unregistering (conn : Connection)

/-- How many steps of its own take the serving goroutine back to its select. -/
def RunState.remaining : RunState → ℕ
  | .sending _ rest => rest.length + 1
  | _ => 0

/-- The manager with its channels and those of the sessions. -/
structure Hub where
  manager : Manager
  run : RunState
  subscribe : List (String × Connection)
  broadcast : List Post
  egress : Connection → List Post

namespace Hub

def start : Hub where
  manager := ⟨∅, fun _ => none, fun _ => none, fun _ => false⟩
  run := .select
  subscribe := []
  broadcast := []
  egress _ := []

inductive Act where
  | register (conn : Connection)
  | unregister (conn : Connection)
  /-- A goroutine asks for a subscription. -/
  | request (topic : String) (conn : Connection)
  | subscribe (topic : String) (conn : Connection)
  /-- The bus offers an event. -/
  | offer (msg : Post)
  | receive (msg : Post) (conns : List Connection)
  | send (conn : Connection)
  | finish
  /-- A message is written to the client. -/
  | write (conn : Connection) (msg : Post)

/-- An event that finds the channel full is dropped. -/
def offered (msg : Post) (s : Hub) : List Post :=
  if s.broadcast.length < broadcastCapacity then s.broadcast ++ [msg] else s.broadcast

def HasRoom (conn : Connection) (s : Hub) : Prop := (s.egress conn).length < egressCapacity

/-- Nobody but the serving goroutine receives the requests to unregister, so nothing
happens to it once it sends one. -/
inductive Step : Hub → Act → Hub → Prop where
  | register {s conn} (hrun : s.run = .select) (hnew : conn ∉ s.manager.connections) :
      Step s (.register conn) { s with manager := s.manager.register conn }
  | unregister {s conn} (hrun : s.run = .select) :
      Step s (.unregister conn) { s with manager := s.manager.unregister conn }
  | request {s topic conn} (hroom : s.subscribe.length < subscribeCapacity) :
      Step s (.request topic conn) { s with subscribe := s.subscribe ++ [(topic, conn)] }
  | subscribe {s topic conn rest} (hrun : s.run = .select)
      (hqueue : s.subscribe = (topic, conn) :: rest) :
      Step s (.subscribe topic conn)
        { s with manager := s.manager.subscribe topic conn, subscribe := rest }
  | offer {s msg} : Step s (.offer msg) { s with broadcast := s.offered msg }
  | receive {s msg rest conns} (hrun : s.run = .select) (hqueue : s.broadcast = msg :: rest)
      (hnodup : conns.Nodup) (hconns : conns.toFinset = s.manager.room msg.event.topic) :
      Step s (.receive msg conns) { s with run := .sending msg conns, broadcast := rest }
  | send {s msg conn rest} (hrun : s.run = .sending msg (conn :: rest)) (hroom : s.HasRoom conn) :
      Step s (.send conn)
        { s with
          run := .sending msg rest
          egress := Function.update s.egress conn (s.egress conn ++ [msg]) }
  | drop {s msg conn rest} (hrun : s.run = .sending msg (conn :: rest)) (hfull : ¬ s.HasRoom conn) :
      Step s (.send conn) { s with run := .unregistering conn }
  | finish {s msg} (hrun : s.run = .sending msg []) : Step s .finish { s with run := .select }
  | write {s conn msg rest} (hqueue : s.egress conn = msg :: rest) :
      Step s (.write conn msg) { s with egress := Function.update s.egress conn rest }

/-- The serving goroutine sends on the channel that it alone receives from. -/
def Unregistering (s : Hub) : Prop := ∃ conn, s.run = .unregistering conn

/-- The step, when it is a send, finds room in the queue of the session. -/
def FindsRoom (s : Hub) (a : Act) (_ : Hub) : Prop :=
  match a with
  | .send conn => s.HasRoom conn
  | _ => True

/-- Some steps of the system take the serving goroutine back to its select. -/
def CanReturn (s : Hub) : Prop := ∃ t, Leads Step s t ∧ t.run = .select

/-- The steps of the serving goroutine while it sends a message. -/
def Act.sends : Act → Bool
  | .send _ => true
  | .finish => true
  | _ => false

/-- The serving goroutine is at its select somewhere on the run, when the run has as many
of its steps as a return takes. -/
def Returns (s : Hub) (run : List (Act × Hub)) : Prop :=
  s.run.remaining ≤ run.countP (·.1.sends) → ∃ t ∈ s :: run.map Prod.snd, t.run = .select

def Act.serve : Act → Manager → Manager
  | .register conn, m => m.register conn
  | .unregister conn, m => m.unregister conn
  | .subscribe topic conn, m => m.subscribe topic conn
  | _, m => m

def Act.published : Act → Manager → List (String × Event)
  | .register conn, m => (m.registerEvents conn).map fun e => ("connections", e)
  | .unregister conn, m => (m.unregisterEvents conn).map fun e => ("connections", e)
  | _, _ => []

def Bounded (s : Hub) : Prop := ∀ conn, (s.egress conn).length ≤ egressCapacity

def Holds (msg : Post) (s : Hub) : Prop :=
  msg ∈ s.broadcast ∨ (∃ rest, s.run = .sending msg rest) ∨ ∃ conn, msg ∈ s.egress conn

variable {s s' : Hub} {a : Act} {run : List (Act × Hub)}

theorem Step.manager_eq (h : Step s a s') : s'.manager = a.serve s.manager := by
  cases h <;> rfl

theorem Step.bounded (h : Step s a s') (hs : s.Bounded) : s'.Bounded := by
  cases h with
  | @send msg conn rest hrun hroom =>
    intro other
    by_cases hother : other = conn
    · subst hother
      simpa using Nat.succ_le_of_lt hroom
    · simpa [hother] using hs other
  | @write conn msg rest hqueue =>
    intro other
    by_cases hother : other = conn
    · subst hother
      have hlen := hs other
      rw [hqueue, List.length_cons] at hlen
      simpa using Nat.le_of_succ_le hlen
    · simpa [hother] using hs other
  | _ => exact hs

theorem Step.holds {msg : Post} (h : Step s a s') (hholds : s'.Holds msg) :
    s.Holds msg ∨ a = .offer msg := by
  cases h with
  | @offer offered =>
    rcases hholds with hmem | hrest
    · simp only [Hub.offered] at hmem
      split_ifs at hmem with hroom
      · rcases List.mem_append.mp hmem with hold | hnew
        · exact .inl (.inl hold)
        · exact .inr (by rw [List.mem_singleton.mp hnew])
      · exact .inl (.inl hmem)
    · exact .inl (.inr hrest)
  | @receive taken rest conns hrun hqueue hnodup hconns =>
    rcases hholds with hmem | ⟨rest, ⟨⟩⟩ | hegress
    · exact .inl (.inl (hqueue ▸ List.mem_cons_of_mem _ hmem))
    · exact .inl (.inl (hqueue ▸ List.mem_cons_self))
    · exact .inl (.inr (.inr hegress))
  | @send sent conn rest hrun hroom =>
    rcases hholds with hmem | ⟨rest, ⟨⟩⟩ | ⟨other, hegress⟩
    · exact .inl (.inl hmem)
    · exact .inl (.inr (.inl ⟨_, hrun⟩))
    · by_cases hother : other = conn
      · subst hother
        simp only [Function.update_self] at hegress
        rcases List.mem_append.mp hegress with hold | hnew
        · exact .inl (.inr (.inr ⟨other, hold⟩))
        · obtain rfl := List.mem_singleton.mp hnew
          exact .inl (.inr (.inl ⟨_, hrun⟩))
      · exact .inl (.inr (.inr ⟨other, by simpa [hother] using hegress⟩))
  | drop hrun hfull =>
    rcases hholds with hmem | ⟨rest, ⟨⟩⟩ | hegress
    · exact .inl (.inl hmem)
    · exact .inl (.inr (.inr hegress))
  | finish hrun =>
    rcases hholds with hmem | ⟨rest, ⟨⟩⟩ | hegress
    · exact .inl (.inl hmem)
    · exact .inl (.inr (.inr hegress))
  | @write conn written rest hqueue =>
    rcases hholds with hmem | hrun | ⟨other, hegress⟩
    · exact .inl (.inl hmem)
    · exact .inl (.inr (.inl hrun))
    · by_cases hother : other = conn
      · subst hother
        simp only [Function.update_self] at hegress
        exact .inl (.inr (.inr ⟨other, hqueue ▸ List.mem_cons_of_mem _ hegress⟩))
      · exact .inl (.inr (.inr ⟨other, by simpa [hother] using hegress⟩))
  | register | unregister | request | subscribe => exact .inl hholds

/-- Only a send can leave the goroutine waiting for itself, and does so when it finds no room. -/
theorem Step.unregistering_iff (h : Step s a s') (hs : ¬ s.Unregistering) :
    ¬ s'.Unregistering ↔ FindsRoom s a s' := by
  cases h with
  | send hrun hroom => exact iff_of_true (by rintro ⟨_, ⟨⟩⟩) hroom
  | @drop msg conn rest hrun hfull => exact iff_of_false (fun h => h ⟨conn, rfl⟩) hfull
  | finish hrun => exact iff_of_true (by rintro ⟨_, ⟨⟩⟩) trivial
  | receive hrun hqueue hnodup hconns => exact iff_of_true (by rintro ⟨_, ⟨⟩⟩) trivial
  | _ => exact iff_of_true hs trivial

theorem Step.unregistering (h : Step s a s') (hs : s.Unregistering) : s'.Unregistering := by
  obtain ⟨conn, hconn⟩ := hs
  cases h with
  | request | offer | write => exact ⟨conn, hconn⟩
  | register hrun | unregister hrun | subscribe hrun | receive hrun | send hrun | drop hrun
  | finish hrun => simp [hconn] at hrun

theorem Unregistering.not_canReturn (hs : s.Unregistering) : ¬ s.CanReturn := by
  rintro ⟨t, ht, hselect⟩
  obtain ⟨conn, hconn⟩ := ht.inv hs fun _ _ _ hwaits hstep => hstep.unregistering hwaits
  simp [hconn] at hselect

theorem Bounded.drained {conn : Connection} (hs : s.Bounded) (hfull : ¬ s.HasRoom conn) :
    ∃ msg s', Step s (.write conn msg) s' ∧ s'.run = s.run ∧ s'.HasRoom conn := by
  have hlen : (s.egress conn).length = egressCapacity :=
    le_antisymm (hs conn) (Nat.le_of_not_lt hfull)
  cases hqueue : s.egress conn with
  | nil => simp [hqueue, egressCapacity] at hlen
  | cons msg rest =>
    refine ⟨msg, _, .write hqueue, rfl, ?_⟩
    rw [hqueue, List.length_cons] at hlen
    simp only [HasRoom, Function.update_self]
    omega

theorem Bounded.canReturn_of_sending {msg : Post} {rest : List Connection} (hs : s.Bounded)
    (hsending : s.run = .sending msg rest) : s.CanReturn := by
  induction rest generalizing s with
  | nil => exact ⟨_, .head (.finish hsending) (.refl _), rfl⟩
  | cons conn rest ih =>
    have hsend (t : Hub) (ht : t.Bounded) (hsending : t.run = .sending msg (conn :: rest))
        (hroom : t.HasRoom conn) : t.CanReturn := by
      have hstep := Step.send hsending hroom
      obtain ⟨u, hu, hselect⟩ := ih (hstep.bounded ht) rfl
      exact ⟨u, hu.head hstep, hselect⟩
    by_cases hroom : s.HasRoom conn
    · exact hsend s hs hsending hroom
    · obtain ⟨msg, t, hwrite, hsame, hroom⟩ := hs.drained hroom
      obtain ⟨u, hu, hselect⟩ := hsend t (hwrite.bounded hs) (hsame.trans hsending) hroom
      exact ⟨u, hu.head hwrite, hselect⟩

theorem Bounded.canReturn_iff (hs : s.Bounded) : s.CanReturn ↔ ¬ s.Unregistering := by
  constructor
  · intro h hwaiting
    exact hwaiting.not_canReturn h
  · intro h
    cases hrun : s.run with
    | select => exact ⟨s, .refl s, hrun⟩
    | sending msg rest => exact hs.canReturn_of_sending hrun
    | unregistering conn => exact absurd ⟨conn, hrun⟩ h

/-- A step that finds room and is not one of the sending goroutine leaves it where it was,
and one of its own takes it on. -/
theorem Step.remaining_add (h : Step s a s') (hroom : FindsRoom s a s') (hs : s.run ≠ .select) :
    s'.run.remaining + a.sends.toNat = s.run.remaining := by
  cases h with
  | register hrun | unregister hrun | subscribe hrun | receive hrun => exact absurd hrun hs
  | send hrun => simp [hrun, RunState.remaining, Act.sends]
  | drop hrun hfull => exact absurd hroom hfull
  | finish hrun => simp [hrun, RunState.remaining, Act.sends]
  | request | offer | write => simp [Act.sends]

theorem returns (h : Along Step s run) (hroom : Along FindsRoom s run) (hs : ¬ s.Unregistering) :
    s.Returns run := by
  induction run generalizing s with
  | nil =>
    intro hsteps
    refine ⟨s, List.mem_cons_self, ?_⟩
    cases hrun : s.run with
    | select => rfl
    | sending msg rest => simp [hrun, RunState.remaining] at hsteps
    | unregistering conn => exact absurd ⟨conn, hrun⟩ hs
  | cons step run ih =>
    obtain ⟨a, s'⟩ := step
    intro hsteps
    by_cases hselect : s.run = .select
    · exact ⟨s, List.mem_cons_self, hselect⟩
    · have hadd := h.1.remaining_add hroom.1 hselect
      rw [List.countP_cons] at hsteps
      have hrest : s'.run.remaining ≤ run.countP (·.1.sends) := by
        cases hsends : a.sends <;> simp [hsends] at hadd hsteps <;> omega
      obtain ⟨t, ht, hreturned⟩ := ih h.2 hroom.2 ((h.1.unregistering_iff hs).mpr hroom.1) hrest
      exact ⟨t, List.mem_cons_of_mem _ ht, hreturned⟩

/-- A run that starts at a hub that waits on nothing and holds no more than its channels
can. The goroutine never sends on the channel that it alone receives from, and can always
return to its select, if and only if every send finds room; then it does return. -/
theorem along_findsRoom_iff (h : Along Step s run) (hs : s.Bounded) (hwaits : ¬ s.Unregistering) :
    (Along (fun _ _ t => ¬ t.Unregistering) s run ↔ Along FindsRoom s run) ∧
      (Along (fun _ _ t => t.CanReturn) s run ↔ Along FindsRoom s run) := by
  have hinv (t : Hub) (b : Act) (t' : Hub) (ht : t.Bounded ∧ ¬ t.Unregistering)
      (hstep : Step t b t') (hroom : FindsRoom t b t') : t'.Bounded ∧ ¬ t'.Unregistering :=
    ⟨hstep.bounded ht.1, (hstep.unregistering_iff ht.2).mpr hroom⟩
  constructor
  · refine along_good_iff _ h ⟨hs, hwaits⟩ ?_ hinv
    intro t b t' ht hstep
    exact hstep.unregistering_iff ht.2
  · refine along_good_iff _ h ⟨hs, hwaits⟩ ?_ hinv
    intro t b t' ht hstep
    rw [(hstep.bounded ht.1).canReturn_iff, hstep.unregistering_iff ht.2]

theorem start_bounded : start.Bounded := fun _ => Nat.zero_le _

theorem start_not_unregistering : ¬ start.Unregistering := by
  rintro ⟨_, ⟨⟩⟩

/-- From the start of the hub, under any requests and however slowly the clients drain their
queues, the serving goroutine never sends on the channel that it alone receives from if and
only if every send finds room, and it can always return to its select under the same
condition. Under it the goroutine is back at its select whenever it has taken the steps that
it owes. -/
theorem run_returns_iff_queues_have_room (h : Along Step start run) :
    (Along (fun _ _ s => ¬ s.Unregistering) start run ↔ Along FindsRoom start run) ∧
      (Along (fun _ _ s => s.CanReturn) start run ↔ Along FindsRoom start run) ∧
      (Along FindsRoom start run → ∀ before after, run = before ++ after →
        (last start before).Returns after) := by
  obtain ⟨hnever, hreturn⟩ := along_findsRoom_iff h start_bounded start_not_unregistering
  refine ⟨hnever, hreturn, ?_⟩
  rintro hroom before after rfl
  rw [along_append] at h hroom
  apply returns h.2 hroom.2
  have hbefore := h.1.and hroom.1
  exact hbefore.inv_last start_not_unregistering fun _ _ _ ht hstep =>
    (hstep.1.unregistering_iff ht).mpr hstep.2

/-- A hub whose only room has one session, with some messages queued for it. -/
def filled (conn : Connection) (msg : Post) (k : ℕ) : Hub where
  manager := (Manager.register conn start.manager).subscribe msg.event.topic conn
  run := .select
  subscribe := []
  broadcast := []
  egress := Function.update (fun _ => []) conn (List.replicate k msg)

theorem room_filled (conn : Connection) (msg : Post) (k : ℕ) :
    [conn].toFinset = (filled conn msg k).manager.room msg.event.topic := by
  simp [filled, Manager.room, Manager.subscribe, Manager.register, start]

/-- The hub after the bus has offered a message and the goroutine has taken it. -/
def taken (conn : Connection) (msg : Post) (k : ℕ) : Hub :=
  { filled conn msg k with run := .sending msg [conn] }

def Flows (s : Hub) (a : Act) (s' : Hub) : Prop := Step s a s' ∧ FindsRoom s a s'

theorem leads_taken {s : Hub} {conn : Connection} {msg : Post} {k : ℕ}
    (h : Leads Flows s (filled conn msg k)) : Leads Flows s (taken conn msg k) := by
  have hoffer : Flows (filled conn msg k) (.offer msg)
      { filled conn msg k with broadcast := [msg] } := ⟨.offer, trivial⟩
  have hreceive : Flows { filled conn msg k with broadcast := [msg] } (.receive msg [conn])
      (taken conn msg k) :=
    ⟨.receive rfl rfl (List.nodup_singleton conn) (room_filled conn msg k), trivial⟩
  exact (h.tail hoffer).tail hreceive

theorem leads_filled (conn : Connection) (msg : Post) {k : ℕ} (hk : k ≤ egressCapacity) :
    Leads Flows start (filled conn msg k) := by
  induction k with
  | zero =>
    have hfilled : filled conn msg 0 = { start with
        manager := (start.manager.register conn).subscribe msg.event.topic conn } := by
      simp [filled, start]
    have hregister : Flows start (.register conn)
        { start with manager := start.manager.register conn } :=
      ⟨.register rfl (by simp [start]), trivial⟩
    rw [hfilled]
    exact (((Leads.refl start).tail hregister).tail
      ⟨.request (Nat.zero_lt_succ 99), trivial⟩).tail ⟨.subscribe rfl rfl, trivial⟩
  | succ k ih =>
    have hroom : (taken conn msg k).HasRoom conn := by
      simpa [HasRoom, taken, filled] using hk
    have hfilled : filled conn msg (k + 1) = { taken conn msg k with
        run := .select
        egress := Function.update (taken conn msg k).egress conn
          ((taken conn msg k).egress conn ++ [msg]) } := by
      simp [taken, filled, List.replicate_succ']
    rw [hfilled]
    exact ((leads_taken (ih (Nat.le_of_succ_le hk))).tail ⟨.send rfl hroom, hroom⟩).tail
      ⟨.finish rfl, trivial⟩

/-- A user's only session in the room of the lobbies. -/
def ann : Connection := ⟨0, 1, "ann"⟩

def lobbyCreated : Post := ⟨⟨"global:lobbies", "lobby_created", .null⟩, .server⟩

/-- A client that drains nothing may be sent a hundred messages. -/
theorem run_returns_iff_queues_have_room_hundred :
    ∃ run, Along Step start run ∧ last start run = filled ann lobbyCreated 100 ∧
      Along (fun _ _ s => ¬ s.Unregistering) start run := by
  obtain ⟨run, hrun, hlast⟩ := leads_filled ann lobbyCreated (le_refl egressCapacity)
  have hsteps : Along Step start run := hrun.imp fun _ _ _ h => h.1
  refine ⟨run, hsteps, hlast, ?_⟩
  exact (run_returns_iff_queues_have_room hsteps).1.mpr (hrun.imp fun _ _ _ h => h.2)

/-- The hundred and first message leaves the goroutine waiting for itself, for good. -/
theorem hundred_and_first_message_deadlocks :
    ¬ ∀ run, Along Step start run → Along (fun _ _ s => ¬ s.Unregistering) start run := by
  intro h
  have hfull : ¬ (taken ann lobbyCreated egressCapacity).HasRoom ann := by
    simp [HasRoom, taken, filled]
  obtain ⟨run, hrun, hlast⟩ := leads_taken (leads_filled ann lobbyCreated le_rfl)
  have hsteps : Along Step start run := hrun.imp fun _ _ _ h => h.1
  have hdrop : Step (last start run) (.send ann)
      { taken ann lobbyCreated egressCapacity with run := .unregistering ann } := by
    rw [hlast]
    exact .drop rfl hfull
  have hnever := h (run ++ [(.send ann, _)]) (hsteps.snoc hdrop)
  exact (along_append.mp hnever).2.1 ⟨ann, rfl⟩

end Hub

end DotsAndBoxes
