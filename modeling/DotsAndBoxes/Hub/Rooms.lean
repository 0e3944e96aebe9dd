import DotsAndBoxes.Hub.Backpressure

/-! # The rooms

A session leaves every room when it is unregistered, and enters a room when a request for a
subscription is served. The requests wait on a channel of their own, so one may be served
after its session is gone, and then the session is back in the room for good.
-/

namespace DotsAndBoxes

open Runs

namespace Manager

variable {m : Manager} {conn : Connection} {topic : String}

@[simp] theorem room_register (conn : Connection) (m : Manager) (topic : String) :
    (m.register conn).room topic = m.room topic := rfl

@[simp] theorem room_subscribe (topic : String) (conn : Connection) (m : Manager) :
    (m.subscribe topic conn).room topic = insert conn (m.room topic) := by
  simp [room, subscribe]

theorem room_subscribe_of_ne {other : String} (hne : other ≠ topic) :
    (m.subscribe topic conn).room other = m.room other := by
  simp [room, subscribe, hne]

@[simp] theorem room_unregister (conn : Connection) (m : Manager) (topic : String) :
    (m.unregister conn).room topic = (m.room topic).erase conn := by
  change ((m.rooms topic).bind (remove conn)).getD ∅ = ((m.rooms topic).getD ∅).erase conn
  cases m.rooms topic with
  | none => simp
  | some conns => exact getD_kept (conns.erase conn)

def RoomsRegistered (m : Manager) : Prop := ∀ topic, m.room topic ⊆ m.connections

namespace RoomsRegistered

theorem register (h : m.RoomsRegistered) (conn : Connection) :
    (m.register conn).RoomsRegistered := by
  intro topic
  exact (h topic).trans (Finset.subset_insert conn m.connections)

theorem unregister (h : m.RoomsRegistered) (conn : Connection) :
    (m.unregister conn).RoomsRegistered := by
  intro topic
  rw [room_unregister, connections_unregister]
  exact Finset.erase_subset_erase conn (h topic)

/-- Serving a request for a subscription keeps the rooms registered if the session is. -/
theorem subscribe_iff (h : m.RoomsRegistered) :
    (m.subscribe topic conn).RoomsRegistered ↔ conn ∈ m.connections := by
  constructor
  · intro hafter
    apply hafter topic
    rw [room_subscribe]
    exact Finset.mem_insert_self conn (m.room topic)
  · intro hconn other
    by_cases hother : other = topic
    · subst hother
      rw [room_subscribe]
      exact Finset.insert_subset hconn (h other)
    · rw [room_subscribe_of_ne hother]
      exact h other

end RoomsRegistered

end Manager

namespace Hub

variable {s s' : Hub} {a : Act} {run : List (Act × Hub)}

/-- Whether a session is registered after a request, by whether it was before. -/
def registeredAfter (conn : Connection) (before : Bool) : Act → Bool
  | .register other => conn = other || before
  | .unregister other => conn ≠ other && before
  | _ => before

/-- Whether a session is registered once the requests have been served in this order. -/
def registeredBy (conn : Connection) (acts : List Act) : Bool :=
  acts.foldl (registeredAfter conn) false

/-- No request for a subscription is served while its session is not registered. -/
def ServedInTime (acts : List Act) : Prop :=
  ∀ before topic conn after, acts = before ++ .subscribe topic conn :: after →
    registeredBy conn before = true

theorem Step.mem_connections_iff (h : Step s a s') (conn : Connection) :
    conn ∈ s'.manager.connections ↔
      registeredAfter conn (conn ∈ s.manager.connections) a = true := by
  rw [h.manager_eq]
  cases a with
  | register other => simp [Act.serve, registeredAfter]
  | unregister other => simp [Act.serve, registeredAfter]
  | _ => simp [Act.serve, registeredAfter]

theorem mem_connections_iff (h : Along Step s run) (conn : Connection) :
    conn ∈ (last s run).manager.connections ↔
      (run.map Prod.fst).foldl (registeredAfter conn) (conn ∈ s.manager.connections) = true := by
  induction run generalizing s with
  | nil => simp [last]
  | cons step run ih =>
    have hstep : decide (conn ∈ step.2.manager.connections) =
        registeredAfter conn (conn ∈ s.manager.connections) step.1 := by
      rw [Bool.eq_iff_iff, decide_eq_true_iff]
      exact h.1.mem_connections_iff conn
    rw [last, ih h.2, List.map_cons, List.foldl_cons, hstep]

theorem mem_connections_start_iff (h : Along Step start run) (conn : Connection) :
    conn ∈ (last start run).manager.connections ↔
      registeredBy conn (run.map Prod.fst) = true := by
  rw [mem_connections_iff h conn]
  simp [start, registeredBy]

/-- The step serves no request of a session that is not registered. -/
def Serves (s : Hub) (a : Act) (_ : Hub) : Prop :=
  ∀ topic conn, a = .subscribe topic conn → conn ∈ s.manager.connections

theorem along_serves_iff (h : Along Step start run) :
    Along Serves start run ↔ ServedInTime (run.map Prod.fst) := by
  rw [along_iff_split]
  constructor
  · intro hserves before topic conn after hsplit
    obtain ⟨run₁, rest, rfl, rfl, hrest⟩ := List.map_eq_append_iff.mp hsplit
    obtain ⟨⟨i, t⟩, run₂, rfl, rfl, -⟩ := List.map_eq_cons_iff.mp hrest
    rw [← mem_connections_start_iff (along_append.mp h).1]
    exact hserves run₁ _ t run₂ rfl topic conn rfl
  · rintro hserved before _ t after rfl topic conn rfl
    rw [mem_connections_start_iff (along_append.mp h).1]
    exact hserved _ topic conn (after.map Prod.fst) (by simp)

theorem Step.roomsRegistered_iff (h : Step s a s') (hs : s.manager.RoomsRegistered) :
    s'.manager.RoomsRegistered ↔ Serves s a s' := by
  rw [h.manager_eq]
  cases a with
  | register conn => exact iff_of_true (hs.register conn) nofun
  | unregister conn => exact iff_of_true (hs.unregister conn) nofun
  | subscribe topic conn =>
    have hserves : Serves s (.subscribe topic conn) s' ↔ conn ∈ s.manager.connections := by
      constructor
      · intro hserves
        exact hserves topic conn rfl
      · rintro hconn _ _ ⟨⟩
        exact hconn
    rw [hserves]
    exact hs.subscribe_iff
  | _ => exact iff_of_true hs nofun

theorem roomsRegistered_start : start.manager.RoomsRegistered := by
  intro topic
  simp [start, Manager.room]

/-- From the start of the hub, in whatever order the pending requests are served, every
session in a room is registered in every state of the run, if and only if no request for a
subscription is served before its session registers or after it has been unregistered. -/
theorem rooms_hold_sessions_iff_served_in_time (h : Along Step start run) :
    Along (fun _ _ t => t.manager.RoomsRegistered) start run ↔
      ServedInTime (run.map Prod.fst) := by
  rw [← along_serves_iff h]
  apply along_good_iff (fun t => t.manager.RoomsRegistered) h roomsRegistered_start
  · intro t a t' ht hstep
    exact hstep.roomsRegistered_iff ht
  · intro t a t' ht hstep hserves
    exact (hstep.roomsRegistered_iff ht).mpr hserves

/-- A session that opens and asks for the rooms of the lobbies. -/
def asked : Hub :=
  { start with
    manager := start.manager.register ann
    subscribe := [("global:lobbies", ann)] }

theorem along_asked : Along Step start
    [(.register ann, { start with manager := start.manager.register ann }),
      (.request "global:lobbies" ann, asked)] :=
  ⟨.register rfl (by simp [start]), .request (Nat.zero_lt_succ 99), trivial⟩

theorem rooms_hold_sessions_iff_served_in_time_asked :
    Along (fun _ _ t => t.manager.RoomsRegistered) start
      [(Act.register ann, { start with manager := start.manager.register ann }),
        (Act.request "global:lobbies" ann, asked),
        (Act.subscribe "global:lobbies" ann,
          { asked with
            manager := asked.manager.subscribe "global:lobbies" ann
            subscribe := [] })] := by
  have hsubscribe : Step asked (.subscribe "global:lobbies" ann) _ := .subscribe rfl rfl
  apply (rooms_hold_sessions_iff_served_in_time (along_asked.snoc hsubscribe)).mpr
  intro before topic conn after hsplit
  match before with
  | [_, _] =>
    simp only [List.map_cons, List.cons_append, List.nil_append, List.cons.injEq] at hsplit
    obtain ⟨rfl, rfl, heq, -⟩ := hsplit
    obtain ⟨-, rfl⟩ := Act.subscribe.inj heq
    decide
  | [] | [_] | _ :: _ :: _ :: _ => simp at hsplit

/-- The session closes before its request is served, and is in the room afterwards. -/
theorem subscription_after_close_stays :
    ¬ ∀ run, Along Step start run →
      Along (fun _ _ t => t.manager.RoomsRegistered) start run := by
  intro h
  have hunregister : Step asked (.unregister ann)
      { asked with manager := asked.manager.unregister ann } := .unregister rfl
  have hsubscribe : Step { asked with manager := asked.manager.unregister ann }
      (.subscribe "global:lobbies" ann) _ := .subscribe rfl rfl
  have hrun := (along_asked.snoc hunregister).snoc hsubscribe
  have hrooms := (along_append.mp (h _ hrun)).2.1 "global:lobbies"
  rw [Manager.room_subscribe] at hrooms
  have hgone := hrooms (Finset.mem_insert_self ann _)
  simp at hgone

end Hub

end DotsAndBoxes
