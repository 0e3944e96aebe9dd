import DotsAndBoxes.Library.Changes
import DotsAndBoxes.Hub.Backpressure
import DotsAndBoxes.Hub.Session

/-! # Registered sessions

The manager keeps the sessions in two tables, and announces that a user is connected with the
first session of the user and disconnected with the last one. A session may be unregistered
more than once, by the reader of its frames and by a message that finds its queue full, and
then the announcements still follow whether the user has a session.
-/

namespace DotsAndBoxes

open Changes

namespace Hub

/-- What the announcements say of a user, in their order: whether the user is connected. -/
def announced (userID : ℤ) (published : List (String × Event)) : List Bool :=
  published.filterMap fun p =>
    if p.1 = "connections" ∧ p.2.Connects userID then some true
    else if p.1 = "connections" ∧ p.2.Disconnects userID then some false
    else none

/-- The manager after it has served some requests, one after another. -/
def served (acts : List Act) : Manager := acts.foldl (fun m a => a.serve m) start.manager

/-- What the manager has put on the bus while it served some requests. -/
def publishedBy : Manager → List Act → List (String × Event)
  | _, [] => []
  | m, a :: acts => a.published m ++ publishedBy (a.serve m) acts

def connected (userID : ℤ) (m : Manager) : Bool :=
  decide (∃ conn ∈ m.connections, conn.userID = userID)

variable {m : Manager} {userID : ℤ} {conn : Connection}

theorem announced_append (published more : List (String × Event)) :
    announced userID (published ++ more) = announced userID published ++ announced userID more :=
  List.filterMap_append ..

theorem announced_publishedBy (m : Manager) (acts : List Act) :
    announced userID (publishedBy m acts) =
      reported Act.serve (fun a m => announced userID (a.published m)) m acts := by
  induction acts generalizing m with
  | nil => rfl
  | cons a acts ih => rw [publishedBy, announced_append, ih, reported]

theorem connected_iff (h : m.Grouped) : connected userID m = true ↔ m.sessions userID ≠ ∅ := by
  rw [connected, decide_eq_true_iff, h.sessions, ← Finset.nonempty_iff_ne_empty]
  simp [Finset.Nonempty]

theorem connected_register (conn : Connection) (m : Manager) :
    connected userID (m.register conn) = (decide (conn.userID = userID) || connected userID m) := by
  simp [connected]

theorem connected_subscribe (topic : String) (conn : Connection) (m : Manager) :
    connected userID (m.subscribe topic conn) = connected userID m := rfl

theorem connected_of_unregister (h : connected userID (m.unregister conn) = true) :
    connected userID m = true := by
  rw [connected, decide_eq_true_iff] at h ⊢
  obtain ⟨other, hother, huser⟩ := h
  exact ⟨other, Finset.mem_of_mem_erase hother, huser⟩

theorem connected_unregister_of_ne (hne : conn.userID ≠ userID) :
    connected userID (m.unregister conn) = connected userID m := by
  rw [Bool.eq_iff_iff]
  refine ⟨connected_of_unregister, fun h => ?_⟩
  rw [connected, decide_eq_true_iff] at h ⊢
  obtain ⟨other, hother, huser⟩ := h
  refine ⟨other, Finset.mem_erase.mpr ⟨?_, hother⟩, huser⟩
  rintro rfl
  exact hne huser

/-- The session that is unregistered is the last one exactly when its user was connected before
and is not afterwards. -/
theorem lastSession_iff (h : m.Grouped) : m.lastSession conn = true ↔
    connected conn.userID m = true ∧ connected conn.userID (m.unregister conn) = false := by
  have hafter := (h.unregister conn).sessions conn.userID
  rw [Manager.connections_unregister, Finset.filter_erase, ← h.sessions] at hafter
  rw [← Bool.not_eq_true, connected_iff h, connected_iff (h.unregister conn), hafter, not_not]
  unfold Manager.lastSession Manager.sessions
  rw [h conn.userID]
  by_cases hempty : m.connections.filter (·.userID = conn.userID) = ∅
  · simp [Manager.kept, hempty]
  · simp [Manager.kept, hempty]

/-- What the manager announces of a user is whether the user is connected, when that changes. -/
theorem reports_connected (userID : ℤ) :
    Reports Act.serve (fun a m => announced userID (a.published m)) (connected userID)
      Manager.Grouped where
  inv a m h := by
    cases a with
    | register conn => exact h.register conn
    | unregister conn => exact h.unregister conn
    | subscribe topic conn => exact h.subscribe conn topic
    | _ => exact h
  changed a m h := by
    cases a with
    | register conn =>
      have hfirst : m.firstSession conn = !connected conn.userID m := by
        rw [Bool.eq_iff_iff, Bool.not_eq_true', ← Bool.not_eq_true, connected_iff h, not_not]
        exact decide_eq_true_iff
      rw [Act.serve, connected_register, Act.published, Manager.registerEvents, hfirst]
      by_cases huser : conn.userID = userID
      · subst huser
        cases connected conn.userID m <;> simp [announced]
      · cases connected conn.userID m <;> simp [announced, huser]
    | unregister conn =>
      rw [Act.serve, Act.published, Manager.unregisterEvents]
      by_cases huser : conn.userID = userID
      · subst huser
        by_cases hlast : m.lastSession conn = true
        · obtain ⟨hbefore, hafter⟩ := (lastSession_iff h).mp hlast
          simp [hlast, hbefore, hafter, announced]
        · have hsame : connected conn.userID (m.unregister conn) = connected conn.userID m := by
            rw [Bool.eq_iff_iff]
            refine ⟨connected_of_unregister, fun hbefore => ?_⟩
            by_contra hafter
            exact hlast ((lastSession_iff h).mpr ⟨hbefore, Bool.eq_false_of_not_eq_true hafter⟩)
          simp [hlast, hsame, announced]
      · rw [connected_unregister_of_ne huser, if_pos rfl]
        split_ifs <;> simp [announced, huser]
    | subscribe topic conn => simp [Act.published, Act.serve, connected_subscribe, announced]
    | _ => simp [Act.published, Act.serve, announced]

theorem mem_sessions_iff (m : Manager) : conn ∈ m.sessions userID ↔
    ∃ sessions, m.userConns userID = some sessions ∧ conn ∈ sessions := by
  rw [Manager.sessions]
  cases m.userConns userID <;> simp

theorem grouped_start : start.manager.Grouped := by
  intro userID
  simp [start, Manager.kept]

theorem served_grouped (acts : List Act) : (served acts).Grouped :=
  (reports_connected 0).inv_foldl grouped_start acts

/-- In whatever order sessions are registered and unregistered, a user is announced as connected
and as disconnected in turn, beginning with connected, and the last announcement tells whether
the user has a session. The two tables of the sessions agree, and no user is kept without one. -/
theorem announcements_follow_sessions (acts : List Act) (userID : ℤ) :
    Alternates true (announced userID (publishedBy start.manager acts)) ∧
    ((announced userID (publishedBy start.manager acts)).getLast? = some true ↔
      ∃ conn ∈ (served acts).connections, conn.userID = userID) ∧
    (served acts).userConns userID ≠ some ∅ ∧
    ∀ conn, conn ∈ (served acts).connections ↔
      ∃ sessions, (served acts).userConns conn.userID = some sessions ∧ conn ∈ sessions := by
  have hgrouped := served_grouped acts
  have hnone : connected userID start.manager = false := by simp [connected, start]
  have hreports := reports_connected userID
  have halternates := hreports.alternates grouped_start acts
  have hlast := hreports.getLast?_reported grouped_start acts
  rw [hnone, ← announced_publishedBy] at halternates hlast
  refine ⟨halternates, ?_, ?_, fun conn => ?_⟩
  · have hlevel : connected userID (served acts) = true ↔
        ∃ conn ∈ (served acts).connections, conn.userID = userID := decide_eq_true_iff
    rw [← hlevel, served, ← hlast]
    cases (announced userID (publishedBy start.manager acts)).getLast? <;> simp
  · rw [hgrouped userID, Manager.kept]
    split_ifs with hempty
    · simp
    · simpa using hempty
  · rw [← mem_sessions_iff, hgrouped.sessions]
    simp

end Hub

end DotsAndBoxes
