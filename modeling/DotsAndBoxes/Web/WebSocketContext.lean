import DotsAndBoxes.Library.Runs
import Mathlib.Data.List.Count
import Mathlib.Data.List.Nodup
import Mathlib.Tactic

/-! # The socket of the browser

While someone is logged in the browser keeps a socket, and a second after it closes it tries for
another one. A login ends with its socket told to close, and the close event may come when the next
login has a socket already. The handler does not look whose socket it was, and takes the new one
for closed.
-/

namespace DotsAndBoxes.Web

open Runs

inductive ReadyState where
  | connecting
  | opened
  | closing
  deriving DecidableEq, Repr

structure Socket where
  id : ℕ
  /-- The login whose effect made the socket. -/
  login : ℕ
  readyState : ReadyState
  deriving DecidableEq, Repr

/-- The provider, with the attempts that wait for their URL and the sockets that have not closed.
The effect is numbered anew for each login. -/
structure WebSocketProvider where
  isAuthenticated : Bool := false
  login : ℕ := 0
  attempting : List ℕ := []
  reconnectTimeout : Option ℕ := none
  sockets : List Socket := []
  nextID : ℕ := 0
  socket : Option ℕ := none
  connected : Bool := false
  deriving DecidableEq, Repr

namespace WebSocketProvider

def cancelled (login : ℕ) (s : WebSocketProvider) : Bool := !s.isAuthenticated || s.login ≠ login

def scheduleReconnect (login : ℕ) (s : WebSocketProvider) : WebSocketProvider :=
  if s.cancelled login then s
  else { s with reconnectTimeout := some (s.reconnectTimeout.getD login) }

def attemptConnect (login : ℕ) (s : WebSocketProvider) : WebSocketProvider :=
  if s.cancelled login then s else { s with attempting := s.attempting ++ [login] }

def connect (login : ℕ) (s : WebSocketProvider) : WebSocketProvider :=
  if s.cancelled login then s
  else { s with
    sockets := s.sockets ++ [⟨s.nextID, login, .connecting⟩]
    nextID := s.nextID + 1
    socket := some s.nextID }

def setReadyState (id : ℕ) (readyState : ReadyState) (ws : Socket) : Socket :=
  if ws.id = id then { ws with readyState } else ws

def onopen (id : ℕ) (s : WebSocketProvider) : WebSocketProvider :=
  { s with
    sockets := s.sockets.map (setReadyState id .opened)
    connected := true
    reconnectTimeout := none }

def onclose (ws : Socket) (s : WebSocketProvider) : WebSocketProvider :=
  scheduleReconnect ws.login
    { s with
      sockets := s.sockets.filter (·.id ≠ ws.id)
      connected := false
      socket := none }

def onerror (id : ℕ) (s : WebSocketProvider) : WebSocketProvider :=
  { s with sockets := s.sockets.map (setReadyState id .closing) }

def logIn (s : WebSocketProvider) : WebSocketProvider :=
  attemptConnect (s.login + 1) { s with isAuthenticated := true, login := s.login + 1 }

/-- The effect is cleaned up. The next one finds no socket. -/
def logOut (s : WebSocketProvider) : WebSocketProvider :=
  { s with
    isAuthenticated := false
    reconnectTimeout := none
    sockets := match s.socket with
      | some id => s.sockets.map (setReadyState id .closing)
      | none => s.sockets
    socket := none
    connected := false }

def sendsOn (s : WebSocketProvider) : Option Socket :=
  s.socket.bind fun id => s.sockets.find? fun ws => ws.id = id ∧ ws.readyState = .opened

inductive Act where
  | logIn
  | logOut
  | urlComes (login : ℕ)
  | urlFails (login : ℕ)
  | opens (ws : Socket)
  | errs (ws : Socket)
  | closes (ws : Socket)
  | timeout (login : ℕ)

inductive Step : WebSocketProvider → Act → WebSocketProvider → Prop where
  | logIn {s} (h : s.isAuthenticated = false) : Step s .logIn s.logIn
  | logOut {s} (h : s.isAuthenticated = true) : Step s .logOut s.logOut
  | urlComes {s login} (h : login ∈ s.attempting) :
      Step s (.urlComes login) (connect login { s with attempting := s.attempting.erase login })
  | urlFails {s login} (h : login ∈ s.attempting) :
      Step s (.urlFails login)
        (scheduleReconnect login { s with attempting := s.attempting.erase login })
  | opens {s ws} (h : ws ∈ s.sockets) (hconnecting : ws.readyState = .connecting) :
      Step s (.opens ws) (s.onopen ws.id)
  | errs {s ws} (h : ws ∈ s.sockets) : Step s (.errs ws) (s.onerror ws.id)
  | closes {s ws} (h : ws ∈ s.sockets) : Step s (.closes ws) (s.onclose ws)
  | timeout {s login} (h : s.reconnectTimeout = some login) :
      Step s (.timeout login) (attemptConnect login { s with reconnectTimeout := none })

def Current (s : WebSocketProvider) (ws : Socket) : Prop :=
  s.isAuthenticated = true ∧ ws.login = s.login

/-- The ways in which the login in force has or will get a socket. -/
def tries (s : WebSocketProvider) : ℕ :=
  s.attempting.count s.login + s.reconnectTimeout.toList.length +
    s.sockets.countP (·.login = s.login)

/-- The provider follows the login: it has one socket, or tries for one; it sends on that and knows
whether it is open; and the sockets of earlier logins are closing. -/
structure Settled (s : WebSocketProvider) : Prop where
  tries : s.isAuthenticated = true → s.tries = 1
  current : ∀ ws ∈ s.sockets, s.Current ws → s.socket = some ws.id ∧
    (ws.readyState = .opened → s.connected = true) ∧
    (ws.readyState = .connecting → s.connected = false)
  idle : (∀ ws ∈ s.sockets, ¬ s.Current ws) → s.socket = none ∧ s.connected = false
  old : ∀ ws ∈ s.sockets, ¬ s.Current ws → ws.readyState = .closing

/-- A socket of an earlier login does not close when the login in force has a socket. -/
def ClosesInTime (s : WebSocketProvider) (act : Act) : Prop :=
  ∀ ws, act = .closes ws → ¬ s.Current ws → ∀ ws' ∈ s.sockets, ¬ s.Current ws'

structure Sound (s : WebSocketProvider) : Prop where
  distinct : (s.sockets.map (·.id)).Nodup
  bound : ∀ ws ∈ s.sockets, ws.id < s.nextID
  sockets : ∀ ws ∈ s.sockets, ws.login ≤ s.login
  attempting : ∀ login ∈ s.attempting, login ≤ s.login
  timeout : ∀ login, s.reconnectTimeout = some login → s.isAuthenticated = true ∧ login = s.login

variable {s s' : WebSocketProvider} {act : Act} {ws : Socket} {login : ℕ}

theorem cancelled_eq_false_iff :
    s.cancelled login = false ↔ s.isAuthenticated = true ∧ s.login = login := by
  simp [cancelled]

structure Relabels (f : Socket → Socket) : Prop where
  id : ∀ ws, (f ws).id = ws.id
  login : ∀ ws, (f ws).login = ws.login

theorem relabels_setReadyState (id : ℕ) (readyState : ReadyState) :
    Relabels (setReadyState id readyState) := by
  constructor
  · intro ws
    unfold setReadyState
    split_ifs <;> rfl
  · intro ws
    unfold setReadyState
    split_ifs <;> rfl

theorem exists_relabels_logOut (s : WebSocketProvider) : ∃ f, Relabels f ∧
    s.logOut.sockets = s.sockets.map f ∧ ∀ ws, (f ws).readyState = .closing ∨
      (f ws).readyState = ws.readyState ∧ s.socket ≠ some ws.id := by
  cases hsocket : s.socket with
  | none =>
    refine ⟨fun ws => ws, ⟨fun _ => rfl, fun _ => rfl⟩, ?_, fun ws => .inr ⟨rfl, by simp⟩⟩
    simp [logOut, hsocket]
  | some id =>
    refine ⟨setReadyState id .closing, relabels_setReadyState _ _, by simp [logOut, hsocket], ?_⟩
    intro ws
    unfold setReadyState
    split_ifs with hid
    · exact .inl rfl
    · exact .inr ⟨rfl, by simpa [eq_comm] using hid⟩

theorem countP_relabels {f : Socket → Socket} (hf : Relabels f) (sockets : List Socket) :
    (sockets.map f).countP (·.login = login) = sockets.countP (·.login = login) := by
  rw [List.countP_map]
  congr 1
  funext ws
  simp [hf.login]

theorem Sound.relabel (h : s.Sound) {f : Socket → Socket} (hf : Relabels f)
    (hsockets : s'.sockets = s.sockets.map f) (hnext : s'.nextID = s.nextID)
    (hlogin : s'.login = s.login) (hattempting : s'.attempting = s.attempting)
    (htimeout : ∀ login, s'.reconnectTimeout = some login →
      s'.isAuthenticated = true ∧ login = s'.login) : s'.Sound := by
  constructor
  · rw [hsockets, List.map_map]
    simpa only [Function.comp_def, hf.id] using h.distinct
  · rw [hsockets, hnext]
    simpa [hf.id] using h.bound
  · rw [hsockets, hlogin]
    simpa [hf.login] using h.sockets
  · rw [hattempting, hlogin]
    exact h.attempting
  · exact htimeout

theorem Sound.attempt (h : s.Sound) {attempting : List ℕ}
    (hattempting : ∀ login ∈ attempting, login ≤ s.login) : Sound { s with attempting } :=
  ⟨h.distinct, h.bound, h.sockets, hattempting, h.timeout⟩

theorem Sound.scheduleReconnect (h : s.Sound) (login : ℕ) : (s.scheduleReconnect login).Sound := by
  unfold WebSocketProvider.scheduleReconnect
  split_ifs with hcancelled
  · exact h
  · obtain ⟨hauth, rfl⟩ := cancelled_eq_false_iff.mp (Bool.eq_false_iff.mpr hcancelled)
    refine ⟨h.distinct, h.bound, h.sockets, h.attempting, fun login hlogin => ?_⟩
    obtain rfl := Option.some.inj hlogin
    cases htimeout : s.reconnectTimeout with
    | none => exact ⟨hauth, rfl⟩
    | some l => exact h.timeout l htimeout

theorem Sound.connect (h : s.Sound) (login : ℕ) : (s.connect login).Sound := by
  unfold WebSocketProvider.connect
  split_ifs with hcancelled
  · exact h
  · obtain ⟨-, rfl⟩ := cancelled_eq_false_iff.mp (Bool.eq_false_iff.mpr hcancelled)
    refine ⟨?_, ?_, ?_, h.attempting, h.timeout⟩
    · rw [List.map_append, List.nodup_append]
      refine ⟨h.distinct, List.nodup_singleton _, ?_⟩
      rintro id hid _ hnew rfl
      obtain ⟨ws, hws, rfl⟩ := List.mem_map.mp hid
      exact (h.bound ws hws).ne (List.mem_singleton.mp hnew)
    · intro ws hws
      rcases List.mem_append.mp hws with hold | hnew
      · exact (h.bound ws hold).trans (Nat.lt_succ_self _)
      · obtain rfl := List.mem_singleton.mp hnew
        exact Nat.lt_succ_self _
    · intro ws hws
      rcases List.mem_append.mp hws with hold | hnew
      · exact h.sockets ws hold
      · obtain rfl := List.mem_singleton.mp hnew
        exact le_rfl

theorem Sound.attemptConnect (h : s.Sound) (login : ℕ) : (s.attemptConnect login).Sound := by
  unfold WebSocketProvider.attemptConnect
  split_ifs with hcancelled
  · exact h
  · obtain ⟨-, rfl⟩ := cancelled_eq_false_iff.mp (Bool.eq_false_iff.mpr hcancelled)
    refine h.attempt fun login hlogin => ?_
    rcases List.mem_append.mp hlogin with hold | hnew
    · exact h.attempting login hold
    · exact (List.mem_singleton.mp hnew).le

theorem Sound.step (h : s.Sound) (hstep : Step s act s') : s'.Sound := by
  have herase (login : ℕ) : Sound { s with attempting := s.attempting.erase login } :=
    h.attempt fun l hl => h.attempting l (List.mem_of_mem_erase hl)
  cases hstep with
  | logIn hout =>
    have hin : Sound { s with isAuthenticated := true, login := s.login + 1 } := by
      refine ⟨h.distinct, h.bound, fun ws hws => (h.sockets ws hws).trans (Nat.le_succ _),
        fun l hl => (h.attempting l hl).trans (Nat.le_succ _), fun l hl => ?_⟩
      have hauth := (h.timeout l hl).1
      rw [hout] at hauth
      cases hauth
    exact hin.attemptConnect _
  | logOut =>
    obtain ⟨f, hf, hsockets, -⟩ := exists_relabels_logOut s
    exact h.relabel hf hsockets rfl rfl rfl fun _ hl => by cases hl
  | urlComes => exact (herase _).connect _
  | urlFails => exact (herase _).scheduleReconnect _
  | opens => exact h.relabel (relabels_setReadyState _ _) rfl rfl rfl rfl fun _ hl => by cases hl
  | errs => exact h.relabel (relabels_setReadyState _ _) rfl rfl rfl rfl h.timeout
  | @closes ws hws =>
    have hclosed : Sound { s with
        sockets := s.sockets.filter (·.id ≠ ws.id)
        connected := false
        socket := none } :=
      ⟨h.distinct.sublist (List.filter_sublist.map _),
        fun w hw => h.bound w (List.mem_of_mem_filter hw),
        fun w hw => h.sockets w (List.mem_of_mem_filter hw), h.attempting, h.timeout⟩
    exact hclosed.scheduleReconnect _
  | timeout =>
    have hfired : Sound { s with reconnectTimeout := none } :=
      ⟨h.distinct, h.bound, h.sockets, h.attempting, fun _ hl => by cases hl⟩
    exact hfired.attemptConnect _

theorem Sound.eq_of_id (h : s.Sound) {ws' : Socket} (hws : ws ∈ s.sockets) (hws' : ws' ∈ s.sockets)
    (hid : ws.id = ws'.id) : ws = ws' :=
  List.inj_on_of_nodup_map h.distinct hws hws' hid

theorem countP_login_eq_zero :
    s.sockets.countP (·.login = s.login) = 0 ↔ ∀ ws ∈ s.sockets, ws.login ≠ s.login := by
  simp [List.countP_eq_zero]

theorem Settled.of_attempting (h : s.Settled) (hin : s.isAuthenticated = true)
    (hmem : s.login ∈ s.attempting) : (s.attempting.erase s.login).count s.login = 0 ∧
      s.reconnectTimeout = none ∧ ∀ ws ∈ s.sockets, ws.login ≠ s.login := by
  have htries := h.tries hin
  have hcount := List.count_pos_iff.mpr hmem
  unfold WebSocketProvider.tries at htries
  rw [List.count_erase_self, ← countP_login_eq_zero]
  refine ⟨by omega, ?_, by omega⟩
  cases htimeout : s.reconnectTimeout with
  | none => rfl
  | some l =>
    rw [htimeout, Option.toList_some, List.length_singleton] at htries
    omega

theorem Settled.of_timeout (h : s.Settled) (hin : s.isAuthenticated = true)
    (htimeout : s.reconnectTimeout = some login) : s.attempting.count s.login = 0 ∧
      ∀ ws ∈ s.sockets, ws.login ≠ s.login := by
  have htries := h.tries hin
  rw [WebSocketProvider.tries, htimeout, Option.toList_some, List.length_singleton] at htries
  rw [← countP_login_eq_zero]
  omega

theorem Settled.of_socket (h : s.Settled) (hws : ws ∈ s.sockets) (hcurrent : s.Current ws) :
    s.attempting.count s.login = 0 ∧ s.reconnectTimeout = none := by
  have htries := h.tries hcurrent.1
  have hcount : 0 < s.sockets.countP (·.login = s.login) :=
    List.countP_pos_iff.mpr ⟨ws, hws, by simpa using hcurrent.2⟩
  unfold WebSocketProvider.tries at htries
  refine ⟨by omega, ?_⟩
  cases htimeout : s.reconnectTimeout with
  | none => rfl
  | some l =>
    rw [htimeout, Option.toList_some, List.length_singleton] at htries
    omega

theorem Settled.logIn (h : s.Settled) (hs : s.Sound) (hout : s.isAuthenticated = false) :
    s.logIn.Settled := by
  have hnone : ∀ ws ∈ s.sockets, ¬ s.Current ws := fun ws _ hcurrent => by
    rw [hcurrent.1] at hout
    cases hout
  have hlogIn : s.logIn = { s with
      isAuthenticated := true
      login := s.login + 1
      attempting := s.attempting ++ [s.login + 1] } := by
    simp [WebSocketProvider.logIn, attemptConnect, cancelled]
  have hnew : ∀ ws ∈ s.sockets, ws.login ≠ s.login + 1 := fun ws hws =>
    (Nat.lt_succ_of_le (hs.sockets ws hws)).ne
  have hnone' : ∀ ws ∈ s.sockets, ¬ s.logIn.Current ws := fun ws hws hcurrent => by
    rw [hlogIn] at hcurrent
    exact hnew ws hws hcurrent.2
  rw [hlogIn] at hnone' ⊢
  refine ⟨fun _ => ?_, fun ws hws hcurrent => absurd hcurrent (hnone' ws hws),
    fun _ => h.idle hnone, fun ws hws _ => h.old ws hws (hnone ws hws)⟩
  have hcount : s.attempting.count (s.login + 1) = 0 := by
    rw [List.count_eq_zero]
    exact fun hmem => absurd (hs.attempting _ hmem) (Nat.not_succ_le_self _)
  have htimeout : s.reconnectTimeout = none := by
    rw [Option.eq_none_iff_forall_ne_some]
    intro l hl
    rw [(hs.timeout l hl).1] at hout
    cases hout
  have hsockets : s.sockets.countP (·.login = s.login + 1) = 0 := by
    simpa [List.countP_eq_zero] using hnew
  simp [WebSocketProvider.tries, hcount, htimeout, hsockets]

theorem Settled.logOut (h : s.Settled) : s.logOut.Settled := by
  obtain ⟨f, hf, hsockets, hstate⟩ := exists_relabels_logOut s
  have hout : s.logOut.isAuthenticated = false := rfl
  refine ⟨fun hin => ?_, fun ws _ hcurrent => ?_, fun _ => ⟨rfl, rfl⟩, fun ws hws _ => ?_⟩
  · rw [hout] at hin
    cases hin
  · have hin := hcurrent.1
    rw [hout] at hin
    cases hin
  · rw [hsockets] at hws
    obtain ⟨w, hw, rfl⟩ := List.mem_map.mp hws
    rcases hstate w with hclosing | ⟨hsame, hother⟩
    · exact hclosing
    · rw [hsame]
      exact h.old w hw fun hcurrent => hother (h.current w hw hcurrent).1

theorem Settled.erase (h : s.Settled) (hcancelled : s.cancelled login = true) :
    Settled { s with attempting := s.attempting.erase login } := by
  refine ⟨fun hin => ?_, h.current, h.idle, h.old⟩
  have hother : s.login ≠ login := fun heq => by
    have hlive : s.cancelled login = false := cancelled_eq_false_iff.mpr ⟨hin, heq⟩
    rw [hlive] at hcancelled
    cases hcancelled
  have htries := h.tries hin
  rw [WebSocketProvider.tries] at htries ⊢
  rwa [List.count_erase_of_ne hother]

theorem Settled.urlComes (h : s.Settled) (hlogin : login ∈ s.attempting) :
    (connect login { s with attempting := s.attempting.erase login }).Settled := by
  unfold connect
  split_ifs with hcancelled
  · exact h.erase hcancelled
  · have hlive : s.cancelled login = false := Bool.eq_false_iff.mpr hcancelled
    obtain ⟨hin, rfl⟩ := cancelled_eq_false_iff.mp hlive
    obtain ⟨hcount, htimeout, hsockets⟩ := h.of_attempting hin hlogin
    have hnone : ∀ ws ∈ s.sockets, ¬ s.Current ws := fun ws hws hcurrent =>
      hsockets ws hws hcurrent.2
    constructor
    · intro _
      simp [WebSocketProvider.tries, hcount, htimeout, countP_login_eq_zero.mpr hsockets]
    · intro ws hws hcurrent
      rcases List.mem_append.mp hws with hold | hnew
      · exact absurd hcurrent (hnone ws hold)
      · obtain rfl := List.mem_singleton.mp hnew
        exact ⟨rfl, fun hopened => (by cases hopened), fun _ => (h.idle hnone).2⟩
    · intro hall
      exact absurd ⟨hin, rfl⟩ (hall _ (List.mem_append_right _ (List.mem_singleton_self _)))
    · intro ws hws hcurrent
      rcases List.mem_append.mp hws with hold | hnew
      · exact h.old ws hold (hnone ws hold)
      · obtain rfl := List.mem_singleton.mp hnew
        exact absurd ⟨hin, rfl⟩ hcurrent

theorem Settled.urlFails (h : s.Settled) (hlogin : login ∈ s.attempting) :
    (scheduleReconnect login { s with attempting := s.attempting.erase login }).Settled := by
  unfold scheduleReconnect
  split_ifs with hcancelled
  · exact h.erase hcancelled
  · have hlive : s.cancelled login = false := Bool.eq_false_iff.mpr hcancelled
    obtain ⟨hin, rfl⟩ := cancelled_eq_false_iff.mp hlive
    obtain ⟨hcount, -, hsockets⟩ := h.of_attempting hin hlogin
    refine ⟨fun _ => ?_, h.current, h.idle, h.old⟩
    simp [WebSocketProvider.tries, hcount, countP_login_eq_zero.mpr hsockets]

theorem Settled.opens (h : s.Settled) (hs : s.Sound) (hws : ws ∈ s.sockets)
    (hconnecting : ws.readyState = .connecting) : (s.onopen ws.id).Settled := by
  have hf := relabels_setReadyState ws.id .opened
  have hcurrent : s.Current ws := by
    by_contra hold
    rw [h.old ws hws hold] at hconnecting
    cases hconnecting
  obtain ⟨-, htimeout⟩ := h.of_socket hws hcurrent
  obtain ⟨hsocket, -⟩ := h.current ws hws hcurrent
  have hmap (w : Socket) : (s.onopen ws.id).Current (setReadyState ws.id .opened w) ↔
      s.Current w := by
    simp [Current, onopen, hf.login]
  constructor
  · intro hin
    have htries := h.tries hin
    rw [WebSocketProvider.tries, htimeout] at htries
    rwa [WebSocketProvider.tries, onopen, countP_relabels hf]
  · intro w' hw' hcurrent'
    obtain ⟨w, hw, rfl⟩ := List.mem_map.mp hw'
    obtain ⟨hsocket', -⟩ := h.current w hw ((hmap w).mp hcurrent')
    have hid : w.id = ws.id := Option.some.inj (hsocket'.symm.trans hsocket)
    refine ⟨(hf.id w).symm ▸ hsocket', fun _ => rfl, fun hw => ?_⟩
    rw [setReadyState, if_pos hid] at hw
    cases hw
  · intro hall
    exact absurd ((hmap ws).mpr hcurrent) (hall _ (List.mem_map_of_mem hws))
  · intro w' hw' hold
    obtain ⟨w, hw, rfl⟩ := List.mem_map.mp hw'
    have hold := mt (hmap w).mpr hold
    have hid : w.id ≠ ws.id := fun hid => hold (hs.eq_of_id hw hws hid ▸ hcurrent)
    rw [setReadyState, if_neg hid]
    exact h.old w hw hold

theorem Settled.errs (h : s.Settled) (id : ℕ) : (s.onerror id).Settled := by
  have hf := relabels_setReadyState id .closing
  have hmap (w : Socket) : (s.onerror id).Current (setReadyState id .closing w) ↔
      s.Current w := by
    simp [Current, onerror, hf.login]
  have hstate (w : Socket) : (setReadyState id .closing w).readyState = .closing ∨
      (setReadyState id .closing w).readyState = w.readyState := by
    unfold setReadyState
    split_ifs <;> simp
  constructor
  · intro hin
    have htries := h.tries hin
    rw [WebSocketProvider.tries] at htries
    rwa [WebSocketProvider.tries, onerror, countP_relabels hf]
  · intro w' hw' hcurrent
    obtain ⟨w, hw, rfl⟩ := List.mem_map.mp hw'
    obtain ⟨hsocket, hopened, hconnecting⟩ := h.current w hw ((hmap w).mp hcurrent)
    refine ⟨(hf.id w).symm ▸ hsocket, fun hw' => ?_, fun hw' => ?_⟩
    · rcases hstate w with hclosing | hsame
      · rw [hclosing] at hw'
        cases hw'
      · exact hopened (hsame ▸ hw')
    · rcases hstate w with hclosing | hsame
      · rw [hclosing] at hw'
        cases hw'
      · exact hconnecting (hsame ▸ hw')
  · intro hall
    exact h.idle fun w hw hcurrent => hall _ (List.mem_map_of_mem hw) ((hmap w).mpr hcurrent)
  · intro w' hw' hold
    obtain ⟨w, hw, rfl⟩ := List.mem_map.mp hw'
    rcases hstate w with hclosing | hsame
    · exact hclosing
    · exact hsame.trans (h.old w hw (mt (hmap w).mpr hold))

theorem Settled.closed (h : s.Settled) (hleft : ∀ w ∈ s.sockets, s.Current w → w.id = ws.id)
    {reconnectTimeout : Option ℕ} (htries : s.isAuthenticated = true →
      s.attempting.count s.login + reconnectTimeout.toList.length = 1) :
    Settled { s with
      reconnectTimeout
      sockets := s.sockets.filter (·.id ≠ ws.id)
      connected := false
      socket := none } := by
  have hnone : ∀ w ∈ s.sockets.filter (·.id ≠ ws.id), ¬ s.Current w := by
    intro w hw hcurrent
    obtain ⟨hw, hid⟩ := List.mem_filter.mp hw
    exact of_decide_eq_true hid (hleft w hw hcurrent)
  refine ⟨fun hin => ?_, fun w hw hcurrent => absurd hcurrent (hnone w hw), fun _ => ⟨rfl, rfl⟩,
    fun w hw _ => h.old w (List.mem_of_mem_filter hw) (hnone w hw)⟩
  have hcount : (s.sockets.filter (·.id ≠ ws.id)).countP (·.login = s.login) = 0 := by
    rw [List.countP_eq_zero]
    intro w hw hlogin
    exact hnone w hw ⟨hin, of_decide_eq_true hlogin⟩
  have hone := htries hin
  simp only [WebSocketProvider.tries, hcount]
  exact hone

theorem Settled.closes (h : s.Settled) (hws : ws ∈ s.sockets)
    (hintime : ¬ s.Current ws → ∀ w ∈ s.sockets, ¬ s.Current w) : (s.onclose ws).Settled := by
  unfold onclose scheduleReconnect
  split_ifs with hcancelled
  · have hold : ¬ s.Current ws := fun hcurrent => by
      have hlive : s.cancelled ws.login = false :=
        cancelled_eq_false_iff.mpr ⟨hcurrent.1, hcurrent.2.symm⟩
      exact Bool.eq_false_iff.mp hlive hcancelled
    have hnone := hintime hold
    refine h.closed (fun w hw hcurrent => absurd hcurrent (hnone w hw)) fun hin => ?_
    have htries := h.tries hin
    rw [WebSocketProvider.tries, countP_login_eq_zero.mpr fun w hw hlogin =>
      hnone w hw ⟨hin, hlogin⟩] at htries
    exact htries
  · have hlive : s.cancelled ws.login = false := Bool.eq_false_iff.mpr hcancelled
    obtain ⟨hin, hlogin⟩ := cancelled_eq_false_iff.mp hlive
    have hcurrent : s.Current ws := ⟨hin, hlogin.symm⟩
    obtain ⟨hcount, htimeout⟩ := h.of_socket hws hcurrent
    have hleft : ∀ w ∈ s.sockets, s.Current w → w.id = ws.id := fun w hw hw' =>
      Option.some.inj ((h.current w hw hw').1.symm.trans (h.current ws hws hcurrent).1)
    refine h.closed hleft fun _ => ?_
    rw [hcount]
    rfl

theorem Settled.timeout (h : s.Settled) (hs : s.Sound)
    (hlogin : s.reconnectTimeout = some login) :
    (attemptConnect login { s with reconnectTimeout := none }).Settled := by
  obtain ⟨hin, rfl⟩ := hs.timeout login hlogin
  obtain ⟨hcount, hsockets⟩ := h.of_timeout hin hlogin
  have hlive : s.cancelled s.login = false := cancelled_eq_false_iff.mpr ⟨hin, rfl⟩
  have hattempt : attemptConnect s.login { s with reconnectTimeout := none } =
      { s with reconnectTimeout := none, attempting := s.attempting ++ [s.login] } :=
    if_neg (Bool.eq_false_iff.mp hlive)
  rw [hattempt]
  refine ⟨fun _ => ?_, h.current, h.idle, h.old⟩
  simp [WebSocketProvider.tries, hcount, countP_login_eq_zero.mpr hsockets]

theorem Settled.step (h : s.Settled) (hs : s.Sound) (hstep : Step s act s')
    (hintime : s.ClosesInTime act) : s'.Settled := by
  cases hstep with
  | logIn hout => exact h.logIn hs hout
  | logOut => exact h.logOut
  | urlComes hlogin => exact h.urlComes hlogin
  | urlFails hlogin => exact h.urlFails hlogin
  | opens hws hconnecting => exact h.opens hs hws hconnecting
  | errs => exact h.errs _
  | closes hws => exact h.closes hws (hintime _ rfl)
  | timeout hlogin => exact h.timeout hs hlogin

theorem Settled.step_iff (h : s.Settled) (hs : s.Sound) (hstep : Step s act s') :
    s'.Settled ↔ s.ClosesInTime act := by
  refine ⟨?_, h.step hs hstep⟩
  rintro hsettled ws rfl hold w hw hcurrent
  cases hstep with
  | closes hws =>
    have hcancelled : s.cancelled ws.login = true := by
      by_contra hlive
      obtain ⟨hin, hlogin⟩ := cancelled_eq_false_iff.mp (Bool.eq_false_iff.mpr hlive)
      exact hold ⟨hin, hlogin.symm⟩
    have hclosed : s.onclose ws = { s with
        sockets := s.sockets.filter (·.id ≠ ws.id)
        connected := false
        socket := none } := if_pos hcancelled
    rw [hclosed] at hsettled
    have hne : w.id ≠ ws.id := fun hid => hold (hs.eq_of_id hw hws hid ▸ hcurrent)
    have hleft : w ∈ s.sockets.filter (·.id ≠ ws.id) :=
      List.mem_filter.mpr ⟨hw, decide_eq_true hne⟩
    have hsocket := (hsettled.current w hleft hcurrent).1
    cases hsocket

theorem Settled.sendsOn_iff (h : s.Settled) (hs : s.Sound) :
    s.sendsOn = some ws ↔ ws ∈ s.sockets ∧ ws.readyState = .opened := by
  constructor
  · intro hsends
    obtain ⟨id, -, hfind⟩ := Option.bind_eq_some_iff.mp hsends
    have hopened := List.find?_some hfind
    exact ⟨List.mem_of_find?_eq_some hfind, (of_decide_eq_true hopened).2⟩
  · rintro ⟨hws, hopened⟩
    have hcurrent : s.Current ws := by
      by_contra hold
      rw [h.old ws hws hold] at hopened
      cases hopened
    rw [sendsOn, (h.current ws hws hcurrent).1, Option.bind_some]
    have hsome : (s.sockets.find? fun w => w.id = ws.id ∧ w.readyState = .opened).isSome := by
      rw [List.find?_isSome]
      exact ⟨ws, hws, by simp [hopened]⟩
    obtain ⟨w, hw⟩ := Option.isSome_iff_exists.mp hsome
    have hfound := List.find?_some hw
    have hid := (of_decide_eq_true hfound).1
    rw [hw, hs.eq_of_id (List.mem_of_find?_eq_some hw) hws hid]

def start : WebSocketProvider := {}

theorem sound_start : start.Sound :=
  ⟨List.nodup_nil, nofun, nofun, nofun, nofun⟩

theorem settled_start : start.Settled :=
  ⟨nofun, nofun, fun _ => ⟨rfl, rfl⟩, nofun⟩

/-- On every run of logins, logouts, sockets and timers, the provider always follows the login
exactly if no socket of an earlier login closes while the login in force has a socket. While it
does, a message is sent exactly if a socket is open, and on that. -/
theorem follows_login_iff {run : List (Act × WebSocketProvider)} (hrun : Along Step start run) :
    ((∀ s ∈ visited start run, s.Settled) ↔
      Along (fun s act _ => s.ClosesInTime act) start run) ∧
    ∀ s ∈ visited start run, s.Settled → ∀ ws,
      s.sendsOn = some ws ↔ ws ∈ s.sockets ∧ ws.readyState = .opened := by
  have hsound : ∀ s ∈ visited start run, s.Sound :=
    hrun.forall_visited sound_start fun s act s' h hstep => h.step hstep
  constructor
  · refine visited_good_iff (fun s => s.Sound ∧ s.Settled) hrun settled_start
      ⟨sound_start, settled_start⟩ ?_ ?_
    · rintro s act s' ⟨hs, hsettled⟩ hstep
      exact hsettled.step_iff hs hstep
    · rintro s act s' ⟨hs, hsettled⟩ hstep hintime
      exact ⟨hs.step hstep, hsettled.step hs hstep hintime⟩
  · intro s hs hsettled ws
    exact hsettled.sendsOn_iff (hsound s hs)

/-- The socket of the first login closes when that of the second one is open. -/
theorem follows_login_iff_again : ∃ run, Along Step start run ∧
    ¬ (∀ s ∈ visited start run, s.Settled) ∧ (last start run).sendsOn = none ∧
      ⟨1, 2, .opened⟩ ∈ (last start run).sockets := by
  let old : Socket := ⟨0, 1, .closing⟩
  let s₁ := start.logIn
  let s₂ := connect 1 { s₁ with attempting := s₁.attempting.erase 1 }
  let s₃ := s₂.logOut
  let s₄ := s₃.logIn
  let s₅ := connect 2 { s₄ with attempting := s₄.attempting.erase 2 }
  let s₆ := s₅.onopen 1
  let s₇ := s₆.onclose old
  let run : List (Act × WebSocketProvider) := [(.logIn, s₁), (.urlComes 1, s₂), (.logOut, s₃),
    (.logIn, s₄), (.urlComes 2, s₅), (.opens ⟨1, 2, .connecting⟩, s₆), (.closes old, s₇)]
  have hopens : Step s₅ (.opens ⟨1, 2, .connecting⟩) s₆ := .opens (by decide) rfl
  have hrun : Along Step start run :=
    ⟨.logIn rfl, .urlComes (by decide), .logOut rfl, .logIn rfl, .urlComes (by decide), hopens,
      .closes (by decide), trivial⟩
  refine ⟨run, hrun, fun hsettled => ?_, by decide, by decide⟩
  obtain ⟨-, -, -, -, -, -, hlate, -⟩ := (follows_login_iff hrun).1.mp hsettled
  have hother : ¬ s₆.Current old := fun hcurrent => absurd hcurrent.2 (by decide)
  exact hlate old rfl hother ⟨1, 2, .opened⟩ (by decide) ⟨rfl, rfl⟩

end WebSocketProvider

end DotsAndBoxes.Web
