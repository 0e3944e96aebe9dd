import DotsAndBoxes.Library.Runs
import DotsAndBoxes.User.Sessions

/-! # The tabs of a browser

A tab keeps the guest that it has been given, and shows it for whoever it acts for. What it acts
for is the session cookie, which all tabs of the browser share. A tab that is new knows of no guest
and is given one, and with the cookie of the new guest all the others act for it too, while they go
on to show the old one.
-/

namespace DotsAndBoxes.Web

open Serial Runs

structure Tab where
  /-- The user in the session storage of the tab. -/
  cachedMe : Option User := none
  /-- What the query for the user has answered, since the page was loaded. -/
  me : Option (Option User) := none
  deriving DecidableEq, Repr

/-- A tab in which the answer to its guest login is handled. The form has the query fetched anew. -/
def Tab.given (form : Bool) (guest : User) (tab : Tab) : Tab where
  cachedMe := some guest
  me := if form then tab.me else some (some guest)

/-- The user is in the storage of the tab, or the tab shows it. -/
def Tab.Keeps (tab : Tab) (user : User) : Prop :=
  tab.cachedMe = some user ∨ tab.me = some (some user)

inductive Request where
  /-- A guest login, made from the form or for a tab that has no user. -/
  | guest (form : Bool) (prog : Prog Users UserAnswer)
  | guestCreated (form : Bool) (cookie : Cookie) (guest : User)
  | guestRefused
  | logout

def Request.created : Request → Option User
  | .guest _ (.ret (.ok user)) | .guestCreated _ _ user => some user
  | _ => none

/-- A request, and the tab whose page waits for the answer. -/
structure Flight (ι : Type) where
  tab : Option ι
  request : Request

/-- A browser and the users of the server, with the requests by number. -/
structure Browser (ι : Type) where
  now : Time
  users : Users
  cookie : Option Cookie
  tabs : ι → Tab
  requests : ℕ → Option (Flight ι)

namespace Browser

variable {ι : Type}

/-- No tab has been opened yet. The cookie may be there from before. -/
def opened (now : Time) (users : Users) (cookie : Option Cookie) : Browser ι :=
  ⟨now, users, cookie, fun _ => {}, fun _ => none⟩

inductive Act (ι : Type) where
  /-- The query for the user is fetched. -/
  | fetchUser (i : ι)
  | ensureGuestSession (i : ι) (n : ℕ) (suffix : List (Fin 256))
  | loginAsGuest (i : ι) (n : ℕ) (preferredUsername : String) (suffix : List (Fin 256))
  | logout (i : ι) (n : ℕ)
  | reload (i : ι)
  | close (i : ι)
  /-- A tab is opened with a copy of the session storage of another. -/
  | duplicate (i j : ι)
  /-- The server goes on with the request. -/
  | serve (n : ℕ)
  | arrive (n : ℕ)
  | lose (n : ℕ)
  /-- Another browser is given a guest. -/
  | elsewhere (username : String)
  | clock (t : Time)

def served (sign : Signing) (now : Time) (users : Users) : Request → Users × Request
  | .guest form (.act update next) => (update users, .guest form (next users))
  | .guest form (.ret (.ok guest)) =>
    (users, .guestCreated form (sessionCookie sign now guest) guest)
  | .guest _ (.ret (.error _)) => (users, .guestRefused)
  | request => (users, request)

def send (n : ℕ) (flight : Flight ι) (s : Browser ι) : Browser ι :=
  match s.requests n with
  | none => { s with requests := Function.update s.requests n (some flight) }
  | some _ => s

def drop (n : ℕ) (s : Browser ι) : Browser ι :=
  { s with requests := Function.update s.requests n none }

def setCookie (cookie : Option Cookie) (s : Browser ι) : Browser ι := { s with cookie }

variable [DecidableEq ι]

def setTab (i : ι) (tab : Tab) (s : Browser ι) : Browser ι :=
  { s with tabs := Function.update s.tabs i tab }

/-- The page of the tab goes, and with it what waits for answers. -/
def unload (i : ι) (s : Browser ι) : Browser ι :=
  { s with requests := fun n => (s.requests n).map fun flight =>
      if flight.tab = some i then { flight with tab := none } else flight }

def handleIn (tab : Option ι) (f : Tab → Tab) (s : Browser ι) : Browser ι :=
  match tab with
  | none => s
  | some i => s.setTab i (f (s.tabs i))

def step (sign : Signing) : Act ι → Browser ι → Browser ι
  | .fetchUser i, s => s.setTab i { s.tabs i with me := some (s.tabs i).cachedMe }
  | .ensureGuestSession i n suffix, s =>
    let me := (s.tabs i).me.getD (s.tabs i).cachedMe
    let s := s.setTab i { s.tabs i with me := some me }
    if me.isNone then s.send n ⟨some i, .guest false (UserService.createGuestUser "" suffix)⟩
    else s
  | .loginAsGuest i n preferredUsername suffix, s =>
    s.send n ⟨some i, .guest true (UserService.createGuestUser preferredUsername suffix)⟩
  | .logout i n, s => s.send n ⟨some i, .logout⟩
  | .reload i, s => (s.setTab i { s.tabs i with me := none }).unload i
  | .close i, s => (s.setTab i {}).unload i
  | .duplicate i j, s =>
    if s.tabs j = {} then s.setTab j { cachedMe := (s.tabs i).cachedMe } else s
  | .serve n, s =>
    match s.requests n with
    | none => s
    | some flight =>
      let (users, request) := served sign s.now s.users flight.request
      { s with users, requests := Function.update s.requests n (some { flight with request }) }
  | .arrive n, s =>
    match s.requests n with
    | some ⟨tab, .guestCreated form cookie guest⟩ =>
      ((s.drop n).setCookie (some cookie)).handleIn tab (·.given form guest)
    | some ⟨_, .guestRefused⟩ => s.drop n
    | some ⟨tab, .logout⟩ =>
      ((s.drop n).setCookie none).handleIn tab fun _ => { me := some none }
    | some ⟨_, .guest _ _⟩ | none => s
  | .lose n, s => s.drop n
  | .elsewhere username, s => { s with users := s.users.insert username none true }
  | .clock t, s => { s with now := max s.now t }

def played (sign : Signing) (s : Browser ι) : List (Act ι) → List (Act ι × Browser ι)
  | [] => []
  | act :: acts => (act, s.step sign act) :: played sign (s.step sign act) acts

section Statements

omit [DecidableEq ι]

def session (sign : Signing) (s : Browser ι) : Except String Claims :=
  requestSession sign s.now s.cookie

/-- The server takes a request from the browser for one of the user. -/
def ActsFor (sign : Signing) (s : Browser ι) (user : User) : Prop :=
  ∃ claims, s.session sign = .ok claims ∧
    claims.userID = user.userID ∧ claims.username = user.username

def InStep (sign : Signing) (s : Browser ι) : Prop :=
  ∀ i user, (s.tabs i).Keeps user → s.ActsFor sign user

def Kept (s : Browser ι) (user : User) : Prop := ∃ i, (s.tabs i).Keeps user

def KeptBeside (s : Browser ι) (tab : Option ι) : Prop :=
  ∃ i user, (s.tabs i).Keeps user ∧ tab ≠ some i

def Expired (sign : Signing) (now : Time) (cookie : Option Cookie) : Prop :=
  ∀ claims, requestSession sign now cookie ≠ .ok claims

/-- A guest or a logout comes while another tab keeps a user, or a guest for the form of a tab that
shows one already; or the session expires while a tab keeps a user, or before its guest comes. -/
def Disturbs (sign : Signing) (s : Browser ι) : Act ι → Prop
  | .arrive n => ∃ flight, s.requests n = some flight ∧
    match flight.request with
    | .guestCreated form cookie _ => s.KeptBeside flight.tab ∨
      ∃ i, flight.tab = some i ∧ (Expired sign s.now (some cookie) ∨
        form = true ∧ ∃ user, (s.tabs i).me = some (some user))
    | .logout => s.KeptBeside flight.tab
    | .guest _ _ | .guestRefused => False
  | .clock t => (∃ user, s.Kept user) ∧ Expired sign (max s.now t) s.cookie
  | _ => False

end Statements

section Requests

omit [DecidableEq ι]

/-- A request creates a guest, or has created one that has a row and is in the cookie. -/
def Sound (sign : Signing) (users : Users) : Request → Prop
  | .guest _ prog => CreatesGuest prog ∨ ∃ guest, users.HasGuest guest ∧ prog = .ret (.ok guest)
  | .guestCreated _ cookie guest =>
    users.HasGuest guest ∧ ∃ t, cookie = sessionCookie sign t guest
  | .guestRefused | .logout => True

variable {sign : Signing} {users users' : Users} {request : Request} {guest : User}

theorem Sound.mono (h : Sound sign users request) (hrows : users.rows ⊆ users'.rows) :
    Sound sign users' request := by
  cases request with
  | guest form prog =>
    rcases h with hcreates | ⟨guest, hguest, rfl⟩
    · exact .inl hcreates
    · exact .inr ⟨guest, hguest.mono hrows, rfl⟩
  | guestCreated form cookie guest => exact ⟨h.1.mono hrows, h.2⟩
  | guestRefused | logout => trivial

theorem Sound.hasGuest (h : Sound sign users request) (hcreated : request.created = some guest) :
    users.HasGuest guest := by
  cases request with
  | guest form prog =>
    rcases h with hcreates | ⟨guest', hguest, rfl⟩
    · cases hcreates with
      | refused e => cases hcreated
      | lookup h => cases hcreated
      | create username => cases hcreated
    · cases hcreated
      exact hguest
  | guestCreated form cookie guest' =>
    cases hcreated
    exact h.1
  | guestRefused | logout => cases hcreated

theorem created_of_createsGuest {form : Bool} {prog : Prog Users UserAnswer}
    (h : CreatesGuest prog) : (Request.guest form prog).created = none := by
  cases h <;> rfl

theorem rows_subset_insert (users : Users) (username : String) (password : Option String)
    (isGuest : Bool) : users.rows ⊆ (users.insert username password isGuest).rows :=
  fun _ huser => Users.mem_insert.mpr (.inl huser)

/-- The server goes on with a request: the rows stay, and a guest that it has created is new. -/
theorem served_sound (h : Sound sign users request) (now : Time) :
    users.rows ⊆ (served sign now users request).1.rows ∧
    Sound sign (served sign now users request).1 (served sign now users request).2 ∧
    ∀ guest, (served sign now users request).2.created = some guest →
      request.created = some guest ∨ ∀ user ∈ users.rows, user.userID ≠ guest.userID := by
  cases request with
  | guest form prog =>
    rcases h with hcreates | ⟨guest, hguest, rfl⟩
    · cases hcreates with
      | refused e => exact ⟨List.Subset.refl _, trivial, nofun⟩
      | @lookup next hnext =>
        refine ⟨List.Subset.refl _, .inl (hnext users), ?_⟩
        intro guest hguest
        have hnone : (Request.guest form (next users)).created = none :=
          created_of_createsGuest (hnext users)
        cases hnone.symm.trans hguest
      | create username =>
        refine ⟨rows_subset_insert .., .inr ⟨_, ⟨Users.mem_insert.mpr (.inr rfl), rfl⟩, rfl⟩, ?_⟩
        rintro _ ⟨⟩
        exact .inr fun user huser => (users.bound user huser).ne
    · refine ⟨List.Subset.refl _, ⟨hguest, now, rfl⟩, ?_⟩
      rintro _ ⟨⟩
      exact .inl rfl
  | guestCreated form cookie guest => exact ⟨List.Subset.refl _, h, fun _ hguest => .inl hguest⟩
  | guestRefused | logout => exact ⟨List.Subset.refl _, trivial, fun _ hguest => .inl hguest⟩

end Requests

section Sending

omit [DecidableEq ι]

variable {s s' : Browser ι} {user : User} {i : ι} {n m : ℕ} {flight flight' : Flight ι}

theorem requests_send (h : (s.send n flight').requests m = some flight) :
    s.requests m = some flight ∨ flight = flight' := by
  unfold send at h
  split at h
  · by_cases hm : m = n
    · subst hm
      simp only [Function.update_self, Option.some.injEq] at h
      exact .inr h.symm
    · simp only [Function.update_of_ne hm] at h
      exact .inl h
  · exact .inl h

theorem send_eq (n : ℕ) (flight : Flight ι) (s : Browser ι) :
    (s.send n flight).tabs = s.tabs ∧ (s.send n flight).cookie = s.cookie ∧
      (s.send n flight).now = s.now ∧ (s.send n flight).users = s.users := by
  unfold send
  split <;> exact ⟨rfl, rfl, rfl, rfl⟩

theorem requests_drop (h : (s.drop n).requests m = some flight) :
    m ≠ n ∧ s.requests m = some flight := by
  by_cases hm : m = n
  · subst hm
    simp [drop] at h
  · exact ⟨hm, by simpa [drop, hm] using h⟩

end Sending

section Steps

variable {sign : Signing} {s s' : Browser ι} {act : Act ι} {user guest : User} {i : ι} {n : ℕ}
  {flight : Flight ι} {tab : Option ι} {f : Tab → Tab}

theorem requests_unload {m : ℕ} (h : (s.unload i).requests m = some flight) :
    ∃ flight', s.requests m = some flight' ∧ flight.request = flight'.request := by
  obtain ⟨flight', hflight', rfl⟩ := Option.map_eq_some_iff.mp h
  refine ⟨flight', hflight', ?_⟩
  split_ifs <;> rfl

theorem handleIn_eq (tab : Option ι) (f : Tab → Tab) (s : Browser ι) :
    (s.handleIn tab f).requests = s.requests ∧ (s.handleIn tab f).cookie = s.cookie ∧
      (s.handleIn tab f).now = s.now ∧ (s.handleIn tab f).users = s.users := by
  cases tab <;> exact ⟨rfl, rfl, rfl, rfl⟩

theorem tabs_handleIn (tab : Option ι) (f : Tab → Tab) (s : Browser ι) (i : ι) :
    (s.handleIn tab f).tabs i = if tab = some i then f (s.tabs i) else s.tabs i := by
  cases tab with
  | none => rfl
  | some j =>
    by_cases hij : i = j
    · subst hij
      simp [handleIn, setTab]
    · simp [handleIn, setTab, hij, Ne.symm hij]

/-- A tab that is changed keeps no user that none has kept, if what it has is from some tab. -/
theorem kept_setTab {tab : Tab} {j : ι}
    (htab : ∀ user, tab.Keeps user → (s.tabs j).Keeps user)
    (h : (s.setTab i tab).Kept user) : s.Kept user := by
  obtain ⟨k, hk⟩ := h
  by_cases hki : k = i
  · subst hki
    refine ⟨j, htab user ?_⟩
    simpa [setTab] using hk
  · refine ⟨k, ?_⟩
    simpa [setTab, hki] using hk

def Quiet : Act ι → Prop
  | .arrive _ | .clock _ => False
  | _ => True

theorem step_quiet (sign : Signing) (hquiet : Quiet act) (s : Browser ι) :
    (∀ user, (s.step sign act).Kept user → s.Kept user) ∧
      (s.step sign act).cookie = s.cookie ∧ (s.step sign act).now = s.now := by
  have hsend (n : ℕ) (flight : Flight ι) (s : Browser ι) :
      (∀ user, (s.send n flight).Kept user → s.Kept user) ∧
        (s.send n flight).cookie = s.cookie ∧ (s.send n flight).now = s.now := by
    obtain ⟨htabs, hcookie, hnow, -⟩ := send_eq n flight s
    refine ⟨?_, hcookie, hnow⟩
    rintro user ⟨i, hi⟩
    exact ⟨i, htabs ▸ hi⟩
  cases act with
  | fetchUser i =>
    refine ⟨fun user h => kept_setTab (j := i) ?_ h, rfl, rfl⟩
    rintro user (hcached | hme)
    · exact .inl hcached
    · exact .inl (Option.some.inj hme)
  | ensureGuestSession i n suffix =>
    have hset (user : User) (h : (s.setTab i { s.tabs i with
        me := some ((s.tabs i).me.getD (s.tabs i).cachedMe) }).Kept user) : s.Kept user := by
      apply kept_setTab (j := i) _ h
      rintro user (hcached | hme)
      · exact .inl hcached
      · cases hquery : (s.tabs i).me with
        | none =>
          rw [hquery] at hme
          exact .inl (Option.some.inj hme)
        | some answer =>
          rw [hquery] at hme
          exact .inr (hquery.trans hme)
    unfold step
    dsimp only
    split_ifs
    · obtain ⟨hkept, hcookie, hnow⟩ := hsend n
        ⟨some i, .guest false (UserService.createGuestUser "" suffix)⟩ (s.setTab i { s.tabs i with
          me := some ((s.tabs i).me.getD (s.tabs i).cachedMe) })
      exact ⟨fun user h => hset user (hkept user h), hcookie, hnow⟩
    · exact ⟨hset, rfl, rfl⟩
  | loginAsGuest i n preferredUsername suffix => exact hsend _ _ s
  | logout i n => exact hsend _ _ s
  | reload i =>
    refine ⟨fun user h => kept_setTab (j := i) ?_ h, rfl, rfl⟩
    rintro user (hcached | hme)
    · exact .inl hcached
    · cases hme
  | close i =>
    refine ⟨fun user h => kept_setTab (j := i) ?_ h, rfl, rfl⟩
    rintro user (hcached | hme)
    · cases hcached
    · cases hme
  | duplicate i j =>
    unfold step
    dsimp only
    split_ifs
    · refine ⟨fun user h => kept_setTab (j := i) ?_ h, rfl, rfl⟩
      rintro user (hcached | hme)
      · exact .inl hcached
      · cases hme
    · exact ⟨fun _ h => h, rfl, rfl⟩
  | serve n =>
    unfold step
    dsimp only
    cases s.requests n <;> exact ⟨fun _ h => h, rfl, rfl⟩
  | lose n => exact ⟨fun _ h => h, rfl, rfl⟩
  | elsewhere username => exact ⟨fun _ h => h, rfl, rfl⟩
  | arrive n => exact hquiet.elim
  | clock t => exact hquiet.elim

/-- Except for what the server does, a request is one of before, or a new one. -/
theorem requests_step (hserve : ∀ n, act ≠ .serve n) {m : ℕ}
    (h : (s.step sign act).requests m = some flight) :
    (∃ flight', s.requests m = some flight' ∧ flight.request = flight'.request) ∨
      flight.request.created = none ∧ ∀ users, Sound sign users flight.request := by
  have hguest (form : Bool) (preferredUsername : String) (suffix : List (Fin 256)) :
      (Request.guest form (UserService.createGuestUser preferredUsername suffix)).created = none ∧
        ∀ users, Sound sign users
          (.guest form (UserService.createGuestUser preferredUsername suffix)) := by
    have hcreates := createsGuest_createGuestUser preferredUsername suffix
    exact ⟨created_of_createsGuest hcreates, fun _ => .inl hcreates⟩
  have hdrop {n : ℕ} (h : (s.drop n).requests m = some flight) :
      ∃ flight', s.requests m = some flight' ∧ flight.request = flight'.request :=
    ⟨flight, (requests_drop h).2, rfl⟩
  cases act with
  | fetchUser i | elsewhere username | clock t => exact .inl ⟨flight, h, rfl⟩
  | ensureGuestSession i n suffix =>
    unfold step at h
    dsimp only at h
    split_ifs at h
    · rcases requests_send h with hold | rfl
      · exact .inl ⟨flight, hold, rfl⟩
      · exact .inr (hguest _ _ _)
    · exact .inl ⟨flight, h, rfl⟩
  | loginAsGuest i n preferredUsername suffix =>
    rcases requests_send h with hold | rfl
    · exact .inl ⟨flight, hold, rfl⟩
    · exact .inr (hguest _ _ _)
  | logout i n =>
    rcases requests_send h with hold | rfl
    · exact .inl ⟨flight, hold, rfl⟩
    · exact .inr ⟨rfl, fun _ => trivial⟩
  | reload i | close i => exact .inl (requests_unload h)
  | duplicate i j =>
    unfold step at h
    dsimp only at h
    split_ifs at h <;> exact .inl ⟨flight, h, rfl⟩
  | serve n => exact absurd rfl (hserve n)
  | lose n => exact .inl (hdrop h)
  | arrive n =>
    left
    unfold step at h
    dsimp only at h
    split at h
    · rw [(handleIn_eq ..).1] at h
      exact hdrop h
    · exact hdrop h
    · rw [(handleIn_eq ..).1] at h
      exact hdrop h
    · exact ⟨flight, h, rfl⟩
    · exact ⟨flight, h, rfl⟩

theorem rows_step (hserve : ∀ n, act ≠ .serve n) (s : Browser ι) :
    s.users.rows ⊆ (s.step sign act).users.rows := by
  have hrefl := List.Subset.refl s.users.rows
  cases act with
  | ensureGuestSession i n suffix =>
    unfold step
    dsimp only
    split_ifs
    · rw [(send_eq ..).2.2.2]
      exact hrefl
    · exact hrefl
  | loginAsGuest i n preferredUsername suffix | logout i n =>
    rw [step, (send_eq ..).2.2.2]
    exact hrefl
  | duplicate i j =>
    unfold step
    dsimp only
    split_ifs <;> exact hrefl
  | arrive n =>
    unfold step
    dsimp only
    split
    · rw [(handleIn_eq ..).2.2.2]
      exact hrefl
    · exact hrefl
    · rw [(handleIn_eq ..).2.2.2]
      exact hrefl
    · exact hrefl
    · exact hrefl
  | elsewhere username => exact rows_subset_insert ..
  | serve n => exact absurd rfl (hserve n)
  | fetchUser i | reload i | close i | lose n | clock t => exact hrefl

theorem arrive_guestCreated {form : Bool} {cookie : Cookie}
    (h : s.requests n = some ⟨tab, .guestCreated form cookie guest⟩) :
    s.step sign (.arrive n) =
      ((s.drop n).setCookie (some cookie)).handleIn tab (·.given form guest) := by
  simp only [step, h]

theorem arrive_logout (h : s.requests n = some ⟨tab, .logout⟩) :
    s.step sign (.arrive n) =
      ((s.drop n).setCookie none).handleIn tab fun _ => { me := some none } := by
  simp only [step, h]

theorem keeps_handleIn : ((s.handleIn tab f).tabs i).Keeps user ↔
    if tab = some i then (f (s.tabs i)).Keeps user else (s.tabs i).Keeps user := by
  rw [tabs_handleIn]
  split_ifs <;> rfl

theorem keeps_given {form : Bool} {tab : Tab} : (tab.given form guest).Keeps user ↔
    user = guest ∨ form = true ∧ tab.me = some (some user) := by
  cases form <;> simp [Tab.given, Tab.Keeps, eq_comm]

end Steps

section Tracked

omit [DecidableEq ι]

variable {sign : Signing} {s s' : Browser ι} {guest : User} {n : ℕ}

/-- The guest has been created for the request, and its answer has not come. -/
def Created (s : Browser ι) (n : ℕ) (guest : User) : Prop :=
  ∃ flight, s.requests n = some flight ∧ flight.request.created = some guest

/-- Who is kept is a guest with a row, and a guest whose answer has not come is nobody else. -/
structure Tracked (sign : Signing) (s : Browser ι) : Prop where
  kept : ∀ user, s.Kept user → s.users.HasGuest user
  sound : ∀ n flight, s.requests n = some flight → Sound sign s.users flight.request
  apart : ∀ n guest, s.Created n guest → ∀ user, s.Kept user → user.userID ≠ guest.userID
  distinct : ∀ m n guest guest', s.Created m guest → s.Created n guest' →
    guest.userID = guest'.userID → m = n

theorem Tracked.hasGuest (h : Tracked sign s) (hcreated : s.Created n guest) :
    s.users.HasGuest guest := by
  obtain ⟨flight, hflight, hguest⟩ := hcreated
  exact (h.sound n flight hflight).hasGuest hguest

theorem Tracked.next (h : Tracked sign s) (hkept : ∀ user, s'.Kept user → s.Kept user)
    (hrows : s.users.rows ⊆ s'.users.rows)
    (hrequests : ∀ n flight, s'.requests n = some flight →
      (∃ flight', s.requests n = some flight' ∧ flight.request = flight'.request) ∨
        flight.request.created = none ∧ ∀ users, Sound sign users flight.request) :
    Tracked sign s' := by
  have hcreated (n : ℕ) (guest : User) (hguest : s'.Created n guest) : s.Created n guest := by
    obtain ⟨flight, hflight, hcreated⟩ := hguest
    rcases hrequests n flight hflight with ⟨flight', hflight', heq⟩ | ⟨hnone, -⟩
    · exact ⟨flight', hflight', heq ▸ hcreated⟩
    · rw [hnone] at hcreated
      cases hcreated
  refine ⟨fun user huser => (h.kept user (hkept user huser)).mono hrows, ?_, ?_, ?_⟩
  · intro n flight hflight
    rcases hrequests n flight hflight with ⟨flight', hflight', heq⟩ | ⟨-, hsound⟩
    · rw [heq]
      exact (h.sound n flight' hflight').mono hrows
    · exact hsound _
  · intro n guest hguest user huser
    exact h.apart n guest (hcreated n guest hguest) user (hkept user huser)
  · intro m n guest guest' hguest hguest'
    exact h.distinct m n guest guest' (hcreated m guest hguest) (hcreated n guest' hguest')

theorem tracked_opened (sign : Signing) (now : Time) (users : Users) (cookie : Option Cookie) :
    Tracked sign (opened now users cookie : Browser ι) := by
  refine ⟨?_, nofun, ?_, ?_⟩
  · rintro user ⟨i, hcached | hme⟩
    · cases hcached
    · cases hme
  · rintro n guest ⟨flight, hflight, -⟩
    cases hflight
  · rintro m n guest guest' ⟨flight, hflight, -⟩
    cases hflight

end Tracked

section Tracking

variable {sign : Signing} {s : Browser ι} {guest : User} {n : ℕ}

theorem Tracked.serve (h : Tracked sign s) (n : ℕ) : Tracked sign (s.step sign (.serve n)) := by
  unfold step
  dsimp only
  cases hflight : s.requests n with
  | none => exact h
  | some flight =>
    dsimp only
    obtain ⟨hrows, hsound, hnew⟩ := served_sound (h.sound n flight hflight) s.now
    set users := (served sign s.now s.users flight.request).1
    set request := (served sign s.now s.users flight.request).2
    set s' : Browser ι := { s with
      users
      requests := Function.update s.requests n (some { flight with request }) }
    have hrequests (m : ℕ) : s'.requests m =
        if m = n then some { flight with request } else s.requests m :=
      Function.update_apply _ _ _ _
    -- a guest of the next state is one of before, or new to all rows
    have hcreated (m : ℕ) (guest : User) (hguest : s'.Created m guest) : s.Created m guest ∨
        m = n ∧ ∀ user ∈ s.users.rows, user.userID ≠ guest.userID := by
      obtain ⟨flight', hflight', hguest⟩ := hguest
      rw [hrequests] at hflight'
      split_ifs at hflight' with hm
      · cases hflight'
        subst hm
        exact (hnew guest hguest).imp (fun hold => ⟨flight, hflight, hold⟩) fun hall => ⟨rfl, hall⟩
      · exact .inl ⟨flight', hflight', hguest⟩
    refine ⟨fun user huser => (h.kept user huser).mono hrows, ?_, ?_, ?_⟩
    · intro m flight' hflight'
      rw [hrequests] at hflight'
      split_ifs at hflight'
      · cases hflight'
        exact hsound
      · exact (h.sound m flight' hflight').mono hrows
    · intro m guest hguest user huser
      rcases hcreated m guest hguest with hold | ⟨-, hall⟩
      · exact h.apart m guest hold user huser
      · exact hall user (h.kept user huser).1
    · intro m m' guest guest' hguest hguest' heq
      rcases hcreated m guest hguest with hold | ⟨rfl, hall⟩
      · rcases hcreated m' guest' hguest' with hold' | ⟨rfl, hall'⟩
        · exact h.distinct m m' guest guest' hold hold' heq
        · exact absurd heq (hall' guest (h.hasGuest hold).1)
      · rcases hcreated m' guest' hguest' with hold' | ⟨rfl, -⟩
        · exact absurd heq.symm (hall guest' (h.hasGuest hold').1)
        · rfl

theorem Tracked.arrive (h : Tracked sign s) {tab : Option ι} {form : Bool} {cookie : Cookie}
    (hflight : s.requests n = some ⟨tab, .guestCreated form cookie guest⟩) :
    Tracked sign (s.step sign (.arrive n)) := by
  have hguest : s.Created n guest := ⟨_, hflight, rfl⟩
  rw [arrive_guestCreated hflight]
  set s' := ((s.drop n).setCookie (some cookie)).handleIn tab (·.given form guest)
  have husers : s'.users = s.users := (handleIn_eq ..).2.2.2
  have hrequests (m : ℕ) (flight : Flight ι) (hm : s'.requests m = some flight) :
      m ≠ n ∧ s.requests m = some flight := by
    rw [show s'.requests = _ from (handleIn_eq ..).1] at hm
    exact requests_drop hm
  have hcreated (m : ℕ) (guest : User) (hm : s'.Created m guest) : m ≠ n ∧ s.Created m guest := by
    obtain ⟨flight, hflight, hguest⟩ := hm
    obtain ⟨hne, hold⟩ := hrequests m flight hflight
    exact ⟨hne, flight, hold, hguest⟩
  have hkept (user : User) (huser : s'.Kept user) : user = guest ∨ s.Kept user := by
    obtain ⟨i, hi⟩ := huser
    rw [keeps_handleIn] at hi
    split_ifs at hi
    · rcases keeps_given.mp hi with rfl | ⟨-, hme⟩
      · exact .inl rfl
      · exact .inr ⟨i, .inr hme⟩
    · exact .inr ⟨i, hi⟩
  refine ⟨?_, ?_, ?_, ?_⟩
  · intro user huser
    rw [husers]
    rcases hkept user huser with rfl | hold
    · exact h.hasGuest hguest
    · exact h.kept user hold
  · intro m flight hm
    rw [husers]
    exact h.sound m flight (hrequests m flight hm).2
  · intro m other hm user huser heq
    obtain ⟨hne, hother⟩ := hcreated m other hm
    rcases hkept user huser with rfl | hold
    · exact hne (h.distinct m n other user hother hguest heq.symm)
    · exact h.apart m other hother user hold heq
  · intro m m' other other' hm hm'
    exact h.distinct m m' other other' (hcreated m other hm).2 (hcreated m' other' hm').2

theorem Tracked.step (h : Tracked sign s) (act : Act ι) : Tracked sign (s.step sign act) := by
  have hquiet (hq : Quiet act) (hserve : ∀ n, act ≠ .serve n) : Tracked sign (s.step sign act) :=
    h.next (step_quiet sign hq s).1 (rows_step hserve s) fun _ _ => requests_step hserve
  cases act with
  | serve n => exact h.serve n
  | clock t =>
    exact h.next (fun _ huser => huser) (List.Subset.refl _) fun _ flight hflight =>
      .inl ⟨flight, hflight, rfl⟩
  | arrive n =>
    have hserve : ∀ m, (.arrive n : Act ι) ≠ .serve m := nofun
    have hother (hkept : ∀ user, (s.step sign (.arrive n)).Kept user → s.Kept user) :
        Tracked sign (s.step sign (.arrive n)) :=
      h.next hkept (rows_step hserve s) fun _ _ => requests_step hserve
    cases hflight : s.requests n with
    | none => exact hother (by simp [Browser.step, hflight])
    | some flight =>
      obtain ⟨tab, request⟩ := flight
      cases request with
      | guest form prog => exact hother (by simp [Browser.step, hflight])
      | guestCreated form cookie guest => exact h.arrive hflight
      | guestRefused =>
        apply hother
        simp only [Browser.step, hflight]
        exact fun _ huser => huser
      | logout =>
        apply hother
        rw [arrive_logout hflight]
        rintro user ⟨i, hi⟩
        rw [keeps_handleIn] at hi
        split_ifs at hi
        · rcases hi with hcached | hme
          · cases hcached
          · cases Option.some.inj hme
        · exact ⟨i, hi⟩
  | fetchUser | ensureGuestSession | loginAsGuest | logout | reload | close | duplicate | lose
  | elsewhere => exact hquiet trivial nofun

end Tracking

section Acting

omit [DecidableEq ι]

variable {sign : Signing} {s s' : Browser ι} {user guest : User}

theorem InStep.next (h : InStep sign s) (hkept : ∀ user, s'.Kept user → s.Kept user)
    (hcookie : s'.cookie = s.cookie) (hnow : s'.now = s.now) : InStep sign s' := by
  intro i user huser
  obtain ⟨j, hj⟩ := hkept user ⟨i, huser⟩
  unfold ActsFor session
  rw [hcookie, hnow]
  exact h j user hj

theorem actsFor_sessionCookie {t : Time} (hcookie : s.cookie = some (sessionCookie sign t guest)) :
    s.ActsFor sign user ↔ ¬ Expired sign s.now s.cookie ∧
      guest.userID = user.userID ∧ guest.username = user.username := by
  unfold ActsFor session Expired
  rw [hcookie]
  simp only [requestSession_eq_ok_iff, ne_eq]
  constructor
  · rintro ⟨_, ⟨hnow, rfl⟩, huser⟩
    exact ⟨fun hexpired => hexpired _ ⟨hnow, rfl⟩, huser⟩
  · rintro ⟨hgood, huser⟩
    push Not at hgood
    obtain ⟨_, hnow, rfl⟩ := hgood
    exact ⟨_, ⟨hnow, rfl⟩, huser⟩

theorem not_actsFor_of_cookie (h : s.cookie = none) : ¬ s.ActsFor sign user := by
  rintro ⟨claims, hclaims, -⟩
  rw [session, h] at hclaims
  cases hclaims

theorem inStep_opened (sign : Signing) (now : Time) (users : Users) (cookie : Option Cookie) :
    InStep sign (opened now users cookie : Browser ι) := by
  rintro i user (hcached | hme)
  · cases hcached
  · cases hme

theorem inStep_clock (h : InStep sign s) (t : Time) :
    InStep sign { s with now := max s.now t } ↔ ¬ s.Disturbs sign (.clock t) := by
  constructor
  · rintro hin ⟨⟨user, i, huser⟩, hexpired⟩
    obtain ⟨claims, hclaims, -⟩ := hin i user huser
    exact hexpired claims hclaims
  · intro hquiet i user huser
    obtain ⟨claims, hclaims, hacts⟩ := h i user huser
    have hgood : ¬ Expired sign (max s.now t) s.cookie :=
      fun hexpired => hquiet ⟨⟨user, i, huser⟩, hexpired⟩
    unfold Expired at hgood
    push Not at hgood
    obtain ⟨claims', hclaims'⟩ := hgood
    obtain rfl := requestSession_unique hclaims hclaims'
    exact ⟨claims, hclaims', hacts⟩

end Acting

section InStep

variable {sign : Signing} {s s' : Browser ι} {act : Act ι} {user guest : User} {i : ι} {n : ℕ}
  {tab : Option ι}

theorem inStep_guestCreated (h : Tracked sign s) {form : Bool} {cookie : Cookie}
    (hflight : s.requests n = some ⟨tab, .guestCreated form cookie guest⟩) :
    InStep sign (s.step sign (.arrive n)) ↔ ¬ s.Disturbs sign (.arrive n) := by
  have hguest : s.Created n guest := ⟨_, hflight, rfl⟩
  obtain ⟨-, t, rfl⟩ := h.sound n _ hflight
  rw [arrive_guestCreated hflight]
  set s' := ((s.drop n).setCookie (some (sessionCookie sign t guest))).handleIn tab
    (·.given form guest)
  have hcookie : s'.cookie = some (sessionCookie sign t guest) := (handleIn_eq ..).2.1
  have hnow : s'.now = s.now := (handleIn_eq ..).2.2.1
  have hacts (user : User) : s'.ActsFor sign user ↔
      ¬ Expired sign s.now (some (sessionCookie sign t guest)) ∧
        guest.userID = user.userID ∧ guest.username = user.username := by
    rw [actsFor_sessionCookie hcookie, hcookie, hnow]
  constructor
  · rintro hin ⟨flight, hflight', hdisturbs⟩
    obtain rfl := Option.some.inj (hflight.symm.trans hflight')
    -- whoever was kept before is another than the guest
    have hapart (user : User) (huser : s.Kept user) : ¬ s'.ActsFor sign user := by
      rw [hacts]
      rintro ⟨-, hid, -⟩
      exact h.apart n guest hguest user huser hid.symm
    rcases hdisturbs with ⟨i, user, huser, hne⟩ | ⟨i, rfl, hexpired | ⟨hform, user, hme⟩⟩
    · exact hapart user ⟨i, huser⟩ (hin i user (keeps_handleIn.mpr (by rwa [if_neg hne])))
    · have hgiven : (s'.tabs i).Keeps guest := by
        rw [keeps_handleIn, if_pos rfl]
        exact keeps_given.mpr (.inl rfl)
      exact ((hacts guest).mp (hin i guest hgiven)).1 hexpired
    · have hshown : (s'.tabs i).Keeps user := by
        rw [keeps_handleIn, if_pos rfl]
        exact keeps_given.mpr (.inr ⟨hform, hme⟩)
      exact hapart user ⟨i, .inr hme⟩ (hin i user hshown)
  · intro hquiet i user huser
    have hquiet' : ¬ (s.KeptBeside tab ∨ ∃ i, tab = some i ∧
        (Expired sign s.now (some (sessionCookie sign t guest)) ∨
          form = true ∧ ∃ user, (s.tabs i).me = some (some user))) :=
      fun hdisturbs => hquiet ⟨_, hflight, hdisturbs⟩
    rw [not_or] at hquiet'
    rw [keeps_handleIn] at huser
    split_ifs at huser with htab
    · rcases keeps_given.mp huser with rfl | ⟨hform, hme⟩
      · rw [hacts]
        exact ⟨fun hexpired => hquiet'.2 ⟨i, htab, .inl hexpired⟩, rfl, rfl⟩
      · exact absurd ⟨i, htab, .inr ⟨hform, user, hme⟩⟩ hquiet'.2
    · exact absurd ⟨i, user, huser, htab⟩ hquiet'.1

theorem inStep_logout (hflight : s.requests n = some ⟨tab, .logout⟩) :
    InStep sign (s.step sign (.arrive n)) ↔ ¬ s.Disturbs sign (.arrive n) := by
  rw [arrive_logout hflight]
  set s' := ((s.drop n).setCookie none).handleIn tab fun _ => { me := some none }
  have hcookie : s'.cookie = none := (handleIn_eq ..).2.1
  constructor
  · rintro hin ⟨flight, hflight', hdisturbs⟩
    obtain rfl := Option.some.inj (hflight.symm.trans hflight')
    obtain ⟨i, user, huser, hne⟩ := hdisturbs
    exact not_actsFor_of_cookie hcookie
      (hin i user (keeps_handleIn.mpr (by rwa [if_neg hne])))
  · intro hquiet i user huser
    rw [keeps_handleIn] at huser
    split_ifs at huser with htab
    · rcases huser with hcached | hme
      · cases hcached
      · cases Option.some.inj hme
    · exact absurd ⟨_, hflight, i, user, huser, htab⟩ hquiet

theorem InStep.step_iff (h : InStep sign s) (htracked : Tracked sign s) (act : Act ι) :
    InStep sign (s.step sign act) ↔ ¬ s.Disturbs sign act := by
  have hquiet (hq : Quiet act) (hnot : ¬ s.Disturbs sign act) :
      InStep sign (s.step sign act) ↔ ¬ s.Disturbs sign act := by
    obtain ⟨hkept, hcookie, hnow⟩ := step_quiet sign hq s
    exact iff_of_true (h.next hkept hcookie hnow) hnot
  cases act with
  | clock t => exact inStep_clock h t
  | arrive n =>
    cases hflight : s.requests n with
    | none =>
      have hstep : s.step sign (.arrive n) = s := by simp only [Browser.step, hflight]
      rw [hstep]
      refine iff_of_true h ?_
      rintro ⟨flight, hflight', -⟩
      rw [hflight] at hflight'
      cases hflight'
    | some flight =>
      obtain ⟨tab, request⟩ := flight
      cases request with
      | guestCreated form cookie guest => exact inStep_guestCreated htracked hflight
      | logout => exact inStep_logout hflight
      | guest form prog =>
        have hstep : s.step sign (.arrive n) = s := by simp only [Browser.step, hflight]
        rw [hstep]
        refine iff_of_true h ?_
        rintro ⟨flight, hflight', hdisturbs⟩
        obtain rfl := Option.some.inj (hflight.symm.trans hflight')
        exact hdisturbs
      | guestRefused =>
        have hstep : s.step sign (.arrive n) = s.drop n := by simp only [Browser.step, hflight]
        rw [hstep]
        refine iff_of_true (h.next (fun _ huser => huser) rfl rfl) ?_
        rintro ⟨flight, hflight', hdisturbs⟩
        obtain rfl := Option.some.inj (hflight.symm.trans hflight')
        exact hdisturbs
  | fetchUser | ensureGuestSession | loginAsGuest | logout | reload | close | duplicate | serve
  | lose | elsewhere => exact hquiet trivial fun hdisturbs => hdisturbs

theorem along_played (sign : Signing) (s : Browser ι) (acts : List (Act ι)) :
    Along (fun s act s' => s.step sign act = s') s (played sign s acts) := by
  induction acts generalizing s with
  | nil => trivial
  | cons act acts ih => exact ⟨rfl, ih _⟩

/-- In a browser whose tabs are opened, reloaded and closed, and log in and out while requests and
answers are under way, every tab acts for the user that it keeps, in every state, exactly if
nothing disturbs it. Whoever a tab keeps is a guest of the server in any case. -/
theorem tabs_in_step_iff (sign : Signing) (now : Time) (users : Users) (cookie : Option Cookie)
    (acts : List (Act ι)) :
    ((∀ t ∈ visited (opened now users cookie) (played sign (opened now users cookie) acts),
        InStep sign t) ↔
      Along (fun s act _ => ¬ s.Disturbs sign act) (opened now users cookie)
        (played sign (opened now users cookie) acts)) ∧
    ∀ t ∈ visited (opened now users cookie) (played sign (opened now users cookie) acts),
      ∀ i user, (t.tabs i).Keeps user → user ∈ t.users.rows ∧ user.isGuest = true := by
  have hrun := along_played sign (opened now users cookie) acts
  have htracked : Tracked sign (opened now users cookie : Browser ι) := tracked_opened ..
  have hopened : InStep sign (opened now users cookie : Browser ι) :=
    inStep_opened sign now users cookie
  constructor
  · apply visited_good_iff (fun s => Tracked sign s ∧ InStep sign s) hrun hopened
      ⟨htracked, hopened⟩
    · rintro s act _ ⟨ht, hin⟩ rfl
      exact hin.step_iff ht act
    · rintro s act _ ⟨ht, hin⟩ rfl hquiet
      exact ⟨ht.step act, (hin.step_iff ht act).mpr hquiet⟩
  · intro t ht i user huser
    have hall := hrun.forall_visited htracked (by
      rintro s act _ hs rfl
      exact hs.step act)
    exact (hall t ht).kept user ⟨i, huser⟩

end InStep

theorem tabs_in_step_iff_duplicate :
    let start : Browser Bool := opened 0 .empty none
    let s := last start (played .unsigned start [.ensureGuestSession false 0 [], .serve 0, .serve 0,
      .arrive 0, .duplicate false true, .fetchUser true])
    InStep .unsigned s ∧ ∃ user, (s.tabs true).me = some (some user) ∧
      user ∈ s.users.rows ∧ user.isGuest = true := by
  intro start s
  obtain ⟨hinStep, hguests⟩ := tabs_in_step_iff .unsigned 0 .empty none
    [.ensureGuestSession false 0 [], .serve 0, .serve 0, .arrive 0, .duplicate false true,
      .fetchUser (true : Bool)]
  let guest : User := ⟨1, UserService.guestName [], none, true⟩
  refine ⟨hinStep.mpr ⟨id, id, id, ?_, id, id, trivial⟩ s (last_mem_visited _ _), guest, rfl,
    hguests s (last_mem_visited _ _) true guest (.inr rfl)⟩
  rintro ⟨flight, hflight, hdisturbs⟩
  obtain rfl := Option.some.inj hflight
  rcases hdisturbs with ⟨i, user, hkeeps, hne⟩ | ⟨i, -, hexpired | ⟨hform, -⟩⟩
  · cases i with
    | false => exact hne rfl
    | true =>
      rcases hkeeps with hcached | hme
      · cases hcached
      · cases hme
  · exact hexpired _ (requestSession_eq_ok_iff.mpr ⟨by decide, rfl⟩)
  · cases hform

/-- Once a second tab has been opened, the first one shows its guest and acts for that of the
second. -/
theorem second_tab_takes_over (sign : Signing) :
    let start : Browser Bool := opened 0 .empty none
    let s := last start (played sign start
      [.ensureGuestSession false 0 [], .serve 0, .serve 0, .arrive 0,
        .ensureGuestSession true 1 [], .serve 1, .serve 1, .arrive 1])
    ∃ user, (s.tabs false).me = some (some user) ∧ ¬ s.ActsFor sign user := by
  intro start s
  refine ⟨⟨1, UserService.guestName [], none, true⟩, rfl, ?_⟩
  have hcookie : s.cookie =
      some (sessionCookie sign 0 ⟨2, UserService.guestName [], none, true⟩) := rfl
  rw [actsFor_sessionCookie hcookie]
  rintro ⟨-, hid, -⟩
  exact absurd hid (by decide)

end Browser

end DotsAndBoxes.Web
