import DotsAndBoxes.Library.Runs
import DotsAndBoxes.Library.Serial
import DotsAndBoxes.Hub.Session

/-! # Names of users

A call that gives a user a name looks the name up first, and the table of the users has no
constraint on names. So a name is given twice when another call has given it since the lookup,
or when the random name of a guest, which no call looks up, is in use.
-/

namespace DotsAndBoxes

open Runs Serial

structure User where
  userID : ℤ
  username : String
  password : Option String
  isGuest : Bool
  deriving DecidableEq, Repr

/-- The table of the users, with the id of the next row. The ids are a primary key. -/
structure Users where
  rows : List User
  nextID : ℤ
  distinct : (rows.map (·.userID)).Nodup
  bound : ∀ user ∈ rows, user.userID < nextID

namespace Users

def empty : Users := ⟨[], 1, List.nodup_nil, nofun⟩

def Unique (users : Users) : Prop := (users.rows.map (·.username)).Nodup

instance (users : Users) : Decidable users.Unique :=
  inferInstanceAs (Decidable (users.rows.map (·.username)).Nodup)

def insert (username : String) (password : Option String) (isGuest : Bool) (users : Users) :
    Users where
  rows := users.rows ++ [⟨users.nextID, username, password, isGuest⟩]
  nextID := users.nextID + 1
  distinct := by
    rw [List.map_append, List.nodup_append]
    refine ⟨users.distinct, List.nodup_singleton _, ?_⟩
    rintro id hid _ hnew rfl
    obtain ⟨user, huser, rfl⟩ := List.mem_map.mp hid
    exact (users.bound user huser).ne (List.mem_singleton.mp hnew)
  bound := by
    rintro user huser
    rcases List.mem_append.mp huser with hold | hnew
    · exact (users.bound user hold).trans (lt_add_one _)
    · obtain rfl := List.mem_singleton.mp hnew
      exact lt_add_one _

def upgraded (userID : ℤ) (username password : String) (user : User) : User :=
  if user.userID = userID ∧ user.isGuest = true then
    { user with username, password := some password, isGuest := false }
  else user

theorem userID_upgraded (userID : ℤ) (username password : String) (user : User) :
    (upgraded userID username password user).userID = user.userID := by
  unfold upgraded
  split_ifs <;> rfl

def upgrade (userID : ℤ) (username password : String) (users : Users) : Users where
  rows := users.rows.map (upgraded userID username password)
  nextID := users.nextID
  distinct := by
    rw [List.map_map]
    simpa only [Function.comp_def, userID_upgraded] using users.distinct
  bound := by
    rintro user huser
    obtain ⟨old, hold, rfl⟩ := List.mem_map.mp huser
    rw [userID_upgraded]
    exact users.bound old hold

end Users

inductive UserError where
  | usernameLength
  | usernameCharacters
  | passwordShort
  | passwordLong
  | taken
  /-- The row of the name cannot be scanned. -/
  | uniqueness
  /-- The password cannot be hashed. -/
  | hash (e : String)
  | notGuest
  deriving DecidableEq, Repr

def UserError.message : UserError → String
  | .usernameLength => "username must be between 3 and 20 characters"
  | .usernameCharacters => "username can only contain letters, numbers, and underscores"
  | .passwordShort => "password must be at least 8 characters"
  | .passwordLong => "password must be at most 72 characters"
  | .taken => "username is taken"
  | .uniqueness => "failed to check username uniqueness"
  | .hash e => e
  | .notGuest => "user is not a guest or does not exist"

def validateUsername (username : String) : Except UserError Unit :=
  if username.utf8ByteSize < 3 ∨ username.utf8ByteSize > 20 then .error .usernameLength
  else if username.toList.all fun c => c.isAlphanum || c = '_' then .ok ()
  else .error .usernameCharacters

def validatePassword (password : String) : Except UserError Unit :=
  if password.utf8ByteSize < 8 then .error .passwordShort
  else if password.utf8ByteSize > 72 then .error .passwordLong
  else .ok ()

abbrev UserAnswer := Except UserError User

namespace PgUserRepository

/-- The password is scanned into a string, which fails for a guest, who has none. -/
def findByUsername (username : String) (users : Users) : Except UserError (Option User) :=
  match users.rows.find? (·.username = username) with
  | none => .ok none
  | some user => if user.password.isSome then .ok (some user) else .error .uniqueness

def userExists (username : String) (next : Except UserError Bool → Prog Users UserAnswer) :
    Prog Users UserAnswer :=
  .read fun users => next ((findByUsername username users).map Option.isSome)

def create (username password : String) : Prog Users UserAnswer :=
  .act (Users.insert username (some password) false) fun users =>
    .ret (.ok ⟨users.nextID, username, none, false⟩)

def createGuest (username : String) : Prog Users UserAnswer :=
  .act (Users.insert username none true) fun users =>
    .ret (.ok ⟨users.nextID, username, none, true⟩)

def upgradeGuest (userID : ℤ) (username password : String) : Prog Users UserAnswer :=
  .act (Users.upgrade userID username password) fun users =>
    if users.rows.any fun user => user.userID = userID ∧ user.isGuest = true then
      .ret (.ok ⟨userID, username, none, false⟩)
    else .ret (.error .notGuest)

end PgUserRepository

namespace UserService

open PgUserRepository

def check (result : Except UserError Unit) (next : Prog Users UserAnswer) : Prog Users UserAnswer :=
  match result with
  | .error e => .ret (.error e)
  | .ok () => next

def hashed (hash : String → Except String String) (password : String)
    (next : String → Prog Users UserAnswer) : Prog Users UserAnswer :=
  match hash password with
  | .error e => .ret (.error (.hash e))
  | .ok hashedPassword => next hashedPassword

/-- Go on if no user has the name. -/
def untaken (username : String) (next : Prog Users UserAnswer) : Prog Users UserAnswer :=
  userExists username fun
    | .error e => .ret (.error e)
    | .ok taken => if taken then .ret (.error .taken) else next

def createUser (hash : String → Except String String) (username password : String) :
    Prog Users UserAnswer :=
  check (validateUsername username) <| check (validatePassword password) <| untaken username <|
    hashed hash password <| create username

def guestName (suffix : List (Fin 256)) : String :=
  "Guest_" ++ .ofList (suffix.flatMap fun b =>
    [Nat.digitChar (b.val / 16), Nat.digitChar (b.val % 16)])

def createGuestUser (preferredUsername : String) (suffix : List (Fin 256)) : Prog Users UserAnswer :=
  let preferredUsername : String := .ofList (trimSpace preferredUsername.toList)
  if preferredUsername ≠ "" then
    check (validateUsername preferredUsername) <| untaken preferredUsername <|
      createGuest preferredUsername
  else createGuest (guestName suffix)

def upgradeGuest (hash : String → Except String String) (userID : ℤ) (username password : String) :
    Prog Users UserAnswer :=
  check (validateUsername username) <| check (validatePassword password) <| untaken username <|
    hashed hash password <| PgUserRepository.upgradeGuest userID username

end UserService

theorem UserService.untaken_cases (username : String) (next : Prog Users UserAnswer) :
    ∃ after, untaken username next = .read after ∧ ∀ users,
      (after users).IsRet ∨ after users = next ∧ ∀ user ∈ users.rows, user.username ≠ username := by
  refine ⟨_, rfl, fun users => ?_⟩
  unfold PgUserRepository.findByUsername
  cases hfound : users.rows.find? (·.username = username) with
  | none =>
    refine .inr ⟨rfl, fun user huser => ?_⟩
    simpa using List.find?_eq_none.mp hfound user huser
  | some user =>
    obtain ⟨userID, name, password, isGuest⟩ := user
    cases password <;> exact .inl ⟨_, rfl⟩

inductive UserCall where
  | createUser (username password : String)
  | createGuestUser (preferredUsername : String) (suffix : List (Fin 256))
  | upgradeGuest (userID : ℤ) (username password : String)
  deriving DecidableEq, Repr

namespace UserCall

variable (hash : String → Except String String)

def program : UserCall → Prog Users UserAnswer
  | .createUser username password => UserService.createUser hash username password
  | .createGuestUser preferredUsername suffix =>
    UserService.createGuestUser preferredUsername suffix
  | .upgradeGuest userID username password =>
    UserService.upgradeGuest hash userID username password

/-- The name is looked up before it is given; the random name of a guest is not. -/
def LooksUp : UserCall → Prop
  | .createGuestUser preferredUsername _ => trimSpace preferredUsername.toList ≠ []
  | _ => True

def username : UserCall → String
  | .createUser username _ => username
  | .createGuestUser preferredUsername suffix =>
    let preferred := trimSpace preferredUsername.toList
    if preferred ≠ [] then .ofList preferred else UserService.guestName suffix
  | .upgradeGuest _ username _ => username

def update (hashedPassword : String) : UserCall → Users → Users
  | .createUser username _ => Users.insert username (some hashedPassword) false
  | .createGuestUser preferredUsername suffix =>
    Users.insert (createGuestUser preferredUsername suffix).username none true
  | .upgradeGuest userID username _ => Users.upgrade userID username hashedPassword

/-- What the call writes gives its name to a user other than this one. -/
def GivesBeside (users : Users) (other : User) : UserCall → Prop
  | .upgradeGuest userID _ _ =>
    (∃ guest ∈ users.rows, guest.userID = userID ∧ guest.isGuest = true) ∧ other.userID ≠ userID
  | _ => True

def AtWrite (call : UserCall) (p : Prog Users UserAnswer) : Prop :=
  ∃ hashedPassword next, p = .act (call.update hashedPassword) next ∧ ∀ users, (next users).IsRet

end UserCall

open UserCall

section Writes

variable {users : Users} {call : UserCall}

theorem Users.unique_insert {username : String} {password : Option String} {isGuest : Bool}
    (h : users.Unique) : (users.insert username password isGuest).Unique ↔
      ∀ other ∈ users.rows, other.username ≠ username := by
  simp only [Unique, insert, List.map_append, List.map_cons, List.map_nil]
  rw [List.nodup_append]
  constructor
  · rintro ⟨-, -, hnew⟩ other hother
    exact hnew _ (List.mem_map_of_mem hother) _ List.mem_cons_self
  · rintro hnew
    refine ⟨h, List.nodup_singleton _, ?_⟩
    rintro _ hname _ hlast
    obtain ⟨other, hother, rfl⟩ := List.mem_map.mp hname
    obtain rfl := List.mem_singleton.mp hlast
    exact hnew other hother

theorem Users.unique_upgrade {userID : ℤ} {username password : String} (h : users.Unique) :
    (users.upgrade userID username password).Unique ↔
      ∀ other ∈ users.rows, other.username = username →
        ¬ ((∃ guest ∈ users.rows, guest.userID = userID ∧ guest.isGuest = true) ∧
          other.userID ≠ userID) := by
  have hrows : users.rows.Nodup := users.distinct.of_map
  have hids := List.inj_on_of_nodup_map users.distinct
  have hnames := List.inj_on_of_nodup_map h
  have hsame {user : User} (hid : user.userID ≠ userID) :
      upgraded userID username password user = user := if_neg fun hif => hid hif.1
  rw [Unique, upgrade, List.map_map, List.nodup_map_iff_inj_on hrows]
  constructor
  · rintro hinj other hother rfl ⟨⟨guest, hguest, hid, hisGuest⟩, hne⟩
    have hupgraded : (upgraded userID other.username password guest).username = other.username := by
      rw [upgraded, if_pos ⟨hid, hisGuest⟩]
    have heq : other = guest := by
      apply hinj other hother guest hguest
      simp only [Function.comp_apply, hsame hne, hupgraded]
    exact hne (heq ▸ hid)
  · rintro hfree x hx y hy heq
    simp only [Function.comp_apply, upgraded] at heq
    split_ifs at heq with hxid hyid hyid
    · exact hids hx hy (hxid.1.trans hyid.1.symm)
    · by_contra hne
      refine hfree y hy heq.symm ⟨⟨x, hx, hxid⟩, fun hid => hne ?_⟩
      exact hids hx hy (hxid.1.trans hid.symm)
    · by_contra hne
      refine hfree x hx heq ⟨⟨y, hy, hyid⟩, fun hid => hne ?_⟩
      exact hids hx hy (hid.trans hyid.1.symm)
    · exact hnames hx hy heq

/-- What a call writes keeps the names apart exactly when no other user has its name. -/
theorem UserCall.unique_update (h : users.Unique) (hashedPassword : String) :
    (call.update hashedPassword users).Unique ↔
      ∀ other ∈ users.rows, other.username = call.username → ¬ call.GivesBeside users other := by
  cases call with
  | createUser username password =>
    simpa [update, GivesBeside, UserCall.username] using Users.unique_insert h
  | createGuestUser preferredUsername suffix =>
    simpa [update, GivesBeside] using Users.unique_insert h
  | upgradeGuest userID username password => exact Users.unique_upgrade h

end Writes

theorem UserService.hashed_cases (hash : String → Except String String) (password : String)
    {call : UserCall} {next : String → Prog Users UserAnswer}
    (h : ∀ hashedPassword, call.AtWrite (next hashedPassword)) :
    (hashed hash password next).IsRet ∨ call.AtWrite (hashed hash password next) := by
  unfold hashed
  split
  · exact .inl ⟨_, rfl⟩
  · exact .inr (h _)

theorem UserService.check_cases {P : Prog Users UserAnswer → Prop} (result : Except UserError Unit)
    {next : Prog Users UserAnswer} (h : next.IsRet ∨ P next) :
    (check result next).IsRet ∨ P (check result next) := by
  unfold check
  split
  · exact .inl ⟨_, rfl⟩
  · exact h

def UserCall.Lookup (call : UserCall) (p : Prog Users UserAnswer) : Prop :=
  ∃ next, (next.IsRet ∨ call.AtWrite next) ∧ p = UserService.untaken call.username next

/-- A call is a return, a write, or a lookup of its name with one of these after it. -/
theorem UserCall.program_cases (hash : String → Except String String) (call : UserCall) :
    (call.program hash).IsRet ∨ ¬ call.LooksUp ∧ call.AtWrite (call.program hash) ∨
      call.LooksUp ∧ call.Lookup (call.program hash) := by
  cases call with
  | createUser username password =>
    have hwrite (hashedPassword : String) : (createUser username password).AtWrite
        (PgUserRepository.create username hashedPassword) :=
      ⟨hashedPassword, _, rfl, fun _ => ⟨_, rfl⟩⟩
    have hcases : ((createUser username password).program hash).IsRet ∨
        (createUser username password).Lookup ((createUser username password).program hash) :=
      UserService.check_cases _ (UserService.check_cases _
        (.inr ⟨_, UserService.hashed_cases hash password hwrite, rfl⟩))
    exact hcases.imp_right fun h => .inr ⟨trivial, h⟩
  | createGuestUser preferredUsername suffix =>
    set preferred := trimSpace preferredUsername.toList with hpreferred
    by_cases hname : preferred = []
    · have hprogram : (createGuestUser preferredUsername suffix).program hash =
          PgUserRepository.createGuest (createGuestUser preferredUsername suffix).username := by
        simp [program, UserService.createGuestUser, UserCall.username, ← hpreferred, hname]
      right; left
      rw [hprogram]
      exact ⟨fun hlooks => hlooks hname, "", _, rfl, fun _ => ⟨_, rfl⟩⟩
    · have hne : String.ofList preferred ≠ "" := by
        rintro hempty
        exact hname (by simpa using congrArg String.toList hempty)
      have hprogram : (createGuestUser preferredUsername suffix).program hash =
          UserService.check (validateUsername (.ofList preferred)) (UserService.untaken
            (createGuestUser preferredUsername suffix).username (PgUserRepository.createGuest
              (createGuestUser preferredUsername suffix).username)) := by
        simp only [program, UserService.createGuestUser, UserCall.username, ← hpreferred, ne_eq,
          hname, hne, not_false_eq_true, if_true]
      have hcases : ((createGuestUser preferredUsername suffix).program hash).IsRet ∨
          (createGuestUser preferredUsername suffix).Lookup
            ((createGuestUser preferredUsername suffix).program hash) := by
        rw [hprogram]
        exact UserService.check_cases _ (.inr ⟨_, .inr ⟨"", _, rfl, fun _ => ⟨_, rfl⟩⟩, rfl⟩)
      exact hcases.imp_right fun h => .inr ⟨hname, h⟩
  | upgradeGuest userID username password =>
    have hwrite (hashedPassword : String) : (upgradeGuest userID username password).AtWrite
        (PgUserRepository.upgradeGuest userID username hashedPassword) := by
      refine ⟨hashedPassword, _, rfl, fun users => ?_⟩
      split_ifs <;> exact ⟨_, rfl⟩
    have hcases : ((upgradeGuest userID username password).program hash).IsRet ∨
        (upgradeGuest userID username password).Lookup
          ((upgradeGuest userID username password).program hash) :=
      UserService.check_cases _ (UserService.check_cases _
        (.inr ⟨_, UserService.hashed_cases hash password hwrite, rfl⟩))
    exact hcases.imp_right fun h => .inr ⟨trivial, h⟩

section Interleavings

variable {ι : Type*} [DecidableEq ι]

def Takes (c : Conf ι Users UserAnswer) (i : ι) (c' : Conf ι Users UserAnswer) : Prop := c.step i = c'

/-- A call is about to give its name to a user, and another user has the name who had not when
the call looked it up, if it did. -/
def Overtaken (calls : ι → UserCall) (c : Conf ι Users UserAnswer) (i : ι) : Prop :=
  ¬ (c.prog i).IsRet ∧ ((calls i).LooksUp → (c.seen i).isSome = true) ∧
    ∃ other ∈ c.store.rows, other.username = (calls i).username ∧
      (calls i).GivesBeside c.store other ∧ ∀ users, c.seen i = some users → other ∉ users.rows

/-- Where a call stands: it has returned, or not begun, or looked its name up. -/
inductive Standing (hash : String → Except String String) (call : UserCall) :
    Option Users → Prog Users UserAnswer → Prop where
  | returned {seen p} (hret : p.IsRet) : Standing hash call seen p
  | fresh : Standing hash call none (call.program hash)
  | lookedUp {users p} (hlooks : call.LooksUp)
      (hfree : ∀ user ∈ users.rows, user.username ≠ call.username) (hwrite : call.AtWrite p) :
      Standing hash call (some users) p

/-- The names are apart, and every call stands somewhere. -/
structure NamesKept (hash : ι → String → Except String String) (calls : ι → UserCall)
    (c : Conf ι Users UserAnswer) : Prop where
  unique : c.store.Unique
  standing : ∀ i, Standing (hash i) (calls i) (c.seen i) (c.prog i)

variable {hash : ι → String → Except String String} {calls : ι → UserCall} {users : Users}
  {c c' : Conf ι Users UserAnswer} {i : ι} {run : List (ι × Conf ι Users UserAnswer)}

theorem Takes.of_act (h : Takes c i c') {update : Users → Users} {next : Users → Prog Users UserAnswer}
    (hact : c.prog i = .act update next) :
    c' = ⟨update c.store, Function.update c.prog i (next c.store),
      Function.update c.seen i (some (update c.store))⟩ := by
  obtain rfl := h
  simp only [Conf.step, hact]

theorem Takes.of_isRet (h : Takes c i c') (hret : (c.prog i).IsRet) : c' = c := by
  obtain rfl := h
  obtain ⟨result, hresult⟩ := hret
  simp only [Conf.step, hresult]

theorem NamesKept.act (h : NamesKept hash calls c) (ht : Takes c i c') {update : Users → Users}
    {next : Users → Prog Users UserAnswer} (hact : c.prog i = .act update next)
    (hunique : c'.store.Unique)
    (hi : Standing (hash i) (calls i) (some (update c.store)) (next c.store)) :
    NamesKept hash calls c' := by
  constructor
  · exact hunique
  · rintro j
    obtain rfl := ht.of_act hact
    by_cases hj : j = i
    · subst hj
      simpa using hi
    · simpa [Function.update_of_ne hj] using h.standing j

theorem NamesKept.write (h : NamesKept hash calls c) (ht : Takes c i c')
    (hwrite : (calls i).AtWrite (c.prog i)) (hlooked : (calls i).LooksUp → (c.seen i).isSome = true)
    (hfree : ∀ users, c.seen i = some users →
      ∀ user ∈ users.rows, user.username ≠ (calls i).username) :
    (c'.store.Unique ↔ ¬ Overtaken calls c i) ∧ (c'.store.Unique → NamesKept hash calls c') := by
  obtain ⟨hashedPassword, next, hact, hret⟩ := hwrite
  constructor
  · obtain rfl := ht.of_act hact
    rw [unique_update h.unique]
    constructor
    · rintro hapart ⟨-, -, other, hother, hname, hgives, -⟩
      exact hapart other hother hname hgives
    · rintro hnot other hother hname hgives
      refine hnot ⟨?_, hlooked, other, hother, hname, hgives, fun users hseen hmem => ?_⟩
      · rw [hact]
        rintro ⟨result, hresult⟩
        cases hresult
      · exact hfree users hseen other hmem hname
  · exact fun hunique => h.act ht hact hunique (.returned (hret _))

theorem NamesKept.step (h : NamesKept hash calls c) (ht : Takes c i c') :
    (c'.store.Unique ↔ ¬ Overtaken calls c i) ∧ (c'.store.Unique → NamesKept hash calls c') := by
  have hreturned (hret : (c.prog i).IsRet) :
      (c'.store.Unique ↔ ¬ Overtaken calls c i) ∧ (c'.store.Unique → NamesKept hash calls c') := by
    obtain rfl := ht.of_isRet hret
    exact ⟨iff_of_true h.unique fun hover => hover.1 hret, fun _ => h⟩
  have hstanding := h.standing i
  generalize hseen : c.seen i = seen at hstanding
  generalize hp : c.prog i = p at hstanding
  cases hstanding with
  | returned hret => exact hreturned (hp ▸ hret)
  | fresh =>
    rcases (calls i).program_cases (hash i) with hret | ⟨hlooks, hwrite⟩ | ⟨hlooks, next, hnext, hlookup⟩
    · exact hreturned (hp ▸ hret)
    · exact h.write ht (hp ▸ hwrite) (fun hlooks' => absurd hlooks' hlooks) (by simp [hseen])
    · -- the lookup leaves the table alone
      obtain ⟨after, hread, hafter⟩ := UserService.untaken_cases (calls i).username next
      have hact := hp.trans (hlookup.trans hread)
      have hsame : c'.store = c.store := by
        rw [ht.of_act hact]
        rfl
      have hnot : ¬ Overtaken calls c i := by
        rintro ⟨-, hlooked, -⟩
        have hsome := hlooked hlooks
        rw [hseen] at hsome
        cases hsome
      refine ⟨iff_of_true (hsame ▸ h.unique) hnot, fun hunique => h.act ht hact hunique ?_⟩
      rcases hafter c.store with hret | ⟨hfound, hfree⟩
      · exact .returned hret
      · rw [hfound]
        rcases hnext with hret | hwrite
        · exact .returned hret
        · exact .lookedUp hlooks hfree hwrite
  | @lookedUp users _ hlooks hfree hwrite =>
    refine h.write ht (hp ▸ hwrite) (fun _ => by simp [hseen]) ?_
    rintro users' hseen'
    rw [hseen] at hseen'
    obtain rfl := Option.some.inj hseen'
    exact hfree

def taken (c : Conf ι Users UserAnswer) : List ι → List (ι × Conf ι Users UserAnswer)
  | [] => []
  | i :: schedule => (i, c.step i) :: taken (c.step i) schedule

theorem along_taken (c : Conf ι Users UserAnswer) (schedule : List ι) :
    Along Takes c (taken c schedule) := by
  induction schedule generalizing c with
  | nil => trivial
  | cons i schedule ih => exact ⟨rfl, ih _⟩

/-- However the lookups and writes of the calls are interleaved, no two users have the same name
exactly when no call is overtaken. -/
theorem names_unique_iff (hunique : users.Unique)
    (hrun : Along Takes (.start users fun i => (calls i).program (hash i)) run) :
    (∀ c ∈ visited (.start users fun i => (calls i).program (hash i)) run, c.store.Unique) ↔
      Along (fun c i _ => ¬ Overtaken calls c i)
        (.start users fun i => (calls i).program (hash i)) run := by
  have hstart : (Conf.start users fun i => (calls i).program (hash i)).store.Unique := hunique
  apply visited_good_iff (NamesKept hash calls) hrun hstart ⟨hstart, fun _ => .fresh⟩
  · rintro c i c' h ht
    exact (h.step ht).1
  · rintro c i c' h ht hnot
    exact (h.step ht).2 ((h.step ht).1.mpr hnot)

end Interleavings

def namesakes : Conf Bool Users UserAnswer :=
  .start .empty fun _ => (UserCall.createUser "ann" "password").program .ok

/-- The second looks the name up when the first has it, and is refused. -/
theorem names_unique_iff_namesakes :
    let c := last namesakes (taken namesakes [false, false, true])
    c.store.rows.map (·.username) = ["ann"] ∧ c.Returned true (.error .taken) ∧
      c.store.Unique := by
  intro c
  have hempty : Users.empty.Unique := List.nodup_nil
  have hrun : Along Takes namesakes (taken namesakes [false, false, true]) := along_taken ..
  refine ⟨by decide, rfl, (names_unique_iff hempty hrun).mpr ⟨?_, ?_, ?_, trivial⟩ _
    (last_mem_visited _ _)⟩
  · rintro ⟨-, -, other, hother, -⟩
    cases hother
  · rintro ⟨-, -, other, hother, -⟩
    cases hother
  · rintro ⟨-, hlooked, -⟩
    exact absurd (hlooked trivial) (by decide)

/-- Both look the name up before either writes it. -/
theorem name_given_twice :
    Along Takes namesakes (taken namesakes [false, true, false, true]) ∧
    (last namesakes (taken namesakes [false, true, false, true])).store.rows.map (·.username) =
      ["ann", "ann"] ∧
    ¬ ∀ c ∈ visited namesakes (taken namesakes [false, true, false, true]), c.store.Unique := by
  refine ⟨along_taken .., by decide, fun h => ?_⟩
  exact absurd (h _ (last_mem_visited _ _)) (by decide)

end DotsAndBoxes
