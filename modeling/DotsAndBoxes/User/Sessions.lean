import DotsAndBoxes.Library.Decimals
import DotsAndBoxes.User.Names

/-! # Sessions of guests

A guest is given a session with the account: a signed token that names the user, in a cookie. The
token is good for two hours, and the browser sends the cookie for a day. Whoever sends it acts as
the user that it names.
-/

namespace DotsAndBoxes

open Serial

structure Claims where
  userID : ℤ
  username : String
  expiresAt : Time
  deriving DecidableEq, Repr

/-- Signed tokens: what was signed with the key is read back. -/
structure Signing where
  signedString : Claims → String
  parse : String → Option Claims
  parse_signedString : ∀ claims, parse (signedString claims) = some claims
  signedString_ne : ∀ claims, signedString claims ≠ ""

/-- A token may be the claims themselves, where nobody makes tokens up. -/
def Signing.unsigned : Signing where
  signedString claims :=
    claims.userID.repr ++ "," ++ (claims.expiresAt.repr ++ "," ++ claims.username)
  parse token := do
    let (userID, rest) := Decimals.untilComma token
    let (expiresAt, username) := Decimals.untilComma rest
    return ⟨← userID.toInt?, username, ← expiresAt.toInt?⟩
  parse_signedString claims := by
    simp only [Decimals.untilComma_repr, Int.toInt?_repr]
    rfl
  signedString_ne claims h := by
    have hempty := congrArg String.toList h
    simp at hempty

def oneSecond : Time := 1000000000

def wholeSeconds (t : Time) : Time := t / oneSecond * oneSecond

def tokenExpiry (now : Time) : Time := wholeSeconds (now + 7200 * oneSecond)

def generateToken (sign : Signing) (now : Time) (userID : ℤ) (username : String) : String :=
  sign.signedString ⟨userID, username, tokenExpiry now⟩

def parseSession (sign : Signing) (now : Time) (token : String) : Option Claims :=
  match sign.parse token with
  | some claims => if now < claims.expiresAt then some claims else none
  | none => none

structure Cookie where
  value : String
  expires : Time
  deriving DecidableEq, Repr

def sessionCookie (sign : Signing) (now : Time) (guest : User) : Cookie where
  value := generateToken sign now guest.userID guest.username
  expires := wholeSeconds (now + 86400 * oneSecond)

def Cookie.sent (now : Time) (ck : Cookie) : Option String :=
  if now < ck.expires then some ck.value else none

def sessionJWT (sign : Signing) (now : Time) (ck : Option String) : Except String Claims :=
  match ck with
  | none => .error "missing session"
  | some value =>
    if value = "" then .error "missing session"
    else match parseSession sign now value with
      | none => .error "invalid or expired session"
      | some tok => .ok tok

/-- The session that a request has in a browser with these cookies. -/
def requestSession (sign : Signing) (now : Time) (ck : Option Cookie) : Except String Claims :=
  sessionJWT sign now (ck.bind (Cookie.sent now))

variable {sign : Signing} {now t : Time} {guest : User} {ck : Cookie}

theorem wholeSeconds_mono {t t' : Time} (h : t ≤ t') : wholeSeconds t ≤ wholeSeconds t' :=
  Int.mul_le_mul_of_nonneg_right (Int.ediv_le_ediv (by decide) h) (by decide)

theorem parseSession_sessionCookie (sign : Signing) (now t : Time) (guest : User) :
    parseSession sign now (sessionCookie sign t guest).value =
      if now < tokenExpiry t then some ⟨guest.userID, guest.username, tokenExpiry t⟩ else none := by
  show parseSession sign now (sign.signedString ⟨_, _, tokenExpiry t⟩) = _
  rw [parseSession, sign.parse_signedString]

theorem requestSession_sessionCookie (sign : Signing) (now t : Time) (guest : User) :
    requestSession sign now (some (sessionCookie sign t guest)) =
      if now < tokenExpiry t then .ok ⟨guest.userID, guest.username, tokenExpiry t⟩
      else if now < (sessionCookie sign t guest).expires then .error "invalid or expired session"
      else .error "missing session" := by
  have hexpires : tokenExpiry t ≤ (sessionCookie sign t guest).expires :=
    wholeSeconds_mono (Int.add_le_add_left (by decide) t)
  have hvalue : (sessionCookie sign t guest).value ≠ "" := sign.signedString_ne _
  rw [requestSession, Option.bind_some, Cookie.sent]
  by_cases hsent : now < (sessionCookie sign t guest).expires
  · rw [if_pos hsent, if_pos hsent, sessionJWT, if_neg hvalue, parseSession_sessionCookie]
    by_cases hgood : now < tokenExpiry t
    · rw [if_pos hgood, if_pos hgood]
    · rw [if_neg hgood, if_neg hgood]
  · rw [if_neg hsent, if_neg hsent, if_neg fun hgood => hsent (hgood.trans_le hexpires)]
    rfl

theorem requestSession_eq_ok_iff {claims : Claims} :
    requestSession sign now (some (sessionCookie sign t guest)) = .ok claims ↔
      now < tokenExpiry t ∧ claims = ⟨guest.userID, guest.username, tokenExpiry t⟩ := by
  rw [requestSession_sessionCookie]
  split_ifs with hgood hsent <;> simp [hgood, eq_comm]

theorem requestSession_unique {now' : Time} {cookie : Option Cookie} {claims claims' : Claims}
    (h : requestSession sign now cookie = .ok claims)
    (h' : requestSession sign now' cookie = .ok claims') : claims = claims' := by
  have hparse {now : Time} {claims : Claims} (h : requestSession sign now cookie = .ok claims) :
      ∃ ck, cookie = some ck ∧ sign.parse ck.value = some claims := by
    unfold requestSession sessionJWT at h
    cases cookie with
    | none => cases h
    | some ck =>
      refine ⟨ck, rfl, ?_⟩
      rw [Option.bind_some, Cookie.sent] at h
      split_ifs at h
      · dsimp only at h
        split_ifs at h
        · unfold parseSession at h
          cases hparse : sign.parse ck.value with
          | none => simp [hparse] at h
          | some tok =>
            rw [hparse] at h
            dsimp only at h
            split_ifs at h
            cases h
            rfl
  obtain ⟨ck, rfl, hck⟩ := hparse h
  obtain ⟨ck', heq, hck'⟩ := hparse h'
  obtain rfl := Option.some.inj heq
  exact Option.some.inj (hck.symm.trans hck')

/-- What is left of a guest login, up to the row of the guest. -/
inductive CreatesGuest : Prog Users UserAnswer → Prop where
  | refused (e : UserError) : CreatesGuest (.ret (.error e))
  | lookup {next : Users → Prog Users UserAnswer} (h : ∀ users, CreatesGuest (next users)) :
      CreatesGuest (.read next)
  | create (username : String) : CreatesGuest (PgUserRepository.createGuest username)

theorem createsGuest_createGuestUser (preferredUsername : String) (suffix : List (Fin 256)) :
    CreatesGuest (UserService.createGuestUser preferredUsername suffix) := by
  unfold UserService.createGuestUser
  dsimp only
  split_ifs
  · unfold UserService.check
    split
    · exact .refused _
    · apply CreatesGuest.lookup
      intro users
      dsimp only
      split
      · exact .refused _
      · split_ifs
        · exact .refused _
        · exact .create _
  · exact .create _

def Users.HasGuest (users : Users) (user : User) : Prop := user ∈ users.rows ∧ user.isGuest = true

theorem Users.HasGuest.mono {users users' : Users} {user : User} (h : users.HasGuest user)
    (hrows : users.rows ⊆ users'.rows) : users'.HasGuest user :=
  ⟨hrows h.1, h.2⟩

theorem Users.mem_insert {username : String} {password : Option String} {isGuest : Bool}
    {users : Users} {user : User} : user ∈ (users.insert username password isGuest).rows ↔
      user ∈ users.rows ∨ user = ⟨users.nextID, username, password, isGuest⟩ := by
  simp [Users.insert]

end DotsAndBoxes
