import DotsAndBoxes.Library.Decimals
import DotsAndBoxes.Library.Representation
import DotsAndBoxes.Lobby.Concurrency
import DotsAndBoxes.Lobby.Operations

/-! # Lobbies in Redis

A lobby is stored as a JSON document under a key of its own, for a day after it was last saved.
The calls of the service, each of them a sequence of commands, do to the documents what they do
to the lobbies that the documents stand for, however their commands interleave. What Redis adds
is that a lobby may disappear between two commands: it does when nobody has saved it for a day.
-/

namespace DotsAndBoxes

open Serial Tagged

/-- A format of timestamps that loses nothing. -/
structure TimeFormat where
  format : Time → String
  parse : String → Option Time
  parse_format : ∀ t, parse (format t) = some t

def TimeFormat.codec (f : TimeFormat) : Codec Time where
  zero := 0
  marshal t := .str (f.format t)
  assign
    | old, .null => some old
    | _, .str s => f.parse s
    | _, _ => none

def Lobby.codec (f : TimeFormat) : Codec Lobby :=
  .struct ⟨"", 0, 0, "", 0, false, 0, []⟩ [
    .of "lobby_id" .string (·.lobbyID) fun l lobbyID => { l with lobbyID },
    .of "host_id" .int (·.hostID) fun l hostID => { l with hostID },
    .of "board_size" .int (·.boardSize) fun l boardSize => { l with boardSize },
    .of "name" .string (·.name) fun l name => { l with name },
    .of "player_limit" .int (·.playerLimit) fun l playerLimit => { l with playerLimit },
    .of "is_private" .bool (·.isPrivate) fun l isPrivate => { l with isPrivate },
    .of "created_at" f.codec (·.createdAt) fun l createdAt => { l with createdAt },
    .of "players" (.slice LobbyPlayer.codec) (·.players) fun l players => { l with players }]

/-- A document that is no lobby. -/
inductive RepositoryFault where
  | malformedLobby
  deriving DecidableEq, Repr

structure LobbyRepository (S : Type) where
  getLobby : String → S → Except RepositoryFault (Option Lobby)
  save : Lobby → S → S
  delete : String → S → S

namespace LobbyRepository

variable {S R : Type} (repo : LobbyRepository S)

def load (lobbyID : String) (missing : R) (found : Lobby → Prog S (Except RepositoryFault R)) :
    Prog S (Except RepositoryFault R) :=
  .read fun s =>
    match repo.getLobby lobbyID s with
    | .error e => .ret (.error e)
    | .ok none => .ret (.ok missing)
    | .ok (some lobby) => found lobby

def joinLobby (lobbyID : String) (userID : ℤ) (username : String) :
    Prog S (Except RepositoryFault (Except LobbyError Unit)) :=
  repo.load lobbyID (.error .lobbyNotFound) fun lobby =>
    match lobby.addPlayer userID username with
    | .error e => .ret (.ok (.error e))
    | .ok lobby => .write (repo.save lobby) (.ret (.ok (.ok ())))

def leaveLobby (lobbyID : String) (userID : ℤ) :
    Prog S (Except RepositoryFault (Except LobbyError Unit)) :=
  repo.load lobbyID (.error .lobbyNotFound) fun lobby =>
    match lobby.removePlayer userID with
    | .error e => .ret (.ok (.error e))
    | .ok lobby =>
      if lobby.isEmpty then .write (repo.delete lobbyID) (.ret (.ok (.ok ())))
      else .write (repo.save lobby) (.ret (.ok (.ok ())))

def deleteLobby (lobbyID : String) : Prog S (Except RepositoryFault (Except LobbyError Unit)) :=
  repo.load lobbyID (.error .lobbyNotFound) fun _ =>
    .write (repo.delete lobbyID) (.ret (.ok (.ok ())))

def setPlayerReady (lobbyID : String) (userID : ℤ) (ready : Bool) :
    Prog S (Except RepositoryFault (Except LobbyError Unit)) :=
  repo.load lobbyID (.error .lobbyNotFound) fun lobby =>
    match lobby.setReady userID ready with
    | .error _ => .write (repo.save lobby) (.ret (.ok (.ok ())))
    | .ok lobby => .write (repo.save lobby) (.ret (.ok (.ok ())))

/-- A lobby that cannot be fetched again is reported like one that is gone. -/
def toggleReady (lobbyID : String) (userID : ℤ) : Prog S (Except RepositoryFault LobbyReply) :=
  repo.load lobbyID (.done (.error .lobbyNotFound)) fun lobby =>
    match lobby.players.find? (·.userID = userID) with
    | none => .ret (.ok .playerNotInLobby)
    | some player =>
      (repo.setPlayerReady lobbyID userID (!player.isReady)).bind fun
      | .error e => .ret (.error e)
      | .ok (.error e) => .ret (.ok (.done (.error e)))
      | .ok (.ok ()) => .read fun s =>
        match repo.getLobby lobbyID s with
        | .error _ | .ok none => .ret (.ok .updatedLobbyNotFetched)
        | .ok (some lobby) => .ret (.ok (.lobby lobby))

def program (lobbyID : String) (call : LobbyCall) : Prog S (Except RepositoryFault LobbyReply) :=
  match call with
  | .join userID username =>
    (repo.joinLobby lobbyID userID username).bind fun result => .ret (result.map .done)
  | .leave userID => (repo.leaveLobby lobbyID userID).bind fun result => .ret (result.map .done)
  | .delete => (repo.deleteLobby lobbyID).bind fun result => .ret (result.map .done)
  | .setReady userID ready =>
    (repo.setPlayerReady lobbyID userID ready).bind fun result => .ret (result.map .done)
  | .toggleReady userID => repo.toggleReady lobbyID userID

end LobbyRepository

/-- A value under each key, with the time at which it expires. -/
structure Redis where
  now : Time
  entries : String → Option (Json × Time)

namespace Redis

def get (key : String) (r : Redis) : Option Json :=
  match r.entries key with
  | none => none
  | some (val, expires) => if r.now < expires then some val else none

def set (key : String) (val : Json) (ttl : Time) (r : Redis) : Redis :=
  { r with entries := Function.update r.entries key (some (val, r.now + ttl)) }

def del (key : String) (r : Redis) : Redis :=
  { r with entries := Function.update r.entries key none }

/-- The clock reads `t`, unless it is past that already. -/
def clock (t : Time) (r : Redis) : Redis := { r with now := max r.now t }

end Redis

def lobbyKey (id : String) : String := "lobby:" ++ id

namespace RedisLobbyRepository

def ttl : Time := 86400000000000

def getLobby (f : TimeFormat) (lobbyID : String) (r : Redis) :
    Except RepositoryFault (Option Lobby) :=
  match r.get (lobbyKey lobbyID) with
  | none => .ok none
  | some val =>
    match (Lobby.codec f).unmarshal val with
    | some l => .ok (some l)
    | none => .error .malformedLobby

def save (f : TimeFormat) (l : Lobby) (r : Redis) : Redis :=
  r.set (lobbyKey l.lobbyID) ((Lobby.codec f).marshal l) ttl

def deleteLobby (lobbyID : String) (r : Redis) : Redis := r.del (lobbyKey lobbyID)

def repository (f : TimeFormat) : LobbyRepository Redis where
  getLobby := getLobby f
  save := save f
  delete := deleteLobby

/-- The document that is stored for a lobby stands for what the service keeps. -/
def Holds (f : TimeFormat) (lobbyID : String) (r : Redis) (s : Option Lobby) : Prop :=
  getLobby f lobbyID r = .ok s

variable {f : TimeFormat} {lobbyID username : String} {userID : ℤ} {ready : Bool} {r : Redis}
  {s : Option Lobby} {key key' : String} {val : Json} {l : Lobby} {t : Time}

theorem lawful_codec (f : TimeFormat) : (Lobby.codec f).Lawful := by
  have htime : f.codec.Lawful := fun _ t => f.parse_format t
  have hplayer : LobbyPlayer.codec.Lawful := Codec.lawful_struct (by decide) fun _ _ => by simp
  refine Codec.lawful_struct ?_ fun _ _ => by simp [htime, hplayer]
  show (["lobby_id", "host_id", "board_size", "name", "player_limit", "is_private", "created_at",
    "players"].map foldName).Nodup
  decide

theorem lobbyKey_inj {id id' : String} : lobbyKey id = lobbyKey id' ↔ id = id' := by
  simp [lobbyKey]

theorem get_set (key : String) (val : Json) (r : Redis) :
    (r.set key val ttl).get key = some val := by
  simp [Redis.get, Redis.set, ttl]

theorem get_set_of_ne (h : key' ≠ key) : (r.set key val ttl).get key' = r.get key' := by
  simp only [Redis.get, Redis.set, Function.update_of_ne h]
  rfl

theorem get_del (key : String) (r : Redis) : (r.del key).get key = none := by
  simp [Redis.get, Redis.del]

theorem get_clock (h : ∀ entry, r.entries key = some entry → max r.now t < entry.2) :
    (r.clock t).get key = r.get key := by
  cases hentry : r.entries key with
  | none => simp [Redis.get, Redis.clock, hentry]
  | some entry =>
    have hlate := h entry hentry
    have hnow : r.now < entry.2 := (le_max_left _ _).trans_lt hlate
    simp only [Redis.get, Redis.clock, hentry]
    exact (if_pos hlate).trans (if_pos hnow).symm

theorem get_clock_eq_none {entry : Json × Time} (hentry : r.entries key = some entry)
    (h : ¬ max r.now t < entry.2) : (r.clock t).get key = none := by
  simp only [Redis.get, Redis.clock, hentry]
  exact if_neg h

theorem Holds.save (h : Holds f lobbyID r s) (l : Lobby) :
    Holds f lobbyID (save f l r) (if l.lobbyID = lobbyID then some l else s) := by
  unfold Holds getLobby RedisLobbyRepository.save
  by_cases hid : l.lobbyID = lobbyID
  · subst hid
    rw [get_set, if_pos rfl]
    dsimp only
    rw [(lawful_codec f).unmarshal_marshal]
  · rw [get_set_of_ne (by rw [Ne, lobbyKey_inj]; exact Ne.symm hid), if_neg hid]
    exact h

theorem holds_deleteLobby (f : TimeFormat) (lobbyID : String) (r : Redis) :
    Holds f lobbyID (deleteLobby lobbyID r) none := by
  unfold Holds getLobby deleteLobby
  rw [get_del]

/-- A document that expires takes the lobby along, and one that does not stays. -/
theorem Holds.clock (h : Holds f lobbyID r s) (t : Time) :
    Holds f lobbyID (r.clock t) s ∨ Holds f lobbyID (r.clock t) none := by
  unfold Holds getLobby at h ⊢
  by_cases hlate : ∀ entry, r.entries (lobbyKey lobbyID) = some entry → max r.now t < entry.2
  · rw [get_clock hlate]
    exact .inl h
  · push Not at hlate
    obtain ⟨entry, hentry, hexpired⟩ := hlate
    rw [get_clock_eq_none hentry hexpired.not_gt]
    exact .inr rfl

/-- The lobby does not expire up to then, whether or not it is saved again. -/
structure KeepsUntil (lobbyID : String) (t : Time) (r : Redis) : Prop where
  notYet : r.now ≤ t
  day : t < r.now + ttl
  stored : ∀ entry, r.entries (lobbyKey lobbyID) = some entry → t < entry.2

theorem keepsUntil_save (l : Lobby) (r : Redis) (hnow : r.now ≤ t) (hday : t < r.now + ttl) :
    KeepsUntil l.lobbyID t (save f l r) := by
  refine ⟨hnow, hday, ?_⟩
  intro entry hentry
  simp only [RedisLobbyRepository.save, Redis.set, Function.update_self, Option.some.injEq]
    at hentry
  subst hentry
  exact hday

theorem KeepsUntil.holds_clock (hkeeps : KeepsUntil lobbyID t r) (h : Holds f lobbyID r s)
    {t' : Time} (ht : t' ≤ t) :
    Holds f lobbyID (r.clock t') s ∧ KeepsUntil lobbyID t (r.clock t') := by
  have hnow : max r.now t' ≤ t := max_le hkeeps.notYet ht
  refine ⟨?_, hnow, hkeeps.day.trans_le ?_, hkeeps.stored⟩
  · unfold Holds getLobby at h ⊢
    rw [get_clock fun entry hentry => hnow.trans_lt (hkeeps.stored entry hentry)]
    exact h
  · exact add_le_add_left (le_max_left _ _) ttl

/-- What Redis is like while the calls go on, and the repository keeps. -/
structure Kept (f : TimeFormat) (P : Redis → Prop) : Prop where
  save : ∀ l r, P r → P (save f l r)
  deleteLobby : ∀ lobbyID r, P r → P (deleteLobby lobbyID r)

theorem kept_keepsUntil (f : TimeFormat) (lobbyID : String) (t : Time) :
    Kept f (KeepsUntil lobbyID t) where
  save l r h := by
    by_cases hid : lobbyID = l.lobbyID
    · subst hid
      exact keepsUntil_save l r h.notYet h.day
    · refine ⟨h.notYet, h.day, ?_⟩
      intro entry hentry
      have hkey : lobbyKey lobbyID ≠ lobbyKey l.lobbyID := by rwa [Ne, lobbyKey_inj]
      simp only [RedisLobbyRepository.save, Redis.set, Function.update_of_ne hkey] at hentry
      exact h.stored entry hentry
  deleteLobby id r h := by
    refine ⟨h.notYet, h.day, ?_⟩
    intro entry hentry
    by_cases hid : lobbyID = id
    · subst hid
      simp [RedisLobbyRepository.deleteLobby, Redis.del] at hentry
    · have hkey : lobbyKey lobbyID ≠ lobbyKey id := by rwa [Ne, lobbyKey_inj]
      simp only [RedisLobbyRepository.deleteLobby, Redis.del, Function.update_of_ne hkey] at hentry
      exact h.stored entry hentry

/-- The document is there for the lobby, and Redis is as it should be. -/
def Stands (f : TimeFormat) (lobbyID : String) (P : Redis → Prop) (r : Redis) (s : Option Lobby) :
    Prop := Holds f lobbyID r s ∧ P r

def Answers {R : Type} (result : Except RepositoryFault R) (result' : R) : Prop :=
  result = .ok result'

section Programs

variable {R : Type} {missing : R} {P : Redis → Prop}

theorem refines_load {found : Lobby → Prog Redis (Except RepositoryFault R)}
    {found' : Lobby → LobbyProg R}
    (hfound : ∀ l, (found l).Refines (Stands f lobbyID P) Answers (found' l)) :
    ((repository f).load lobbyID missing found).Refines (Stands f lobbyID P) Answers
      (.read fun s => match s with
        | none => .ret missing
        | some l => found' l) := by
  apply Prog.refines_read
  intro r s h
  rw [show (repository f).getLobby lobbyID r = .ok s from h.1]
  cases s with
  | none => exact .ret rfl
  | some l => exact hfound l

variable (hP : Kept f P)
include hP

theorem refines_save (l : Lobby) (result : R) :
    (Prog.write ((repository f).save l) (.ret (.ok result))).Refines (Stands f lobbyID P) Answers
      (saveLobby lobbyID l (.ret result)) :=
  Prog.refines_write (fun _ _ h => ⟨h.1.save l, hP.save l _ h.2⟩) (.ret rfl)

theorem refines_delete (result : R) :
    (Prog.write ((repository f).delete lobbyID) (.ret (.ok result))).Refines (Stands f lobbyID P)
      Answers (deleteStored (.ret result)) :=
  Prog.refines_write (fun r _ h => ⟨holds_deleteLobby f lobbyID r, hP.deleteLobby _ _ h.2⟩)
    (.ret rfl)

theorem refines_joinLobby : ((repository f).joinLobby lobbyID userID username).Refines
    (Stands f lobbyID P) Answers (LobbyService.joinLobby lobbyID userID username) := by
  apply refines_load
  intro l
  cases l.addPlayer userID username with
  | error e => exact .ret rfl
  | ok l' => exact refines_save hP l' _

theorem refines_leaveLobby : ((repository f).leaveLobby lobbyID userID).Refines
    (Stands f lobbyID P) Answers (LobbyService.leaveLobby lobbyID userID) := by
  apply refines_load
  intro l
  cases l.removePlayer userID with
  | error e => exact .ret rfl
  | ok l' =>
    dsimp only
    split_ifs
    · exact refines_delete hP _
    · exact refines_save hP l' _

theorem refines_deleteLobby : ((repository f).deleteLobby lobbyID).Refines
    (Stands f lobbyID P) Answers LobbyService.deleteLobby :=
  refines_load fun _ => refines_delete hP _

theorem refines_setPlayerReady : ((repository f).setPlayerReady lobbyID userID ready).Refines
    (Stands f lobbyID P) Answers (LobbyService.setPlayerReady lobbyID userID ready) := by
  apply refines_load
  intro l
  cases l.setReady userID ready with
  | error e => exact refines_save hP l _
  | ok l' => exact refines_save hP l' _

theorem refines_toggleReady : ((repository f).toggleReady lobbyID userID).Refines
    (Stands f lobbyID P) Answers (toggleReady lobbyID userID) := by
  apply refines_load
  intro l
  cases l.players.find? (·.userID = userID) with
  | none => exact .ret rfl
  | some player =>
    refine (refines_setPlayerReady hP).bind ?_
    rintro _ result rfl
    cases result with
    | error e => exact .ret rfl
    | ok =>
      apply Prog.refines_read
      intro r s h
      rw [show (repository f).getLobby lobbyID r = .ok s from h.1]
      cases s <;> exact .ret rfl

theorem refines_program (lobbyID : String) (call : LobbyCall) :
    ((repository f).program lobbyID call).Refines (Stands f lobbyID P) Answers
      (call.program lobbyID) := by
  have hdone {p : Prog Redis (Except RepositoryFault (Except LobbyError Unit))}
      {p' : LobbyProg (Except LobbyError Unit)} (h : p.Refines (Stands f lobbyID P) Answers p') :
      (p.bind fun result => .ret (result.map LobbyReply.done)).Refines (Stands f lobbyID P) Answers
        (p'.bind fun result => .ret (.done result)) := by
    apply h.bind
    rintro _ result rfl
    exact .ret rfl
  cases call with
  | join => exact hdone (refines_joinLobby hP)
  | leave => exact hdone (refines_leaveLobby hP)
  | delete => exact hdone (refines_deleteLobby hP)
  | setReady => exact hdone (refines_setPlayerReady hP)
  | toggleReady => exact refines_toggleReady hP

end Programs

section Runs

variable {ι : Type}

/-- The document is there for the lobby, and the calls have given the same replies. -/
structure Agrees (f : TimeFormat) (lobbyID : String)
    (c : Conf ι Redis (Except RepositoryFault LobbyReply)) (a : Conf ι (Option Lobby) LobbyReply) :
    Prop where
  stored : getLobby f lobbyID c.store = .ok a.store
  returned : ∀ i result, c.Returned i result ↔ ∃ reply, a.Returned i reply ∧ result = .ok reply

theorem agrees_of_refines {P : Redis → Prop} {c : Conf ι Redis (Except RepositoryFault LobbyReply)}
    {a : Conf ι (Option Lobby) LobbyReply} (h : c.Refines (Stands f lobbyID P) Answers a) :
    Agrees f lobbyID c a := by
  refine ⟨h.store.1, fun i result => ⟨h.returned', ?_⟩⟩
  rintro ⟨reply, hreturned, rfl⟩
  obtain ⟨result, hreturned', rfl⟩ := h.returned hreturned
  exact hreturned'

theorem refines_start {P : Redis → Prop} (hP : Kept f P) (h : Holds f lobbyID r s) (hr : P r)
    (calls : ι → LobbyCall) :
    (Conf.start r fun i => (repository f).program lobbyID (calls i)).Refines (Stands f lobbyID P)
      Answers (Conf.start s fun i => (calls i).program lobbyID) :=
  ⟨⟨h, hr⟩, fun i => refines_program hP lobbyID (calls i)⟩

variable [DecidableEq ι]

def onRedis (f : TimeFormat) (lobbyID : String) (calls : ι → LobbyCall) (r : Redis)
    (schedule : List (ι ⊕ Time)) : Conf ι Redis (Except RepositoryFault LobbyReply) :=
  (Conf.start r fun i => (repository f).program lobbyID (calls i)).execWith Redis.clock schedule

def onLobby (lobbyID : String) (calls : ι → LobbyCall) (s : Option Lobby)
    (schedule : List (ι ⊕ Unit)) : Conf ι (Option Lobby) LobbyReply :=
  (Conf.start s fun i => (calls i).program lobbyID).execWith (fun _ _ => none) schedule

/-- However the commands of the calls interleave, the document is there for the lobby that the
calls make of it, and they reply the same. All that the clock can do is to remove the lobby, and
it does not within a day of the last time that the lobby was saved. -/
theorem calls_on_redis (f : TimeFormat) (lobbyID : String) (calls : ι → LobbyCall)
    (h : Holds f lobbyID r s) (schedule : List (ι ⊕ Time)) :
    (∃ schedule' : List (ι ⊕ Unit),
      schedule'.filterMap Sum.getLeft? = schedule.filterMap Sum.getLeft? ∧
      Agrees f lobbyID (onRedis f lobbyID calls r schedule)
        (onLobby lobbyID calls s schedule')) ∧
    ∀ t, KeepsUntil lobbyID t r → (∀ t', .inr t' ∈ schedule → t' ≤ t) →
      Agrees f lobbyID (onRedis f lobbyID calls r schedule)
        ((Conf.start s fun i => (calls i).program lobbyID).exec
          (schedule.filterMap Sum.getLeft?)) := by
  constructor
  · have hkept : Kept f fun _ => True := ⟨fun _ _ _ => trivial, fun _ _ _ => trivial⟩
    obtain ⟨schedule', hcalls, hrefines⟩ := (refines_start hkept h trivial calls).execWith
      Redis.clock (fun (_ : Unit) _ => none) fun t r s (_ : .inr t ∈ schedule) hr => by
        rcases hr.1.clock t with hstays | hgone
        · exact ⟨[], hstays, trivial⟩
        · exact ⟨[()], hgone, trivial⟩
    exact ⟨schedule', hcalls, agrees_of_refines hrefines⟩
  · intro t hkeeps hclock
    obtain ⟨schedule', hcalls, hrefines⟩ :=
      (refines_start (kept_keepsUntil f lobbyID t) h hkeeps calls).execWith
        Redis.clock (fun e : Empty => e.elim) fun t' r s (hmem : .inr t' ∈ schedule) hr =>
          ⟨[], hr.2.holds_clock hr.1 (hclock t' hmem)⟩
    rw [Conf.execWith_of_isEmpty fun e : Empty => e.elim, hcalls] at hrefines
    exact agrees_of_refines hrefines

/-- Timestamps in nanoseconds, but for the one at which they begin. -/
def sinceEpoch : TimeFormat where
  format t := if t = 0 then "1970-01-01T00:00:00Z" else t.repr
  parse s := if s = "1970-01-01T00:00:00Z" then some 0 else s.toInt?
  parse_format t := by
    have hletter : 'T' ∉ t.repr.toList := by
      intro hmem
      rcases Decimals.mem_repr hmem with h | h <;> revert h <;> decide
    have hne : t.repr ≠ "1970-01-01T00:00:00Z" := by
      intro heq
      rw [heq] at hletter
      exact hletter (by decide)
    by_cases ht : t = 0
    · rw [if_pos ht, if_pos rfl, ht]
    · rw [if_neg ht, if_neg hne]
      exact Int.toInt?_repr t

/-- Of two that join at once one is lost in Redis too. -/
theorem calls_on_redis_joins_lost :
    let lobby : Lobby := ⟨"1", 1, 3, "", 4, false, 0, [⟨false, 1, "a"⟩]⟩
    let joins : Bool → LobbyCall := fun i => if i then .join 2 "b" else .join 3 "c"
    getLobby sinceEpoch "1" (onRedis sinceEpoch "1" joins (save sinceEpoch lobby ⟨0, fun _ => none⟩)
      [.inl true, .inr 1, .inl false, .inl false, .inr 3, .inl true]).store =
      .ok (some { lobby with players := [⟨false, 1, "a"⟩, ⟨false, 2, "b"⟩] }) := by
  intro lobby joins
  have hholds : Holds sinceEpoch "1" (save sinceEpoch lobby ⟨0, fun _ => none⟩) (some lobby) := by
    have hnone : Holds sinceEpoch "1" ⟨0, fun _ => none⟩ none := rfl
    exact hnone.save lobby
  refine ((calls_on_redis sinceEpoch "1" joins hholds _).2 3 ?_ ?_).stored
  · exact keepsUntil_save lobby ⟨0, fun _ => none⟩ (by decide) (by decide)
  · intro t hmem
    simp only [List.mem_cons, reduceCtorEq, Sum.inr.injEq, false_or, List.not_mem_nil, or_false]
      at hmem
    rcases hmem with rfl | rfl <;> decide

end Runs

end RedisLobbyRepository

end DotsAndBoxes
