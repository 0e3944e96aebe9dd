import DotsAndBoxes.Hub.Chat
import DotsAndBoxes.Library.Trimming

/-! # The text of a chat message

A message is cleaned twice: by the session that reads it, and by the worker that keeps it. The
second time the ampersands that escaping has written are escaped again, and the white space
that control characters have hidden is trimmed. So what is kept is what the clients were sent
exactly when the text gave neither occasion. What the clients are sent has no markup, but it can
still be blank, or have white space at its ends, where control characters have hidden it.
-/

namespace DotsAndBoxes

open Tagged Trimming

/-- A character is kept as it is, or escaped between an ampersand and a semicolon. -/
theorem escapeChar_cases (c : Char) : escapeChar c = [c] ∨
    isSpace c = false ∧ isControl c = false ∧ ∃ name, escapeChar c = '&' :: name ++ [';'] ∧
      ∀ d ∈ escapeChar c, isSpace d = false ∧ isControl d = false := by
  unfold escapeChar
  split
  case h_6 => exact .inl rfl
  all_goals
    rename_i hc
    right
    refine ⟨by simp [isSpace, hc], by simp [isControl, hc], ?_⟩
  · exact ⟨['#', '3', '4'], rfl, by simp [isSpace, isControl]⟩
  · exact ⟨['a', 'm', 'p'], rfl, by simp [isSpace, isControl]⟩
  · exact ⟨['#', '3', '9'], rfl, by simp [isSpace, isControl]⟩
  · exact ⟨['l', 't'], rfl, by simp [isSpace, isControl]⟩
  · exact ⟨['g', 't'], rfl, by simp [isSpace, isControl]⟩

theorem length_flatMap_escapeChar (msg : List Char) : msg.length ≤ (msg.flatMap escapeChar).length := by
  induction msg with
  | nil => exact le_rfl
  | cons c msg ih =>
    rw [List.flatMap_cons, List.length_append, List.length_cons]
    have hone : 1 ≤ (escapeChar c).length := by
      rcases escapeChar_cases c with hc | ⟨-, -, name, hc, -⟩ <;> simp [hc]
    omega

theorem flatMap_escapeChar_eq_self_iff {msg : List Char} :
    msg.flatMap escapeChar = msg ↔ ∀ c ∈ msg, escapeChar c = [c] := by
  induction msg with
  | nil => simp
  | cons c msg ih =>
    rw [List.flatMap_cons, List.forall_mem_cons]
    rcases escapeChar_cases c with hc | ⟨-, -, name, hc, -⟩
    · rw [hc, List.singleton_append, List.cons_inj_right, ih]
      simp
    · have hlonger := length_flatMap_escapeChar msg
      constructor
      · rintro h
        have hlength := congrArg List.length h
        rw [hc] at hlength
        simp only [List.length_append, List.length_cons, List.length_nil] at hlength
        omega
      · rintro ⟨h, -⟩
        rw [hc] at h
        simp at h

theorem bare_flatMap {f : Char → List Char} (hf : ∀ c, f c = [c] ∨ f c ≠ [] ∧
    ∀ d ∈ f c, isSpace d = false) {msg : List Char} (h : Bare isSpace msg) :
    Bare isSpace (msg.flatMap f) := by
  cases msg with
  | nil => exact h
  | cons c msg =>
    rw [List.flatMap_cons]
    rcases hf c with hc | ⟨hne, hvisible⟩
    · rw [hc]
      exact h
    · rintro d hd
      rw [List.head?_append_of_ne_nil _ hne] at hd
      exact hvisible d (List.mem_of_mem_head? hd)

theorem bare_escaped {msg : List Char} (h : Bare isSpace msg) :
    Bare isSpace (msg.flatMap escapeChar) := by
  apply bare_flatMap ?_ h
  rintro c
  rcases escapeChar_cases c with hc | ⟨-, -, name, hc, hvisible⟩
  · exact .inl hc
  · exact .inr ⟨by simp [hc], fun d hd => (hvisible d hd).1⟩

theorem bare_escaped_reverse {msg : List Char} (h : Bare isSpace msg.reverse) :
    Bare isSpace (msg.flatMap escapeChar).reverse := by
  rw [List.reverse_flatMap]
  apply bare_flatMap ?_ h
  rintro c
  rcases escapeChar_cases c with hc | ⟨-, -, name, hc, hvisible⟩
  · exact .inl (by simp [hc])
  · exact .inr ⟨by simp [hc], fun d hd => (hvisible d (List.mem_reverse.mp hd)).1⟩

theorem not_isControl_of_escaped {msg : List Char} (h : ∀ c ∈ msg, isControl c = false) :
    ∀ c ∈ msg.flatMap escapeChar, isControl c = false := by
  rintro d hd
  obtain ⟨c, hc, hd⟩ := List.mem_flatMap.mp hd
  rcases escapeChar_cases c with hsame | ⟨-, -, -, -, hvisible⟩
  · rw [hsame, List.mem_singleton] at hd
    exact hd ▸ h c hc
  · exact (hvisible d hd).2

/-- Nothing in the text is escaped, and at neither end control characters stand between white
space and white space. -/
structure Steady (text : String) : Prop where
  plain : ∀ c ∈ text.toList, escapeChar c = [c]
  start : Bare isSpace ((text.toList.dropWhile isSpace).dropWhile isControl)
  finish : Bare isSpace ((text.toList.reverse.dropWhile isSpace).dropWhile isControl)

section Cleaned

variable {text t : String} {maxLength : ℕ}

theorem ChatService.cleaned_eq_some : cleaned maxLength text = some t ↔
    ∃ msg, msg = (trim isSpace text.toList).filter (fun c => !isControl c) ∧ msg ≠ [] ∧
      msg.length ≤ maxLength ∧ t = escapeString msg := by
  simp only [cleaned]
  split_ifs with hbad
  · simp only [false_iff]
    rintro ⟨msg, rfl, hne, hlength, -⟩
    rcases hbad with hnil | hlong
    · exact hne hnil
    · exact absurd hlong (not_lt.mpr hlength)
  · push Not at hbad
    constructor
    · rintro ⟨⟩
      exact ⟨_, rfl, hbad.1, hbad.2, rfl⟩
    · rintro ⟨msg, rfl, -, -, rfl⟩
      rfl

/-- The text is steady as far as nothing is escaped and trimmed of the stripped message. -/
theorem steady_iff {msg : List Char}
    (hmsg : msg = (trim isSpace text.toList).filter fun c => !isControl c) (hne : msg ≠ []) :
    Steady text ↔ (∀ c ∈ msg, escapeChar c = [c]) ∧ Bare isSpace msg ∧ Bare isSpace msg.reverse := by
  subst hmsg
  have hplain : (∀ c ∈ text.toList, escapeChar c = [c]) ↔
      ∀ c ∈ (trim isSpace text.toList).filter fun c => !isControl c, escapeChar c = [c] := by
    obtain ⟨before, after, htext, hbefore, hafter, -⟩ := exists_trimmed isSpace text.toList
    constructor
    · rintro h c hc
      apply h
      rw [htext]
      exact List.mem_append_left _ (List.mem_append_right _ (List.mem_of_mem_filter hc))
    · rintro h c hc
      rcases escapeChar_cases c with hsame | ⟨hspace, hcontrol, -⟩
      · exact hsame
      · apply h
        rw [htext, List.mem_append, List.mem_append] at hc
        rcases hc with (hc | hc) | hc
        · exact absurd (hbefore c hc) (by simp [hspace])
        · exact List.mem_filter.mpr ⟨hc, by simp [hcontrol]⟩
        · exact absurd (hafter c hc) (by simp [hspace])
  rw [bare_filter_trim_iff hne, bare_reverse_filter_trim_iff hne, ← hplain]
  constructor
  · rintro ⟨hplain, hstart, hfinish⟩
    exact ⟨hplain, hstart, hfinish⟩
  · rintro ⟨hplain, hstart, hfinish⟩
    exact ⟨hplain, hstart, hfinish⟩

/-- Cleaning a message again changes nothing exactly when the text was steady. -/
theorem ChatService.cleaned_again_iff (h : cleaned maxLength text = some t) :
    cleaned maxLength t = some t ↔ Steady text := by
  obtain ⟨msg, hmsg, hne, hlength, rfl⟩ := cleaned_eq_some.mp h
  rw [steady_iff hmsg hne, cleaned_eq_some]
  set e := msg.flatMap escapeChar with he
  have hvisible : ∀ c ∈ msg, isControl c = false := by
    rintro c hc
    rw [hmsg] at hc
    simpa using (List.mem_filter.mp hc).2
  have hstrip : ((trim isSpace (escapeString msg).toList).filter fun c => !isControl c) =
      trim isSpace e := by
    rw [escapeString, String.toList_ofList, List.filter_eq_self]
    rintro c hc
    obtain ⟨before, after, hsplit, -⟩ := exists_trimmed isSpace e
    have hmem : c ∈ e := hsplit ▸ List.mem_append_left _ (List.mem_append_right _ hc)
    simp [not_isControl_of_escaped hvisible c hmem]
  rw [hstrip]
  constructor
  · rintro ⟨again, rfl, -, -, heq⟩
    obtain ⟨-, -, -, -, -, hstart, hend⟩ := exists_trimmed isSpace e
    have hescaped : e = (trim isSpace e).flatMap escapeChar := String.ofList_injective heq
    have htrim : trim isSpace e = e := by
      apply trim_eq_self_iff.mpr
      rw [hescaped]
      exact ⟨bare_escaped hstart, bare_escaped_reverse hend⟩
    rw [htrim] at hescaped hstart hend
    have hplain : ∀ c ∈ msg, escapeChar c = [c] := by
      rintro c hc
      rcases escapeChar_cases c with hsame | ⟨-, -, name, hname, -⟩
      · exact hsame
      · -- the ampersand that is written would be escaped in turn
        have hmem : '&' ∈ e := List.mem_flatMap.mpr ⟨c, hc, hname ▸ List.mem_cons_self⟩
        exact absurd (flatMap_escapeChar_eq_self_iff.mp hescaped.symm '&' hmem) (by decide)
    rw [he, flatMap_escapeChar_eq_self_iff.mpr hplain] at hstart hend
    exact ⟨hplain, hstart, hend⟩
  · rintro ⟨hplain, hstart, hend⟩
    have hsame : e = msg := flatMap_escapeChar_eq_self_iff.mpr hplain
    refine ⟨msg, ?_, hne, hlength, rfl⟩
    rw [hsame, trim_eq_self_iff.mpr ⟨hstart, hend⟩]

end Cleaned

theorem published_pair {conn : Connection} {allowed : Bool} {frame : Json}
    {first second : String × Event}
    (h : (conn.readMessage allowed frame).published = [first, second]) :
    ∃ event v, eventCodec.unmarshal frame = some event ∧ sanitize conn event.payload = some v ∧
      first = ("chat:save", ⟨Connection.topicOf event, "chat:new", v⟩) ∧
      second = (Connection.topicOf event, { event with payload := v }) := by
  have hpublishes := conn.publishes_readMessage allowed frame
  rw [h] at hpublishes
  cases hpublishes with
  | chat hevent _ _ hv => exact ⟨_, _, hevent, hv, rfl, rfl⟩

/-- The worker keeps the text that the clients were sent exactly when the text of the message
was steady. -/
theorem kept_text_is_broadcast_iff (parse : String → Option Time) (now : Time) {conn : Connection}
    {allowed : Bool} {frame : Json} {topic : String} {room : ChatRoom}
    {event save broadcast : Event} {p q : ChatPayload}
    (hpublished : (conn.readMessage allowed frame).published =
      [("chat:save", save), (topic, broadcast)])
    (hroom : ChatRoom.ofTopic topic = some room)
    (hevent : eventCodec.unmarshal frame = some event)
    (hp : chatPayloadCodec.unmarshal event.payload = some p)
    (hq : chatPayloadCodec.unmarshal broadcast.payload = some q) :
    (∃ row, ChatService.persistenceWorker parse now save = some row ∧ row.room = room ∧
      row.message = q.message) ↔ Steady p.message := by
  obtain ⟨event', v, hevent', hv, hsave, hbroadcast⟩ := published_pair hpublished
  obtain rfl := Option.some.inj (hevent.symm.trans hevent')
  obtain ⟨p', text, hp', htext, rfl⟩ := sanitize_eq_some.mp hv
  obtain rfl := Option.some.inj (hp.symm.trans hp')
  cases hsave
  cases hbroadcast
  rw [chatPayloadCodec_lawful.unmarshal_marshal] at hq
  obtain rfl := Option.some.inj hq
  rw [← ChatService.cleaned_again_iff htext]
  constructor
  · rintro ⟨row, hrow, -, hsame⟩
    obtain ⟨r, again, room', hr, hagain, -, rfl⟩ := ChatService.persistenceWorker_eq_some.mp hrow
    rw [chatPayloadCodec_lawful.unmarshal_marshal] at hr
    obtain rfl := Option.some.inj hr
    obtain rfl : again = text := hsame
    exact hagain
  · rintro hagain
    exact ⟨_, ChatService.persistenceWorker_eq_some.mpr
      ⟨_, text, room, chatPayloadCodec_lawful.unmarshal_marshal _, hagain, hroom, rfl⟩, rfl, rfl⟩

theorem kept_text_is_broadcast_iff_greeting : ∃ row,
    ChatService.persistenceWorker (fun _ => none) 0 ⟨"chat:global", "chat:new",
      chatPayloadCodec.marshal ⟨1, "ann", "hi", ""⟩⟩ = some row ∧ row.room = .global ∧
        row.message = "hi" := by
  have hread : Chat.ann.readMessage true (Chat.posing " hi ") = _ :=
    Chat.readMessage_posing (t := "hi") (by decide)
  have hroom : ChatRoom.ofTopic "chat:global" = some .global := by decide
  have hiff := kept_text_is_broadcast_iff (fun _ => none) 0 (congrArg Handled.published hread)
    hroom (eventCodec_lawful.unmarshal_marshal _)
    (chatPayloadCodec_lawful.unmarshal_marshal _) (chatPayloadCodec_lawful.unmarshal_marshal _)
  exact hiff.mpr ⟨by simp [escapeChar], by decide, by decide⟩

/-- The ampersand of a message is escaped for the clients once, and twice in what is kept. -/
theorem ampersand_is_escaped_twice : ∃ save broadcast q row,
    (Chat.ann.readMessage true (Chat.posing "a & b")).published =
      [("chat:save", save), ("chat:global", broadcast)] ∧
    chatPayloadCodec.unmarshal broadcast.payload = some q ∧ q.message = "a &amp; b" ∧
    ChatService.persistenceWorker (fun _ => none) 0 save = some row ∧
    row.message = "a &amp;amp; b" := by
  have hread : Chat.ann.readMessage true (Chat.posing "a & b") = _ :=
    Chat.readMessage_posing (t := "a &amp; b") (by decide)
  refine ⟨_, _, _, ⟨1, "a &amp;amp; b", 0, .global⟩, congrArg Handled.published hread,
    chatPayloadCodec_lawful.unmarshal_marshal _, rfl, ?_, rfl⟩
  exact ChatService.persistenceWorker_eq_some.mpr ⟨_, "a &amp;amp; b", .global,
    chatPayloadCodec_lawful.unmarshal_marshal _, by decide, by decide, rfl⟩

def entities : List (Char × List Char) :=
  [(.ofNat 0x22, "&#34;".toList), (.ofNat 0x26, "&amp;".toList), (.ofNat 0x27, "&#39;".toList),
    (.ofNat 0x3C, "&lt;".toList), (.ofNat 0x3E, "&gt;".toList)]

/-- A character is kept if it needs no escape, and else its entity is written. -/
theorem escapeChar_entity (c : Char) :
    escapeChar c = [c] ∧ c.toNat ∉ [0x22, 0x26, 0x27, 0x3C, 0x3E] ∨
    (c, escapeChar c) ∈ entities := by
  have hchar {n : ℕ} (h : c.toNat = n) : c = .ofNat n := by rw [← h, Char.ofNat_toNat]
  unfold escapeChar
  split
  case h_1 h => exact .inr (by simp [entities, hchar h])
  case h_2 h => exact .inr (by simp [entities, hchar h])
  case h_3 h => exact .inr (by simp [entities, hchar h])
  case h_4 h => exact .inr (by simp [entities, hchar h])
  case h_5 h => exact .inr (by simp [entities, hchar h])
  case h_6 h₁ h₂ h₃ h₄ h₅ => exact .inl ⟨rfl, by simp_all⟩

/-- No character of markup is left, and each ampersand starts an entity. -/
structure Escaped (text : List Char) : Prop where
  plain : ∀ c ∈ text, c.toNat ∉ [0x22, 0x27, 0x3C, 0x3E]
  entity : ∀ before after, text = before ++ '&' :: after →
    ∃ e ∈ entities, e.2 <+: '&' :: after

/-- An entity has its only ampersand at its start, and no character of markup. -/
theorem entity_spec {e : Char × List Char} (he : e ∈ entities) :
    ∃ name, e.2 = '&' :: name ∧ '&' ∉ name ∧
      ∀ c ∈ e.2, c.toNat ∉ [0x22, 0x27, 0x3C, 0x3E] := by
  have hall : (entities.all fun e => e.2 = '&' :: e.2.tail ∧ '&' ∉ e.2.tail ∧
      e.2.all fun c => c.toNat ∉ [0x22, 0x27, 0x3C, 0x3E]) = true := by
    decide
  have hentity := List.all_eq_true.mp hall e he
  simp only [decide_eq_true_eq, List.all_eq_true] at hentity
  exact ⟨_, hentity⟩

theorem escaped_append {c : Char} {text : List Char} (h : Escaped text) :
    Escaped (escapeChar c ++ text) := by
  constructor
  · intro d hd
    rcases List.mem_append.mp hd with hd | hd
    · rcases escapeChar_entity c with ⟨hc, hplain⟩ | hentity
      · rw [hc, List.mem_singleton] at hd
        subst hd
        simp only [List.mem_cons, not_or] at hplain ⊢
        tauto
      · obtain ⟨name, -, -, hmarkup⟩ := entity_spec hentity
        exact hmarkup d hd
    · exact h.plain d hd
  · intro before after hsplit
    rcases List.append_eq_append_iff.mp hsplit with ⟨rest, rfl, htext⟩ | ⟨rest, hc, hafter⟩
    · exact h.entity rest after htext
    · cases rest with
      | nil => exact h.entity [] after hafter.symm
      | cons d rest =>
        obtain ⟨rfl, hrest⟩ := List.cons.inj hafter
        rcases escapeChar_entity c with ⟨hsame, hplain⟩ | hentity
        · have hmem : '&' ∈ escapeChar c := hc ▸ List.mem_append_right _ List.mem_cons_self
          rw [hsame, List.mem_singleton] at hmem
          exact absurd (hmem ▸ hplain) (by decide)
        · obtain ⟨name, hname, hone, -⟩ := entity_spec hentity
          cases before with
          | nil => 
            refine ⟨_, hentity, ?_⟩
            rw [hafter, hc]
            exact List.prefix_append _ _
          | cons d before =>
            rw [hc] at hname
            obtain ⟨-, hname⟩ := List.cons.inj hname
            exact absurd (hname ▸ List.mem_append_right _ List.mem_cons_self) hone

theorem escaped_flatMap (msg : List Char) : Escaped (msg.flatMap escapeChar) := by
  induction msg with
  | nil => exact ⟨by simp, by simp⟩
  | cons c msg ih =>
    rw [List.flatMap_cons]
    exact escaped_append ih

theorem escapeChar_ne_nil (c : Char) : escapeChar c ≠ [] := by
  rcases escapeChar_cases c with hc | ⟨-, -, name, hc, -⟩ <;> simp [hc]

/-- What comes first in an escaped text tells the first character of the text. -/
theorem escapeChar_append_inj {c d : Char} {text text' : List Char}
    (h : escapeChar c ++ text = escapeChar d ++ text') : c = d ∧ text = text' := by
  have hentities : ∀ e ∈ entities, ∀ e' ∈ entities, (e.2 <+: e'.2 ∨ e'.2 <+: e.2) → e.1 = e'.1 := by
    decide
  have hmixed {c d : Char} {text text' : List Char} (hc : escapeChar c = [c])
      (hplain : c.toNat ∉ [0x22, 0x26, 0x27, 0x3C, 0x3E]) (hd : (d, escapeChar d) ∈ entities) :
      escapeChar c ++ text ≠ escapeChar d ++ text' := by
    obtain ⟨name, hname, -⟩ := entity_spec hd
    dsimp only at hname
    rw [hc, hname]
    rintro h
    obtain ⟨rfl, -⟩ := List.cons.inj h
    exact hplain (by decide)
  have hsame : c = d := by
    rcases escapeChar_entity c with ⟨hc, hplain⟩ | hc
    · rcases escapeChar_entity d with ⟨hd, -⟩ | hd
      · rw [hc, hd] at h
        exact (List.cons.inj h).1
      · exact absurd h (hmixed hc hplain hd)
    · rcases escapeChar_entity d with ⟨hd, hplain⟩ | hd
      · exact absurd h.symm (hmixed hd hplain hc)
      · apply hentities _ hc _ hd
        rcases List.append_eq_append_iff.mp h with ⟨rest, hrest, -⟩ | ⟨rest, hrest, -⟩
        · exact .inl ⟨rest, hrest.symm⟩
        · exact .inr ⟨rest, hrest.symm⟩
  subst hsame
  exact ⟨rfl, List.append_cancel_left h⟩

theorem flatMap_escapeChar_injective :
    Function.Injective fun msg : List Char => msg.flatMap escapeChar := by
  intro msg msg' h
  induction msg generalizing msg' with
  | nil =>
    cases msg' with
    | nil => rfl
    | cons d msg' => simp [escapeChar_ne_nil] at h
  | cons c msg ih =>
    cases msg' with
    | nil => simp [escapeChar_ne_nil] at h
    | cons d msg' =>
      obtain ⟨rfl, hrest⟩ := escapeChar_append_inj h
      rw [ih hrest]

/-- The text before it is escaped can be shown as it is: it is not blank, it has no white space at
either end, no control characters, and no more characters than are allowed. -/
structure Presentable (msg : List Char) : Prop where
  visible : ∃ c ∈ msg, isSpace c = false
  start : Bare isSpace msg
  finish : Bare isSpace msg.reverse
  plain : ∀ c ∈ msg, isControl c = false
  short : msg.length ≤ maxChatMessageLength

/-- At neither end control characters stand between white space and white space. -/
def Exposed (text : String) : Prop :=
  Bare isSpace ((text.toList.dropWhile isSpace).dropWhile isControl) ∧
    Bare isSpace ((text.toList.reverse.dropWhile isSpace).dropWhile isControl)

instance (text : String) : Decidable (Exposed text) := inferInstanceAs (Decidable (_ ∧ _))

/-- Of a message that passes, the text before escaping is presentable when its text was exposed. -/
theorem presentable_iff {text : String} {msg : List Char}
    (hmsg : msg = (trim isSpace text.toList).filter fun c => !isControl c) (hne : msg ≠ [])
    (hlength : msg.length ≤ maxChatMessageLength) : Presentable msg ↔ Exposed text := by
  subst hmsg
  rw [Exposed, ← bare_filter_trim_iff hne, ← bare_reverse_filter_trim_iff hne]
  constructor
  · rintro h
    exact ⟨h.start, h.finish⟩
  · rintro ⟨hstart, hfinish⟩
    obtain ⟨c, rest, hc⟩ := List.exists_cons_of_ne_nil hne
    refine ⟨⟨c, hc ▸ List.mem_cons_self, hstart c (by rw [hc]; rfl)⟩, hstart, hfinish, ?_, hlength⟩
    intro d hd
    simpa using (List.mem_filter.mp hd).2

/-- A chat message that is broadcast is an escaped text without markup. The text before escaping is
presentable exactly when the message that came in was exposed. -/
theorem broadcast_is_presentable_iff {conn : Connection} {allowed : Bool} {frame : Json}
    {topic : String} {event save broadcast : Event} {p q : ChatPayload}
    (hpublished : (conn.readMessage allowed frame).published =
      [("chat:save", save), (topic, broadcast)])
    (hevent : eventCodec.unmarshal frame = some event)
    (hp : chatPayloadCodec.unmarshal event.payload = some p)
    (hq : chatPayloadCodec.unmarshal broadcast.payload = some q) :
    (∃ msg, q.message = escapeString msg ∧ Presentable msg ∧ Escaped q.message.toList) ↔
      Exposed p.message := by
  obtain ⟨event', v, hevent', hv, hsave, hbroadcast⟩ := published_pair hpublished
  obtain rfl := Option.some.inj (hevent.symm.trans hevent')
  obtain ⟨p', text, hp', htext, rfl⟩ := sanitize_eq_some.mp hv
  obtain rfl := Option.some.inj (hp.symm.trans hp')
  cases hbroadcast
  rw [chatPayloadCodec_lawful.unmarshal_marshal] at hq
  obtain rfl := Option.some.inj hq
  obtain ⟨msg, hmsg, hne, hlength, rfl⟩ := ChatService.cleaned_eq_some.mp htext
  rw [← presentable_iff hmsg hne hlength]
  constructor
  · rintro ⟨msg', hsame, h, -⟩
    obtain rfl : msg = msg' := flatMap_escapeChar_injective (String.ofList_injective hsame)
    exact h
  · rintro h
    refine ⟨msg, rfl, h, ?_⟩
    rw [escapeString, String.toList_ofList]
    exact escaped_flatMap msg

theorem broadcast_is_presentable_iff_greeting :
    ∃ msg, "hi" = escapeString msg ∧ Presentable msg ∧ Escaped "hi".toList := by
  have hread : Chat.ann.readMessage true (Chat.posing " hi ") = _ :=
    Chat.readMessage_posing (t := "hi") (by decide)
  have hiff := broadcast_is_presentable_iff (congrArg Handled.published hread)
    (eventCodec_lawful.unmarshal_marshal _) (chatPayloadCodec_lawful.unmarshal_marshal _)
    (chatPayloadCodec_lawful.unmarshal_marshal _)
  exact hiff.mpr (by decide)

/-- Two control characters around a blank are stripped, and the blank is broadcast. -/
theorem blank_is_broadcast : ∃ save broadcast q,
    (Chat.ann.readMessage true (Chat.posing "\x01 \x01")).published =
      [("chat:save", save), ("chat:global", broadcast)] ∧
    chatPayloadCodec.unmarshal broadcast.payload = some q ∧ q.message = " " ∧
    ¬ ∃ msg, q.message = escapeString msg ∧ Presentable msg := by
  have hread : Chat.ann.readMessage true (Chat.posing "\x01 \x01") = _ :=
    Chat.readMessage_posing (t := " ") (by decide)
  refine ⟨_, _, _, congrArg Handled.published hread, chatPayloadCodec_lawful.unmarshal_marshal _,
    rfl, ?_⟩
  rintro ⟨msg, hsame, h⟩
  obtain rfl : [' '] = msg := flatMap_escapeChar_injective (String.ofList_injective hsame)
  exact absurd h.start (by decide)

end DotsAndBoxes
