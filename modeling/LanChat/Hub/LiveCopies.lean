import LanChat.Hub.Retries

/-!
# The copies that the Hub sends of one message

A relayed attempt sends copies of its message and then notices.  A copy shows the key of the attempt,
and a copy of a private chat goes to one of its two users.

* `live_relayChat`, `live_relayPrivate`, `live_savePrivateOffline`: what a relay sends is a copy, or
  no live message;
* `step_copies`: every chat and private chat that an event sends is a copy of its relayed attempt.
-/

namespace LanChat

namespace Hub

open GoStrings Registry ChatStore EventMachine

variable {h k : Hub}

/-! ### Relays -/

/-- A relayed chat goes to connected members of the room. -/
theorem live_relayChat {env : Env} {sender : Option ClientID} {room : String} {tracking : Bool}
    {message : Message} {x : ClientID × Message}
    (hx : x ∈ sentBetween h (h.relayChat env sender room tracking message))
    (hlive : x.2.type ∈ liveTypes) :
    x.2 = wireMessage tracking message ∧ x.1 ∈ h.registry.clients ∧
      x.1 ∈ h.registry.roomClients room := by
  obtain ⟨live, rest, hrelay⟩ := chatRelay (h := h) env sender room tracking message
  have hmem := (mem_sentBetween_iff (by rw [hrelay.sent, List.append_assoc])).1 hx
  rcases List.mem_append.1 hmem with hin | hin
  · exact ⟨hrelay.wire x hin, hrelay.member x hin⟩
  · exfalso
    cases hrelay.tail with
    | silent hdb hout =>
      rw [hout] at hin
      cases hin
    | sent c htracking hdb hout =>
      rw [List.mem_singleton.1 (hout.subset hin)] at hlive
      exact receipt_not_live _ _ hlive
    | unmarked hdb hout => exact not_live_of_error (hout x hin) hlive
    | delivered c htracking l hmark hdb hout =>
      rw [List.mem_singleton.1 (hout.subset hin)] at hlive
      exact receipt_not_live _ _ hlive

/-- A private chat to an online target goes to both. -/
theorem live_relayPrivate {env : Env} {c t : ClientID} {obj : Client} {target : String}
    {tracking : Bool} {message : Message} (hc : c ∈ h.registry.clients)
    (htc : t ∈ h.registry.clients) (hct : c ≠ t) {x : ClientID × Message}
    (hx : x ∈ sentBetween h (h.relayPrivate env c obj t target tracking message))
    (hlive : x.2.type ∈ liveTypes) :
    x = (c, wireMessage tracking message) ∨ x = (t, wireMessage tracking message) := by
  have hcopy : ∀ out rest : List (ClientID × Message),
      (h.relayPrivate env c obj t target tracking message).registry.sent =
        h.registry.sent ++ (out ++ rest) →
      (∀ y ∈ rest, y.2.type ∉ liveTypes) → x ∈ out := by
    intro out rest hsent hrest
    rcases List.mem_append.1 ((mem_sentBetween_iff hsent).1 hx) with hin | hin
    · exact hin
    · exact absurd hlive (hrest x hin)
  cases privateRelay (h := h) env obj target tracking message hc htc hct with
  | echoFull hspace hdb hsent =>
    have hin := hcopy [] [] (by rw [hsent, List.append_nil, List.append_nil]) (by simp)
    cases hin
  | targetFull hspace htfull hdb out hsent hout =>
    have hin := hcopy [_] _ hsent (not_live_of_sublist_receipt hout)
    exact .inl (List.mem_singleton.1 hin)
  | unmarked hspace htspace hdb out hsent hout =>
    have hin := hcopy [_, _] _ hsent fun y hy => not_live_of_error (hout y hy)
    exact (List.mem_cons.1 hin).imp_right List.mem_singleton.1
  | delivered hspace htspace l hmark hdb out hsent hout =>
    have hin := hcopy [_, _] _ hsent (not_live_of_sublist_receipt hout)
    exact (List.mem_cons.1 hin).imp_right List.mem_singleton.1

/-- A private chat to a target that is not online is echoed to its sender. -/
theorem live_savePrivateOffline {env : Env} {c : ClientID} {obj : Client} {target : String}
    {tracking : Bool} {message : Message}
    (hcontent : validateTextContent "private chat" message.content = .ok ())
    {x : ClientID × Message}
    (hx : x ∈ sentBetween h (h.savePrivateOffline env c obj target tracking message))
    (hlive : x.2.type ∈ liveTypes) : x = (c, wireMessage tracking message) := by
  have herrors : ∀ {out : List (ClientID × Message)},
      (h.savePrivateOffline env c obj target tracking message).registry.sent =
        h.registry.sent ++ out → ¬ ∀ y ∈ out, y.2.type = .error := fun hsent hout =>
    not_live_of_error (hout x ((mem_sentBetween_iff hsent).1 hx)) hlive
  cases offlineRelay (h := h) env c obj target tracking hcontent with
  | unknown hknown hdb hrecords out hsent hout => exact absurd hout (herrors hsent)
  | unsaved hknown htaken hdb hrecords out hsent hout => exact absurd hout (herrors hsent)
  | queued hknown s hqueued hdb hrecords out hsent hout =>
    have hout := hout.resolve_left (herrors hsent)
    rcases List.mem_append.1 (hout.subset ((mem_sentBetween_iff hsent).1 hx)) with hin | hin
    · rcases List.mem_cons.1 hin with rfl | hin
      · rfl
      · rw [List.mem_singleton.1 hin] at hlive
        exact absurd hlive (by decide : MessageType.system ∉ liveTypes)
    · exact absurd hlive (not_live_of_sublist_receipt (List.Sublist.refl _) x hin)

/-! ### Copies -/

/-- A copy of the attempt's message: it has the key of the attempt, and a private chat goes to its
sender or its target. -/
structure Copy (h : Hub) (a : Attempt) (x : ClientID × Message) : Prop where
  key : liveKey x.2 = some (a.key h)
  room : x.2.type = .chat → x.2.room ≠ ""
  addressed : x.2.type = .privateChat → ∃ code, h.registry.codeOf x.1 = some code ∧ code ≠ "" ∧
    (code = asciiLower x.2.userCode ∨ code = asciiLower x.2.targetUserCode)

/-- The code of the sender is valid. -/
theorem Attempt.Valid.code {a : Attempt} (hv : a.Valid h) :
    validateUserCode (a.key h).1 = .ok () := by
  have hnormal : ∀ {obj : Client}, ValidClient obj →
      validateUserCode obj.normalizedCode = .ok () :=
    fun hobj => (normalizeUserCode_eq_ok.1 (normalizeUserCode_idem hobj.code)).1
  cases hv with
  | @chat tracking message obj hobj ht hid hcode =>
    change validateUserCode (asciiLower message.userCode) = .ok ()
    rw [hcode, ← (normalizeUserCode_eq_ok.1 hobj.code).2]
    exact hnormal hobj
  | privateChat hc hobj hvalid => exact hnormal hvalid

/-- A live message starts its key with the code that it carries. -/
theorem code_of_liveKey {x : Message} {key : MessageKey} (hkey : liveKey x = some key) :
    key.1 = asciiLower x.userCode := by
  unfold liveKey at hkey
  split at hkey
  · exact congrArg Prod.fst (Option.some_injective _ hkey).symm
  · exact congrArg Prod.fst (Option.some_injective _ hkey).symm
  · exact congrArg Prod.fst (Option.some_injective _ hkey).symm
  · cases hkey

/-- A copy carries the code of the sender. -/
theorem Copy.sender {a : Attempt} {x : ClientID × Message} (hc : Copy h a x) (hv : a.Valid h) :
    validateUserCode x.2.userCode = .ok () := by
  refine validateUserCode_of_asciiLower ?_
  rw [← code_of_liveKey hc.key]
  exact hv.code

theorem wireMessage_room (tracking : Bool) (message : Message) :
    (wireMessage tracking message).room = message.room ∧
      (wireMessage tracking message).targetUserCode = message.targetUserCode := by
  unfold wireMessage
  split_ifs
  · exact ⟨rfl, rfl⟩
  · exact ⟨rfl, rfl⟩

/-- The code of a client object is valid. -/
theorem code_of_codeOf {r : Registry} (hs : Sound r) {c : ClientID} {code : String}
    (hc : r.codeOf c = some code) : validateUserCode code = .ok () := by
  unfold codeOf at hc
  obtain ⟨obj, hobj, rfl⟩ := Option.map_eq_some_iff.1 hc
  exact (normalizeUserCode_eq_ok.1
    (normalizeUserCode_idem (hs.valid obj (client?_mem hobj)).code)).1

theorem codeOf_ne_empty {r : Registry} (hs : Sound r) {c : ClientID} {code : String}
    (hc : r.codeOf c = some code) : code ≠ "" := by
  rintro rfl
  cases code_of_codeOf hs hc

/-- What the relay of a stored attempt sends is a copy of it. -/
theorem copy_relay (platform : Platform) (hs : Sound h.registry) (hstore : h.offlineStore = true)
    (env : Env) {a : Attempt} (hv : a.Valid h) (hsender : a.sender h ≠ none) {s : ChatStore}
    {x : ClientID × Message} (hx : x ∈ sentBetween h (a.relay platform env (h.withChat s)))
    (hlive : x.2.type ∈ liveTypes) : Copy h a x := by
  cases hv with
  | @chat tracking message obj hobj ht hid hcode m hmt hm hcontent hcrypto =>
    obtain ⟨c, hc⟩ := Option.ne_none_iff_exists'.1 hsender
    have hof : h.senderOf message.userCode = some c := hc
    have hactive : h.registry.active? obj.normalizedCode = some c := by
      unfold senderOf at hof
      rw [hcode, hobj.code] at hof
      exact hof
    obtain ⟨-, o, ho, -⟩ := hs.active _ _ hactive
    have hroom : h.senderRoom (h.senderOf message.userCode) ≠ "" := by
      simp only [hof, senderRoom, Option.bind_some, ho]
      exact room_ne_empty (hs.valid o (client?_mem ho)).room
    rw [relay_withChat platform env tracking message s hstore] at hx
    have hwire := (live_relayChat (h := h.withChat s) hx hlive).1
    have hfields := wireMessage_fields tracking (Attempt.stored platform env h (.chat tracking message))
    have hin := (wireMessage_room tracking (Attempt.stored platform env h (.chat tracking message))).1
    rw [← hwire] at hfields hin
    refine ⟨?_, fun _ => ?_, fun hp => ?_⟩
    · unfold liveKey
      rw [hfields.1.trans ht, hfields.2.1, hfields.2.2, hin]
      rfl
    · rw [hin]
      exact hroom
    · rw [hfields.1.trans ht] at hp
      cases hp
  | @privateChat c obj target tracking message hc hobj hvalid htarget hne ht hid hcode hto
      hcontent hcrypto hstate =>
    have hlower : asciiLower target = target := ((normalizeUserCode_eq_ok.1 htarget).2).symm
    have hown : obj.normalizedCode = asciiLower message.userCode := by
      rw [hcode]
      exact (normalizeUserCode_eq_ok.1 hvalid.code).2
    have hsession : h.registry.codeOf c = some obj.normalizedCode := by
      unfold codeOf
      rw [hobj]
      rfl
    have hcopy : ∀ {q : Message} {d : ClientID} {code : String}, q.type = .privateChat →
        q.userCode = message.userCode → asciiLower q.targetUserCode = target →
        q.messageID = message.messageID → h.registry.codeOf d = some code →
        (code = obj.normalizedCode ∨ code = target) →
        Copy h (.privateChat c obj target tracking message) (d, wireMessage tracking q) := by
      intro q d code hqt hqcode hqto hqid hd hwho
      have hfields := wireMessage_fields tracking q
      have hqtarget := (wireMessage_room tracking q).2
      refine ⟨?_, fun hchat => ?_, fun _ => ⟨code, hd, codeOf_ne_empty hs hd, ?_⟩⟩
      · have hkey := liveKey_private tracking hqt hqto
        rw [hqcode, hqid, ← hown] at hkey
        exact hkey
      · rw [hfields.1.trans hqt] at hchat
        cases hchat
      · rw [hfields.2.1, hqtarget, hqcode, hqto, ← hown]
        exact hwho
    change x ∈ sentBetween h
      ((h.withChat s).routePrivate env c obj target tracking message) at hx
    unfold routePrivate at hx
    split at hx
    · rw [live_savePrivateOffline (h := h.withChat s) hcontent hx hlive]
      exact hcopy ht rfl (by rw [hto, hlower]) rfl hsession (.inl rfl)
    · rename_i t hactive
      obtain ⟨htc, o, hto', hocode⟩ := hs.active target t hactive
      have htcode : h.registry.codeOf t = some target := by
        unfold codeOf
        rw [hto', ← hocode]
        rfl
      have hspelling : asciiLower (((h.withChat s).registry.client? t).elim message.targetUserCode
          Client.userCode) = target := by
        have hclient : (h.withChat s).registry.client? t = some o := hto'
        rw [hclient, Option.elim_some, ← hocode]
        exact ((normalizeUserCode_eq_ok.1 (hs.valid o (client?_mem hto')).code).2).symm
      rcases live_relayPrivate (h := h.withChat s) hc htc (ne_of_active hs hobj hne hactive) hx
        hlive with rfl | rfl
      · exact hcopy ht rfl hspelling rfl hsession (.inl rfl)
      · exact hcopy ht rfl hspelling rfl htcode (.inr rfl)

/-- Whatever becomes of an attempt, the live messages that go out are copies of it. -/
theorem Outcome.copy {platform : Platform} {env : Env} {a : Attempt} (hs : Sound h.registry)
    (hstore : h.offlineStore = true) (hv : a.Valid h) (ho : Outcome platform env h a k)
    {x : ClientID × Message} (hx : x ∈ sentBetween h k) (hlive : x.2.type ∈ liveTypes) :
    Copy h a x := by
  have hquiet : ∀ {types : List MessageType} {s : ChatStore},
      Touches [] types (h.withChat s) k → (∀ t ∈ types, t ∉ liveTypes) → Copy h a x := by
    intro types s htouch htypes
    exact absurd hlive (htypes _ (mem_sentBetween (h := h.withChat s) htouch.moves.emits hx))
  cases ho with
  | unstored hopen =>
    rw [hstore] at hopen
    cases hopen
  | refused _ hk => exact hquiet (s := h.db.chat) hk (by decide)
  | retried _ row hrow hkey hk =>
    rw [hk] at hx
    rcases sent_answerRetry hx with herror | ⟨-, -, row, -, hreceipt⟩
    · exact absurd hlive (not_live_of_error herror)
    · rw [hreceipt] at hlive
      exact absurd hlive (receipt_not_live _ _)
  | unpruned _ hfails hprune s hsender hsaved hk => exact hquiet hk (by decide)
  | relayed _ hfails hprune s hsender hsaved hk =>
    rw [hk] at hx
    exact copy_relay platform hs hstore env hv hsender hx hlive

/-- Every event makes no attempt, or every live message that it sends is a copy of its attempt. -/
theorem copy_step (platform : Platform) (hs : Sound h.registry) (hstore : h.offlineStore = true)
    (e : Event) :
    (attempt? platform h e = none ∧ Unpublished h (step platform h e)) ∨
      ∃ a, attempt? platform h e = some a ∧ a.Valid h ∧
        ∀ x ∈ sentBetween h (step platform h e), x.2.type ∈ liveTypes → Copy h a x := by
  rcases step_outcome platform hs e with hquiet | ⟨a, n, ha, hv, ho⟩
  · exact .inl hquiet
  · refine .inr ⟨a, ha, hv, fun x hx hlive => ?_⟩
    have hcopy := ho.copy (h := h.counted n) hs hstore (hv.congr rfl) hx hlive
    exact ⟨hcopy.key, hcopy.room, hcopy.addressed⟩

end Hub

end LanChat
