import LanChat.Hub.Finality
import LanChat.Hub.GeneratedID

/-!
# Attempts to send a message

A chat or private chat that passes the checks of its read pump and of the Hub is an attempt.  The
store then decides: it refuses the message, finds it already stored, or adds its row; a new row is
there before anybody looks for the target.

* `attempt?`: the attempt that an event makes;
* `step_attempt`: every event makes none and sends no chat, private chat or receipt, or publishes
  its attempt;
* `Outcome`: what becomes of an attempt;
* `Saved`: what is different once its row is stored.
-/

namespace LanChat

namespace Registry

variable {r r' : Registry} {walks : Prop} {types : List MessageType}

/-! ### Codes stay -/

/-- The code under which a client object was registered. -/
def codeOf (r : Registry) (c : ClientID) : Option String :=
  (r.client? c).map Client.normalizedCode

theorem codeOf_modifyClient {c d : ClientID} {f : Client → Client} {code : String}
    (hd : r.codeOf d = some code) (hf : ∀ o, (f o).normalizedCode = o.normalizedCode) :
    (r.modifyClient c f).codeOf d = some code := by
  unfold codeOf at hd ⊢
  rw [client?_modifyClient]
  split_ifs
  · rw [Option.map_map, ← hd]
    exact congrArg (fun g => Option.map g (r.client? d)) (funext hf)
  · exact hd

theorem Fades.codeOf (h : Fades r r') (c : ClientID) : r'.codeOf c = r.codeOf c := by
  have hcode : ∀ x : Option Client, (x.map profile).map Client.normalizedCode =
      x.map Client.normalizedCode := fun x => by cases x <;> rfl
  unfold Registry.codeOf
  rw [← hcode, h.object c, hcode]

/-- A client object keeps its code. -/
theorem Move.codeOf (h : Move walks types r r') {c : ClientID} {code : String}
    (hc : r.codeOf c = some code) : r'.codeOf c = some code := by
  cases h with
  | deliver d m hm => rwa [(fades_deliver d m).codeOf c]
  | remove d => rwa [(fades_removeClient d).codeOf c]
  | close d => rwa [(fades_closeSend d).codeOf c]
  | go d room hw hd hroom =>
    unfold Registry.codeOf at hc ⊢
    rw [client?_moveTo]
    split_ifs
    · rw [Option.map_map]
      exact hc
    · exact hc
  | mute d => exact codeOf_modifyClient hc fun _ => rfl
  | pump d => exact codeOf_modifyClient hc fun _ => rfl
  | enroll obj =>
    unfold Registry.codeOf at hc ⊢
    obtain ⟨o, ho, rfl⟩ := Option.map_eq_some_iff.1 hc
    rw [client?_enroll, if_neg (Nat.ne_of_lt (client?_lt ho)), ho]
    rfl
  | dropRoom room hempty => exact hc
  | load d stage replay => exact codeOf_modifyClient hc fun _ => rfl
  | push d obj message rest hd hobj hm =>
    have hfirst : (r.modifyClient d fun o => { o with replay := rest }).codeOf c = some code :=
      codeOf_modifyClient hc fun _ => rfl
    exact codeOf_modifyClient hfirst fun _ => rfl

end Registry

namespace Hub

open GoStrings Registry ChatStore EventMachine

variable {h k : Hub}

theorem codeOf_step (platform : Platform) (hs : Sound h.registry) (e : Event) {c : ClientID}
    {code : String} (hc : h.registry.codeOf c = some code) :
    (step platform h e).registry.codeOf c = some code := by
  cases hlive : e.input.isRestart with
  | false =>
    exact (step_touches platform hs e hlive).moves.preserves
      (fun _ _ hmove hcode => hmove.codeOf hcode) hc
  | true =>
    obtain ⟨input, env⟩ := e
    cases input with
    | restart adminCode => exact hc
    | _ => cases hlive

/-! ### Attempts -/

/-- A chat or private chat on its way to the store. -/
inductive Attempt
  | chat (tracking : Bool) (message : Message)
  | privateChat (c : ClientID) (obj : Client) (target : String) (tracking : Bool)
      (message : Message)
  deriving DecidableEq

namespace Attempt

/-- The message as the sender wrote it, with its id. -/
def message : Attempt → Message
  | chat _ message => message
  | privateChat _ _ _ _ message => message

/-- The sender asked for a receipt. -/
def tracking : Attempt → Bool
  | chat tracking _ => tracking
  | privateChat _ _ _ tracking _ => tracking

/-- The session that is told about the attempt. -/
def sender (h : Hub) : Attempt → Option ClientID
  | chat _ message => h.senderOf message.userCode
  | privateChat c _ _ _ _ => some c

/-- The message as it is stored. -/
def stored (platform : Platform) (env : Env) (h : Hub) : Attempt → Message
  | chat _ message => storedChat platform env (h.senderRoom (h.senderOf message.userCode)) message
  | privateChat _ _ _ _ message => { message with isPrivate := true }

/-- What `chatMessageIdentity` finds for it. -/
def identity (h : Hub) : Attempt → ChatIdentity
  | chat _ message =>
    ⟨.room, h.senderRoom (h.senderOf message.userCode), asciiLower message.userCode, ""⟩
  | privateChat _ obj target _ _ =>
    ⟨.privateChat, privateConversationKey obj.normalizedCode target, obj.normalizedCode, target⟩

/-- The sender, the conversation and the message id. -/
def key (h : Hub) (a : Attempt) : String × String × String :=
  ((a.identity h).senderCode, (a.identity h).conversationKey, a.message.messageID)

/-- The row that would be added for it. -/
def row (platform : Platform) (env : Env) (h : Hub) (a : Attempt) : ChatRow :=
  chatRow (h.db.chat.lastID + 1) (a.identity h) (a.stored platform env h)

/-- `broadcastMessage` and `handlePrivateMessage` from where the message has its id. -/
def publish (platform : Platform) (env : Env) (h : Hub) : Attempt → Hub
  | chat tracking message => h.publishChat platform env tracking message
  | privateChat c obj target tracking message =>
    h.publishPrivate env c obj target tracking message

/-- Their second halves. -/
def relay (platform : Platform) (env : Env) (h : Hub) : Attempt → Hub
  | chat tracking message =>
    let sender := h.senderOf message.userCode
    let room := h.senderRoom sender
    h.relayChat env sender room tracking
      (if h.offlineStore then storedChat platform env room message else message)
  | privateChat c obj target tracking message =>
    h.routePrivate env c obj target tracking message

end Attempt

/-- The attempt that an event makes. -/
def attempt? (platform : Platform) (h : Hub) (e : Event) : Option Attempt :=
  match e.input with
  | .frame c m limited muted =>
    match h.registry.client? c with
    | none => none
    | some obj =>
      if !(h.alive c && obj.stage == .reading && obj.replay.isEmpty) ||
          decide (maxCommandIDSize < m.commandID.utf8ByteSize) || limited then none
      else match m.type with
        | .chat =>
          if muted || !(validateMessage m).isOk then none
          else some (.chat (deliveryTracking m.messageID)
            { m with
              username := obj.username, userCode := obj.userCode
              messageID := (h.assignMessageID m.messageID).1 })
        | .privateChat =>
          match normalizeUserCode m.targetUserCode with
          | .error _ => none
          | .ok target =>
            if !(validateTextContent "private chat" m.content).isOk ||
                !h.registry.isConnected c || target == obj.normalizedCode then none
            else some (.privateChat c obj target (deliveryTracking m.messageID)
              { type := .privateChat, messageID := (h.assignMessageID m.messageID).1
                username := obj.username, userCode := obj.userCode, targetUserCode := target
                content := m.content, deliveryState := "sent"
                createdAt := platform.rfc3339 e.env.now })
        | _ => none
  | _ => none

/-- What every attempt of a Hub has passed. -/
inductive Attempt.Valid (h : Hub) : Attempt → Prop
  | chat {tracking : Bool} {message : Message} (obj : Client) (hobj : ValidClient obj)
      (ht : message.type = .chat) (hid : message.messageID ≠ "")
      (hcode : message.userCode = obj.userCode) (m : Message) (hmt : m.type = .chat)
      (hm : validateMessage m = .ok ()) (hcontent : message.content = m.content)
      (hcrypto : message.crypto = m.crypto) : Valid h (.chat tracking message)
  | privateChat {c : ClientID} {obj : Client} {target : String} {tracking : Bool}
      {message : Message} (hc : c ∈ h.registry.clients) (hobj : h.registry.client? c = some obj)
      (hvalid : ValidClient obj) (htarget : normalizeUserCode target = .ok target)
      (hne : target ≠ obj.normalizedCode) (ht : message.type = .privateChat)
      (hid : message.messageID ≠ "") (hcode : message.userCode = obj.userCode)
      (hto : message.targetUserCode = target)
      (hcontent : validateTextContent "private chat" message.content = .ok ())
      (hcrypto : message.crypto = "") (hstate : message.deliveryState = "sent") :
      Valid h (.privateChat c obj target tracking message)

theorem attempt_valid {platform : Platform} {e : Event} {a : Attempt} (hs : Sound h.registry)
    (ha : attempt? platform h e = some a) : a.Valid h := by
  unfold attempt? at ha
  split at ha
  swap
  · cases ha
  rename_i c m limited muted hinput
  split at ha
  · cases ha
  rename_i obj hobj
  have hvalid := hs.valid obj (client?_mem hobj)
  split at ha
  · cases ha
  split at ha
  · rename_i ht
    split at ha
    · cases ha
    rename_i hok
    simp only [Bool.or_eq_true, Bool.not_eq_true', not_or, Bool.not_eq_false, isOk_iff] at hok
    obtain rfl := Option.some_injective _ ha
    exact .chat obj hvalid ht (assignMessageID_ne_empty _) rfl m ht hok.2 rfl rfl
  · split at ha
    · cases ha
    rename_i target htarget
    split at ha
    · cases ha
    rename_i hok
    simp only [Bool.or_eq_true, Bool.not_eq_true', not_or, Bool.not_eq_false, isOk_iff,
      beq_iff_eq] at hok
    obtain rfl := Option.some_injective _ ha
    exact .privateChat (isConnected_iff.1 hok.1.2) hobj hvalid (normalizeUserCode_idem htarget)
      hok.2 rfl (assignMessageID_ne_empty _) rfl rfl hok.1.1 rfl rfl
  · cases ha

/-- What an attempt has passed depends on the registry alone. -/
theorem Attempt.Valid.congr {a : Attempt} (hv : a.Valid h) (hreg : k.registry = h.registry) :
    a.Valid k := by
  cases hv with
  | chat obj hobj ht hid hcode m hmt hm hcontent hcrypto =>
    exact .chat obj hobj ht hid hcode m hmt hm hcontent hcrypto
  | privateChat hc hobj hvalid htarget hne ht hid hcode hto hcontent hcrypto hstate =>
    rw [← hreg] at hc hobj
    exact .privateChat hc hobj hvalid htarget hne ht hid hcode hto hcontent hcrypto hstate

/-! ### Events without an attempt -/

/-- Every row was there before, with the same delivery state. -/
def KeepsStates (s s' : ChatStore) : Prop :=
  ∀ row ∈ s'.messages.rows, ∃ base ∈ s.messages.rows,
    row.fixed = base.fixed ∧ row.deliveryState = base.deliveryState

theorem KeepsStates.of_eq {s s' : ChatStore} (heq : s'.messages = s.messages) :
    KeepsStates s s' := fun row hrow => ⟨row, heq ▸ hrow, rfl, rfl⟩

theorem KeepsStates.trans {s s' s'' : ChatStore} (hk : KeepsStates s s')
    (hk' : KeepsStates s' s'') : KeepsStates s s'' := by
  intro row hrow
  obtain ⟨mid, hmid, hfix, hstate⟩ := hk' row hrow
  obtain ⟨base, hbase, hfix', hstate'⟩ := hk mid hmid
  exact ⟨base, hbase, hfix.trans hfix', hstate.trans hstate'⟩

theorem keepsStates_removeOfflineCopy (env : Env) (record : MessageRecord) :
    KeepsStates h.db.chat (h.removeOfflineCopy env record).2.db.chat := by
  unfold removeOfflineCopy
  split
  · exact .of_eq rfl
  split
  · exact .of_eq rfl
  · rename_i chat hdelete
    obtain rfl := deleteOfflineMessage_eq_ok (call_eq_ok.1 hdelete).2
    exact .of_eq rfl

theorem keepsStates_persistRecall (env : Env) (messageID : String) (record : MessageRecord) :
    KeepsStates h.db.chat (h.persistRecall env messageID record).2.db.chat := by
  unfold persistRecall
  split
  · split
    · rename_i chat hmark
      have hmarked : KeepsStates h.db.chat chat := by
        obtain rfl := markMessageRecalled_eq_ok (call_eq_ok.1 hmark).2
        intro row hrow
        obtain ⟨base, hbase, rfl⟩ := List.mem_map.1 hrow
        refine ⟨base, hbase, ?_⟩
        split
        · exact ⟨rfl, rfl⟩
        · exact ⟨rfl, rfl⟩
      exact hmarked.trans
        (keepsStates_removeOfflineCopy (h := { h with db := { h.db with chat } }) env record)
    · exact keepsStates_removeOfflineCopy env record
    · exact .of_eq rfl
  · exact .of_eq rfl

theorem keepsStates_handleRecall (env : Env) (c : ClientID) (obj : Client)
    (messageID commandID : String) :
    KeepsStates h.db.chat (h.handleRecall env c obj messageID commandID).db.chat := by
  unfold handleRecall
  split
  · exact .of_eq rfl
  rename_i record hrecord
  split
  · exact .of_eq rfl
  split
  · exact .of_eq rfl
  split
  · exact .of_eq rfl
  have hkeeps := keepsStates_persistRecall (h := h) env messageID record
  split
  · rename_i hpersist
    rw [hpersist] at hkeeps
    exact hkeeps
  · rename_i hpersist
    rw [hpersist] at hkeeps
    exact hkeeps

theorem keepsStates_handleAdminAction (env : Env) (c : ClientID)
    (action targetCode messageID commandID : String) :
    KeepsStates h.db.chat
      (h.handleAdminAction env c action targetCode messageID commandID).db.chat := by
  have houtcome := adminOutcome_handleAdminAction h env c action targetCode messageID commandID
  generalize h.handleAdminAction env c action targetCode messageID commandID = k at houtcome ⊢
  cases houtcome with
  | unchanged => exact .of_eq rfl
  | refused content => exact .of_eq rfl
  | recalled obj => exact keepsStates_handleRecall env c obj messageID commandID
  | decision obj approved =>
    unfold handleDecision
    split
    · exact .of_eq rfl
    · exact .of_eq rfl
  | kick target o => exact .of_eq rfl
  | mute target o => exact .of_eq rfl

theorem keepsStates_replay (env : Env) (c : ClientID) :
    KeepsStates h.db.chat (h.replay env c).db.chat := by
  unfold replay
  split
  · exact .of_eq rfl
  split
  · split
    · exact .of_eq rfl
    split
    · exact .of_eq rfl
    · exact .of_eq rfl
  · split
    · dsimp only
      split
      · exact .of_eq rfl
      · exact .of_eq rfl
    · exact .of_eq rfl
    · exact .of_eq rfl
    · exact .of_eq rfl

/-- The types of what an attempt sends. -/
def publicationTypes : List MessageType := [.chat, .privateChat, .deliveryReceipt]

/-- No attempt was published. -/
structure Unpublished (h k : Hub) : Prop where
  rows : KeepsStates h.db.chat k.db.chat
  offline : ∀ row ∈ k.db.chat.offline.rows, row ∈ h.db.chat.offline.rows
  sent : Emits (fun x => x.2.type ∉ publicationTypes) h.registry k.registry

theorem Unpublished.of_touches {parts : List Part} {types : List MessageType}
    (a : Touches parts types h k) (hchat : .chat ∉ parts)
    (htypes : ∀ t ∈ types, t ∉ publicationTypes) : Unpublished h k := by
  have hsame : k.db.chat = h.db.chat := a.same .chat hchat
  refine ⟨.of_eq (by rw [hsame]), fun row hrow => ?_,
    a.moves.emits.mono fun x hx => htypes _ hx⟩
  rwa [hsame] at hrow

/-- A notice. -/
theorem Unpublished.quiet (a : Touches [] [.system, .error] h k) : Unpublished h k :=
  .of_touches a (by decide) (by decide)

/-- The Hub with another value of its message counter. -/
abbrev counted (h : Hub) (n : UInt64) : Hub := { h with nextMessageID := n }

theorem assignMessageID_counted (messageID : String) :
    ∃ n, (h.assignMessageID messageID).2 = h.counted n := by
  unfold assignMessageID
  split
  · exact ⟨_, rfl⟩
  · exact ⟨h.nextMessageID, rfl⟩

/-- A frame is answered with a notice, or it publishes its attempt. -/
def AttemptStep (platform : Platform) (h : Hub) (e : Event) (k : Hub) : Prop :=
  (attempt? platform h e = none ∧ Touches [] [.system, .error] h k) ∨
    ∃ a n, attempt? platform h e = some a ∧ k = a.publish platform e.env (h.counted n)

/-- The event makes no attempt and sends nothing of an attempt's, or it publishes its attempt. -/
def PublishStep (platform : Platform) (h : Hub) (e : Event) (k : Hub) : Prop :=
  (attempt? platform h e = none ∧ Unpublished h k) ∨
    ∃ a n, attempt? platform h e = some a ∧ k = a.publish platform e.env (h.counted n)

section Frames

variable {platform : Platform} {e : Event} {c : ClientID} {obj : Client} {m : Message}
  {limited muted : Bool}

theorem attemptStep_chat (he : e.input = .frame c m limited muted)
    (hobj : h.registry.client? c = some obj)
    (hready : (!(h.alive c && obj.stage == .reading && obj.replay.isEmpty) ||
      decide (maxCommandIDSize < m.commandID.utf8ByteSize) || limited) = false)
    (ht : m.type = .chat) :
    AttemptStep platform h e (h.dispatch platform e.env c obj m muted) := by
  unfold AttemptStep
  simp only [attempt?, he, hobj, hready, ht, dispatch, Bool.false_eq_true, if_false]
  cases muted with
  | true =>
    refine .inl ⟨by simp, touches_deliverError (by decide) c _ _ _⟩
  | false =>
    cases hvalid : (validateMessage m).isOk with
    | false =>
      refine .inl ⟨by simp, ?_⟩
      simp only [validated, hvalid, Bool.false_eq_true, if_false]
      exact touches_deliverError (by decide) c _ _ _
    | true =>
      obtain ⟨n, hn⟩ := assignMessageID_counted (h := h) m.messageID
      refine .inr ⟨_, n, by simp; rfl, ?_⟩
      simp only [validated, hvalid, if_true, Bool.false_eq_true, if_false, broadcastMessage, hn]
      rfl

theorem attemptStep_private (he : e.input = .frame c m limited muted)
    (hobj : h.registry.client? c = some obj)
    (hready : (!(h.alive c && obj.stage == .reading && obj.replay.isEmpty) ||
      decide (maxCommandIDSize < m.commandID.utf8ByteSize) || limited) = false)
    (ht : m.type = .privateChat) :
    AttemptStep platform h e (h.dispatch platform e.env c obj m muted) := by
  have herror : ∀ text, Touches [] [.system, .error] h
      (h.deliverError c text m.messageID m.commandID) :=
    fun text => touches_deliverError (by decide) c _ _ _
  unfold AttemptStep
  simp only [attempt?, he, hobj, hready, ht, dispatch, Bool.false_eq_true, if_false]
  cases htarget : normalizeUserCode m.targetUserCode with
  | error x => exact .inl ⟨rfl, herror _⟩
  | ok target =>
    dsimp only
    cases hcontent : (validateTextContent "private chat" m.content).isOk with
    | false => exact .inl ⟨by simp, herror _⟩
    | true =>
      simp only [handlePrivateMessage, hobj, normalizeUserCode_idem htarget, hcontent,
        Bool.not_true, Bool.false_eq_true, if_false, Bool.false_or]
      cases hcon : h.registry.isConnected c with
      | false => exact .inl ⟨by simp, Touches.refl h⟩
      | true =>
        by_cases hself : target = obj.normalizedCode
        · refine .inl ⟨by simp [hself], ?_⟩
          simp only [Bool.not_true, Bool.false_eq_true, if_false, if_pos hself]
          exact touches_deliverError (by decide) c _ _ _
        · obtain ⟨n, hn⟩ := assignMessageID_counted (h := h) m.messageID
          refine .inr ⟨_, n, by simp [hself]; rfl, ?_⟩
          simp only [Bool.not_true, Bool.false_eq_true, if_false, if_neg hself, hn]
          rfl

/-- A frame of another type makes no attempt. -/
theorem attempt?_of_type (he : e.input = .frame c m limited muted) (hchat : m.type ≠ .chat)
    (hprivate : m.type ≠ .privateChat) : attempt? platform h e = none := by
  unfold attempt?
  rw [he]
  dsimp only
  split
  · rfl
  split
  · rfl
  split
  · exact absurd (by assumption) hchat
  · exact absurd (by assumption) hprivate
  · rfl

/-- What a chat or private chat frame does. -/
theorem attemptStep_readPump (he : e.input = .frame c m limited muted)
    (hmessage : m.type = .chat ∨ m.type = .privateChat) :
    AttemptStep platform h e (h.readPump platform e.env c m limited muted) := by
  cases hobj : h.registry.client? c with
  | none =>
    refine .inl ⟨by simp only [attempt?, he, hobj], ?_⟩
    simp only [readPump, hobj]
    exact Touches.refl h
  | some obj =>
    cases hready : !(h.alive c && obj.stage == .reading && obj.replay.isEmpty) ||
        decide (maxCommandIDSize < m.commandID.utf8ByteSize) || limited with
    | true =>
      refine .inl ⟨by simp only [attempt?, he, hobj, hready, if_true], ?_⟩
      unfold readPump
      rw [hobj]
      dsimp only
      split
      · exact Touches.refl h
      rename_i hopen
      split
      · exact touches_unregisterClient (by decide) e.env c
      rename_i hsize
      split
      · exact touches_deliverError (by decide) c _ _ _
      · -- then the frame would have been ready
        rename_i hlimited
        exfalso
        have hnot : limited = false := by
          rcases hmessage with ht | ht
          · simpa [ht] using hlimited
          · simpa [ht] using hlimited
        rw [hnot, decide_eq_false hsize] at hready
        simp only [Bool.or_false] at hready
        exact hopen hready
    | false =>
      have hdispatch : h.readPump platform e.env c m limited muted =
          h.dispatch platform e.env c obj m muted := by
        simp only [Bool.or_eq_false_iff, decide_eq_false_iff_not] at hready
        unfold readPump
        rw [hobj]
        dsimp only
        rw [if_neg (by simpa using hready.1.1), if_neg hready.1.2, if_neg (by simp [hready.2])]
      rw [hdispatch]
      rcases hmessage with ht | ht
      · exact attemptStep_chat he hobj hready ht
      · exact attemptStep_private he hobj hready ht

theorem publishStep_readPump (hs : Sound h.registry) (he : e.input = .frame c m limited muted) :
    PublishStep platform h e (h.readPump platform e.env c m limited muted) := by
  by_cases hmessage : m.type = .chat ∨ m.type = .privateChat
  · rcases attemptStep_readPump (h := h) he hmessage with ⟨hnone, hquiet⟩ | hpublish
    · exact .inl ⟨hnone, .quiet hquiet⟩
    · exact .inr hpublish
  · obtain ⟨hchat, hprivate⟩ := not_or.1 hmessage
    have htouch := touches_readPump platform hs e.env c m limited muted
    refine .inl ⟨attempt?_of_type he hchat hprivate, ?_⟩
    by_cases hadmin : m.type = .adminAction
    · have hsent : Emits (fun x => x.2.type ∉ publicationTypes) h.registry
          (h.readPump platform e.env c m limited muted).registry := by
        refine htouch.moves.emits.mono fun x hx => ?_
        rw [hadmin] at hx
        revert hx
        exact (by decide : ∀ t ∈ .system :: frameTypes .adminAction, t ∉ publicationTypes) x.2.type
      rcases readPump_cases (h := h) platform e.env c m limited muted with hq | ⟨obj, hobj, heq⟩
      · exact .quiet hq
      rw [heq] at hsent ⊢
      simp only [dispatch, hadmin] at hsent ⊢
      unfold validated at hsent ⊢
      split
      · rename_i hvalid
        rw [if_pos hvalid] at hsent
        exact ⟨keepsStates_handleAdminAction e.env c _ _ _ _,
          (recalled_handleAdminAction e.env c _ _ _ _).drains.2, hsent⟩
      · exact .quiet (touches_deliverError (by decide) c _ _ _)
    · refine .of_touches htouch ?_ ?_
      · cases ht : m.type <;> simp [ht, frameParts] at hchat hprivate hadmin ⊢
      · intro t hmem
        cases ht : m.type with
        | chat => exact absurd ht hchat
        | privateChat => exact absurd ht hprivate
        | other name =>
          rw [ht] at hmem
          revert t
          exact (by decide : ∀ t ∈ [.system, .system, .error], t ∉ publicationTypes)
        | _ =>
          rw [ht] at hmem
          revert t
          decide

end Frames

/-- Every event makes no attempt, or publishes its attempt. -/
theorem publishStep (platform : Platform) (hs : Sound h.registry) (e : Event) :
    PublishStep platform h e (step platform h e) := by
  have hnone : (∀ c m limited muted, e.input ≠ .frame c m limited muted) →
      attempt? platform h e = none := by
    intro hframe
    unfold attempt?
    split
    · rename_i c m limited muted he
      exact absurd he (hframe c m limited muted)
    · rfl
  cases hinput : e.input with
  | frame c m limited muted =>
    simp only [step, hinput]
    exact publishStep_readPump hs hinput
  | login username userCode =>
    refine .inl ⟨hnone (by simp [hinput]), ?_⟩
    have htouch := step_touches platform hs e (by rw [hinput]; rfl)
    obtain ⟨accounts, hchat⟩ := chat_login (h := h) e.env username userCode
    simp only [step, hinput] at htouch ⊢
    refine ⟨.of_eq (by rw [hchat]), fun row hrow => by rwa [hchat] at hrow,
      htouch.moves.emits.mono fun x hx => ?_⟩
    revert hx
    exact (by decide : ∀ t ∈ adminTypes, t ∉ publicationTypes) x.2.type
  | replay c =>
    refine .inl ⟨hnone (by simp [hinput]), ?_⟩
    have htouch := step_touches platform hs e (by rw [hinput]; rfl)
    simp only [step, hinput] at htouch ⊢
    refine ⟨?_, ?_, htouch.moves.emits.mono fun x hx => ?_⟩
    · split
      · exact keepsStates_replay e.env c
      · exact .of_eq rfl
    · split
      · exact offline_replay e.env c
      · exact fun _ hrow => hrow
    · revert hx
      exact (by decide : ∀ t ∈ loginTypes, t ∉ publicationTypes) x.2.type
  | restart adminCode =>
    refine .inl ⟨hnone (by simp [hinput]), ?_⟩
    simp only [step, hinput]
    exact ⟨.of_eq rfl, fun _ hrow => hrow, Emits.of_eq rfl⟩
  | _ =>
    refine .inl ⟨hnone (by simp [hinput]), ?_⟩
    have htouch := step_touches platform hs e (by rw [hinput]; rfl)
    rw [hinput] at htouch
    exact .of_touches htouch (by simp [Input.writes])
      (by simp [Input.sends, adminTypes, historyTypes, publicationTypes])

/-! ### What the store decides -/

/-- The row has been added to a store that had none under its key; older rows of the conversation
may be gone. -/
structure Saved (s s' : ChatStore) (row : ChatRow) : Prop where
  fresh : ∀ r ∈ s.messages.rows, r.key ≠ row.key
  id : row.id = s.lastID + 1
  last : s'.lastID = s.lastID + 1
  mem : row ∈ s'.messages.rows
  rows : ∀ r ∈ s'.messages.rows, r ∈ s.messages.rows ∨ r = row
  offline : s'.offline = s.offline
  accounts : s'.accounts = s.accounts

theorem saved_insert {s : ChatStore} {row : ChatRow} {messages : Table (Table.keyClash ChatRow.key)}
    (hins : s.messages.insert? row = some messages) (hid : row.id = s.lastID + 1) :
    Saved s { s with messages, lastID := s.lastID + 1 } row := by
  have hrows := Table.rows_of_insert? hins
  refine ⟨?_, hid, rfl, ?_, ?_, rfl, rfl⟩
  · intro r hr hkey
    have hclash := messages.distinct
    rw [hrows, List.pairwise_append] at hclash
    have hfree := (hclash.2.2 r hr row (List.mem_singleton.2 rfl)).1
    simp only [Table.keyClash, decide_eq_false_iff_not] at hfree
    exact hfree hkey
  · change row ∈ messages.rows
    rw [hrows]
    exact List.mem_append_right _ (List.mem_singleton.2 rfl)
  · intro r hr
    change r ∈ messages.rows at hr
    rw [hrows] at hr
    exact (List.mem_append.1 hr).imp_right List.mem_singleton.1

/-- The prune keeps the newest row of its conversation. -/
theorem Saved.prune {s s' : ChatStore} {row : ChatRow} (hsaved : Saved s s' row)
    (hlast : ∃ rows, s'.messages.rows = rows ++ [row]) :
    Saved s (s'.prune row.kind row.conversationKey) row := by
  obtain ⟨rows, hrows⟩ := hlast
  refine ⟨hsaved.fresh, hsaved.id, hsaved.last, ?_, ?_, hsaved.offline, hsaved.accounts⟩
  · change row ∈ s'.messages.rows.filter _
    refine List.mem_filter.2 ⟨hsaved.mem, ?_⟩
    have hkept : row.id ∈ keptIDs s'.messages.rows row.kind row.conversationKey := by
      rw [hrows]
      simp [keptIDs, ChatRow.inConversation, maxHistoryRowsPerConversation, List.filter_append]
    simp [hkept]
  · exact fun r hr => hsaved.rows r (List.mem_of_mem_filter hr)

/-- `SaveChatMessageIfNew` refuses, finds the row, or adds it; a failed prune comes after. -/
theorem saveChatMessageIfNew_outcome {s : ChatStore} (pruneFails : Bool) {message : Message}
    {i : ChatIdentity} (hcheck : checkChatMessage message = .ok i) :
    ((∃ row ∈ s.messages.rows, row.key = (i.senderCode, i.conversationKey, message.messageID)) ∧
      s.saveChatMessageIfNew pruneFails message = (.ok false, s)) ∨
    ∃ s', Saved s s' (chatRow (s.lastID + 1) i message) ∧
      ((pruneFails = true ∧ ∃ x, s.saveChatMessageIfNew pruneFails message = (.error x, s')) ∨
        (pruneFails = false ∧ s.saveChatMessageIfNew pruneFails message = (.ok true, s'))) := by
  unfold saveChatMessageIfNew
  rw [hcheck]
  dsimp only
  cases hins : s.messages.insert? (chatRow (s.lastID + 1) i message) with
  | none =>
    obtain ⟨row, hrow, hclash⟩ := Table.insert?_eq_none hins
    refine .inl ⟨⟨row, hrow, ?_⟩, rfl⟩
    simp only [Table.keyClash, decide_eq_true_eq] at hclash
    rcases hclash with hclash | hclash
    · exact hclash
    · exact hclash.symm
  | some messages =>
    have hsaved := saved_insert hins rfl
    cases pruneFails with
    | true => exact .inr ⟨_, hsaved, .inl ⟨rfl, _, rfl⟩⟩
    | false =>
      refine .inr ⟨_, ?_, .inr ⟨rfl, rfl⟩⟩
      exact hsaved.prune ⟨_, Table.rows_of_insert? hins⟩

/-- The Hub with another chat store. -/
abbrev withChat (h : Hub) (chat : ChatStore) : Hub := { h with db := { h.db with chat } }

/-- What becomes of an attempt. -/
inductive Outcome (platform : Platform) (env : Env) (h : Hub) (a : Attempt) (k : Hub) : Prop
  | unstored (hstore : h.offlineStore = false) (hk : k = a.relay platform env h)
  | refused (hstore : h.offlineStore = true) (hk : Touches [] [.error] h k)
      (hwhy : env.fails .saveChatMessage = true ∨ a.sender h = none)
  | retried (hstore : h.offlineStore = true) (row : ChatRow) (hrow : row ∈ h.db.chat.messages.rows)
      (hkey : row.key = a.key h)
      (hk : k = h.answerRetry env (a.sender h) a.tracking (a.stored platform env h))
  | unpruned (hstore : h.offlineStore = true) (hfails : env.fails .saveChatMessage = false)
      (hprune : env.fails .pruneChatMessages = true) (s : ChatStore) (hsender : a.sender h ≠ none)
      (hsaved : Saved h.db.chat s (a.row platform env h)) (hk : Touches [] [.error] (h.withChat s) k)
  | relayed (hstore : h.offlineStore = true) (hfails : env.fails .saveChatMessage = false)
      (hprune : env.fails .pruneChatMessages = false) (s : ChatStore) (hsender : a.sender h ≠ none)
      (hsaved : Saved h.db.chat s (a.row platform env h))
      (hk : k = a.relay platform env (h.withChat s))

theorem key_row {platform : Platform} {env : Env} {a : Attempt} :
    (a.row platform env h).key = a.key h := by
  cases a <;> rfl

/-- The store finds the identity of an attempt whose sender has a session. -/
theorem checkChatMessage_stored (platform : Platform) (env : Env) (hs : Sound h.registry)
    {a : Attempt} (hv : a.Valid h) (hsender : a.sender h ≠ none) :
    checkChatMessage (a.stored platform env h) = .ok (a.identity h) := by
  cases hv with
  | @chat tracking message obj hobj ht hid hcode m hmt hm hcontent hcrypto =>
    have hlower : asciiLower message.userCode = obj.normalizedCode := by
      rw [hcode]
      exact (normalizeUserCode_eq_ok.1 hobj.code).2.symm
    obtain ⟨c, hc⟩ := Option.ne_none_iff_exists'.1 hsender
    have hactive : h.registry.active? obj.normalizedCode = some c := by
      have hof : h.senderOf message.userCode = some c := hc
      unfold senderOf at hof
      rw [hcode, hobj.code] at hof
      exact hof
    obtain ⟨-, o, ho, hocode⟩ := hs.active _ _ hactive
    have hroom : h.senderRoom (h.senderOf message.userCode) = o.room := by
      have hof : h.senderOf message.userCode = some c := hc
      simp only [hof, senderRoom, Option.bind_some, ho]
    have hovalid := hs.valid o (client?_mem ho)
    have hplaced : ValidClient { obj with room := o.room } := ⟨hobj.code, hovalid.room, hobj.replay⟩
    have hcheck : checkChatMessage (Attempt.stored platform env h (.chat tracking message)) =
        .ok ⟨.room, o.room, obj.normalizedCode, ""⟩ :=
      checkChatMessage_chat hplaced hmt hm ht hid hcode hroom hcontent hcrypto
    rw [hcheck]
    simp only [Attempt.identity, hroom, hlower]
  | @privateChat c obj target tracking message hc hobj hvalid htarget hne ht hid hcode hto hcontent
      hcrypto hstate =>
    exact checkChatMessage_private hvalid ht hid hcode (by rw [← htarget, ← hto]; rfl) hcontent
      hcrypto

/-- Without a room the store refuses a chat before it writes. -/
theorem saveChatMessage_of_no_room {env : Env} {message : Message} (ht : message.type = .chat)
    (hroom : message.room = "") : ∃ e, h.saveChatMessage env message = (.error e, h) := by
  unfold saveChatMessage
  split_ifs
  · exact ⟨_, rfl⟩
  cases hcheck : checkChatMessage message with
  | error e =>
    refine ⟨e, ?_⟩
    unfold saveChatMessageIfNew
    rw [hcheck]
  | ok i =>
    exfalso
    rcases (checkChatMessage_ok hcheck).2 with ⟨hp, -⟩ | ⟨-, hname, -⟩
    · rw [ht] at hp
      cases hp
    · exact room_ne_empty hname hroom

/-- Without a session for the sender the store refuses a chat. -/
theorem saveChatMessage_without_session (platform : Platform) (env : Env) {tracking : Bool}
    {message : Message} (ht : message.type = .chat) (hsender : h.senderOf message.userCode = none) :
    ∃ x, h.saveChatMessage env (Attempt.stored platform env h (.chat tracking message)) =
      (.error x, h) := by
  refine saveChatMessage_of_no_room ht ?_
  change h.senderRoom (h.senderOf message.userCode) = ""
  rw [hsender]
  rfl

/-- What the store makes of an attempt. -/
theorem saveChatMessage_outcome (platform : Platform) (env : Env) (hs : Sound h.registry)
    {a : Attempt} (hv : a.Valid h) :
    ((env.fails .saveChatMessage = true ∨ a.sender h = none) ∧
      ∃ x, h.saveChatMessage env (a.stored platform env h) = (.error x, h)) ∨
    ((∃ row ∈ h.db.chat.messages.rows, row.key = a.key h) ∧
      h.saveChatMessage env (a.stored platform env h) = (.ok false, h)) ∨
    (env.fails .saveChatMessage = false ∧ a.sender h ≠ none ∧
      ∃ s, Saved h.db.chat s (a.row platform env h) ∧
      ((env.fails .pruneChatMessages = true ∧
          ∃ x, h.saveChatMessage env (a.stored platform env h) = (.error x, h.withChat s)) ∨
        (env.fails .pruneChatMessages = false ∧
          h.saveChatMessage env (a.stored platform env h) = (.ok true, h.withChat s)))) := by
  by_cases hsender : a.sender h = none
  · cases hv with
    | chat obj hobj ht hid hcode m hmt hm hcontent hcrypto =>
      exact .inl ⟨.inr hsender, saveChatMessage_without_session platform env ht hsender⟩
    | privateChat => cases hsender
  have hcheck := checkChatMessage_stored platform env hs hv hsender
  have hid : (a.stored platform env h).messageID = a.message.messageID := by cases a <;> rfl
  unfold saveChatMessage
  cases hfails : env.fails .saveChatMessage with
  | true => exact .inl ⟨.inl rfl, _, rfl⟩
  | false =>
    have hstore := saveChatMessageIfNew_outcome (s := h.db.chat) (env.fails .pruneChatMessages) hcheck
    rcases hstore with ⟨hrow, hsave⟩ | ⟨s, hsaved, hsave⟩
    · rw [hid] at hrow
      exact .inr (.inl ⟨hrow, by rw [hsave]; rfl⟩)
    · refine .inr (.inr ⟨rfl, hsender, s, hsaved, ?_⟩)
      rcases hsave with ⟨hprune, x, hsave⟩ | ⟨hprune, hsave⟩
      · exact .inl ⟨hprune, x, by rw [hsave]; rfl⟩
      · exact .inr ⟨hprune, by rw [hsave]; rfl⟩

/-- The attempt's Hub and the Hub with its row agree on who sends from where. -/
theorem relay_withChat (platform : Platform) (env : Env) (tracking : Bool) (message : Message)
    (s : ChatStore) (hstore : h.offlineStore = true) :
    Attempt.relay platform env (h.withChat s) (.chat tracking message) =
      (h.withChat s).relayChat env (h.senderOf message.userCode)
        (h.senderRoom (h.senderOf message.userCode)) tracking
        (Attempt.stored platform env h (.chat tracking message)) := by
  unfold Attempt.relay
  dsimp only
  rw [if_pos hstore]
  rfl

theorem outcome (platform : Platform) (env : Env) (hs : Sound h.registry) {a : Attempt}
    (hv : a.Valid h) : Outcome platform env h a (a.publish platform env h) := by
  cases hstore : h.offlineStore with
  | false =>
    refine .unstored hstore ?_
    cases a with
    | chat tracking message =>
      simp only [Attempt.publish, publishChat, Attempt.relay, hstore]
      rfl
    | privateChat c obj target tracking message =>
      simp only [Attempt.publish, publishPrivate, Attempt.relay, hstore]
      rfl
  | true =>
    have hsave := saveChatMessage_outcome platform env hs hv
    cases a with
    | chat tracking message =>
      have hstored : Attempt.stored platform env h (.chat tracking message) = _ := rfl
      rw [Attempt.publish, publishChat_stored platform env tracking message hstore hstored]
      rcases hsave with ⟨hwhy, x, hsave⟩ | ⟨⟨row, hrow, hkey⟩, hsave⟩ |
        ⟨hfails, hsender, s, hsaved, hsave⟩
      · rw [hsave]
        refine .refused hstore ?_ hwhy
        dsimp only
        split
        · exact touches_deliverError List.mem_cons_self _ _ _ _
        · exact Touches.refl h
      · rw [hsave]
        exact .retried hstore row hrow hkey rfl
      · rcases hsave with ⟨hprune, x, hsave⟩ | ⟨hprune, hsave⟩
        · rw [hsave]
          refine .unpruned hstore hfails hprune s hsender hsaved ?_
          dsimp only
          split
          · exact touches_deliverError List.mem_cons_self _ _ _ _
          · exact Touches.refl _
        · rw [hsave]
          exact .relayed hstore hfails hprune s hsender hsaved
            (relay_withChat platform env tracking message s hstore).symm
    | privateChat c obj target tracking message =>
      simp only [Attempt.publish, publishPrivate, hstore, Bool.not_true, Bool.false_eq_true,
        if_false]
      have hstored : Attempt.stored platform env h (.privateChat c obj target tracking message) =
          { message with isPrivate := true } := rfl
      rw [hstored] at hsave
      rcases hsave with ⟨hwhy, x, hsave⟩ | ⟨⟨row, hrow, hkey⟩, hsave⟩ |
        ⟨hfails, hsender, s, hsaved, hsave⟩
      · rw [hsave]
        exact .refused hstore (touches_deliverError List.mem_cons_self _ _ _ _) hwhy
      · rw [hsave]
        exact .retried hstore row hrow hkey rfl
      · rcases hsave with ⟨hprune, x, hsave⟩ | ⟨hprune, hsave⟩
        · rw [hsave]
          exact .unpruned hstore hfails hprune s hsender hsaved
            (touches_deliverError List.mem_cons_self _ _ _ _)
        · rw [hsave]
          exact .relayed hstore hfails hprune s hsender hsaved rfl

/-! ### New rows -/

/-- The store takes the attempt as new. -/
def isNew (h : Hub) (env : Env) (a : Attempt) : Bool :=
  h.offlineStore && !env.fails .saveChatMessage &&
    !h.db.chat.messages.rows.any fun row => row.key == a.key h

theorem isNew_of_saved {platform : Platform} {env : Env} {a : Attempt} {s : ChatStore}
    (hstore : h.offlineStore = true) (hfails : env.fails .saveChatMessage = false)
    (hsaved : Saved h.db.chat s (a.row platform env h)) : h.isNew env a = true := by
  have hnone : (h.db.chat.messages.rows.any fun row => row.key == a.key h) = false := by
    rw [List.any_eq_false]
    intro row hrow hkey
    exact hsaved.fresh row hrow ((beq_iff_eq.1 hkey).trans key_row.symm)
  unfold isNew
  rw [hstore, hfails, hnone]
  rfl

theorem grows_relay {posts : Message → Prop} {recalls : String → Prop} (platform : Platform)
    (env : Env) (a : Attempt) :
    Grows posts recalls h.db.chat (a.relay platform env h).db.chat := by
  cases a with
  | chat tracking message => exact grows_relayChat env _ _ tracking _
  | privateChat c obj target tracking message =>
    exact grows_routePrivate env c obj target tracking message

theorem rows_relay (platform : Platform) (env : Env) (a : Attempt) {row : ChatRow}
    (hrow : row ∈ (a.relay platform env h).db.chat.messages.rows) :
    ∃ base ∈ h.db.chat.messages.rows, row.fixed = base.fixed := by
  have hgrow : Grows (fun _ => False) (fun _ => True) h.db.chat
    (a.relay platform env h).db.chat := grows_relay platform env a
  obtain ⟨base, hbase | ⟨_, _, hpost, -⟩, hfix, -⟩ := hgrow.origin row hrow
  · exact ⟨base, hbase, hfix⟩
  · exact hpost.elim

/-- Every row after an attempt was there before or is that of the attempt, which was new; then the
prune failed or the message was relayed. -/
theorem Outcome.rows {platform : Platform} {env : Env} {a : Attempt}
    (ho : Outcome platform env h a k) {row : ChatRow} (hrow : row ∈ k.db.chat.messages.rows) :
    ∃ base, row.fixed = base.fixed ∧ (base ∈ h.db.chat.messages.rows ∨
      (base = a.row platform env h ∧ h.isNew env a = true ∧
        (env.fails .pruneChatMessages = true ∨ ∃ s, Saved h.db.chat s (a.row platform env h) ∧
          k = a.relay platform env (h.withChat s)))) := by
  cases ho with
  | unstored hstore hk =>
    rw [hk] at hrow
    obtain ⟨base, hbase, hfix⟩ := rows_relay platform env a hrow
    exact ⟨base, hfix, .inl hbase⟩
  | refused hstore hk =>
    have hsame : k.db.chat = h.db.chat := hk.same .chat (by decide)
    exact ⟨row, rfl, .inl (hsame ▸ hrow)⟩
  | retried hstore stored hstored hkey hk =>
    rw [hk, chat_answerRetry] at hrow
    exact ⟨row, rfl, .inl hrow⟩
  | unpruned hstore hfails hprune s hsender hsaved hk =>
    have hsame : k.db.chat = s := hk.same .chat (by decide)
    rw [hsame] at hrow
    exact ⟨row, rfl, (hsaved.rows row hrow).imp_right
      fun heq => ⟨heq, isNew_of_saved hstore hfails hsaved, .inl hprune⟩⟩
  | relayed hstore hfails hprune s hsender hsaved hk =>
    rw [hk] at hrow
    obtain ⟨base, hbase, hfix⟩ := rows_relay platform env a hrow
    exact ⟨base, hfix, (hsaved.rows base hbase).imp_right
      fun heq => ⟨heq, isNew_of_saved hstore hfails hsaved, .inr ⟨s, hsaved, hk⟩⟩⟩

/-- Every event makes no attempt, or has the outcome of its attempt. -/
theorem step_outcome (platform : Platform) (hs : Sound h.registry) (e : Event) :
    (attempt? platform h e = none ∧ Unpublished h (step platform h e)) ∨
      ∃ a n, attempt? platform h e = some a ∧ a.Valid h ∧
        Outcome platform e.env (h.counted n) a (step platform h e) := by
  rcases publishStep platform hs e with hquiet | ⟨a, n, ha, hstep⟩
  · exact .inl hquiet
  · have hv := attempt_valid hs ha
    refine .inr ⟨a, n, ha, hv, ?_⟩
    rw [hstep]
    exact outcome platform e.env (h := h.counted n) hs (hv.congr rfl)

end Hub

end LanChat
