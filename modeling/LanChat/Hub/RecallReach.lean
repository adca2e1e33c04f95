import Mathlib.Data.List.Dedup
import LanChat.Hub.HistoryLog
import LanChat.Hub.LiveCopies

/-!
# Whom a recall reaches

`MessageRecords` keeps, for every message that the Hub relays, the codes of the users it goes to:
the two parties of a private chat, or those who are in the room at that moment.  A recall is told
to the sessions of these codes; a message that was stored and never relayed has no record, and the
codes are then read off its row and the room as it is.

* `Attempt.audience`: the codes that a relayed message is recorded with;
* `Held`: all users of whom a live copy of the message is or waits are of a kind; in a run they are
  the ones on record (`Trace.Reach`);
* `Trace.Reached`: the ways of having seen the message that a recall answers for;
* `Trace.recall_reaches`: it is told to every one of them that has a free place;
* `Trace.recall_misses_reader`: a reader of the room's history from elsewhere is not told.
-/

namespace LanChat

namespace Hub

open GoStrings Registry ChatStore EventMachine

variable {h k : Hub}

/-! ### The loop over the recipients -/

/-- One round of the loop. -/
def tellRecipient (message : Message) (r : Registry) (code : String) : Registry :=
  match r.active? code with
  | some c => r.tell c message
  | none => r

theorem emits_tellRecipient (message : Message) (r : Registry) (code : String) :
    Emits (fun _ => True) r (tellRecipient message r code) := by
  unfold tellRecipient
  split
  · exact emits_tell trivial
  · exact Emits.refl r

/-- Every recipient with a session and a free place is told. -/
theorem sent_tellRecipients {message : Message} {c : ClientID} {code : String} (l : List String)
    {r : Registry} (hs : Sound r) (hc : c ∈ r.clients) (hspace : r.hasSpace c = true)
    (hcode : r.codeOf c = some code) (hmem : code ∈ l) :
    ∃ out, (l.foldl (tellRecipient message) r).sent = r.sent ++ out ∧ (c, message) ∈ out := by
  induction l generalizing r with
  | nil => cases hmem
  | cons first l ih =>
    obtain ⟨obj, hobj, hactive, -⟩ := hs.online c hc
    have hthis : obj.normalizedCode = code := by
      unfold codeOf at hcode
      rw [hobj] at hcode
      exact Option.some_injective _ hcode
    rw [hthis] at hactive
    rw [List.foldl_cons]
    by_cases hfirst : first = code
    · have hround : tellRecipient message r first = r.enqueue c message := by
        unfold tellRecipient Registry.tell
        rw [hfirst, hactive]
        dsimp only
        rw [deliver_of_hasSpace hc hspace]
      obtain ⟨out, hout, -⟩ := emits_foldl (l := l)
        (fun r code _ => emits_tellRecipient message r code) (r.enqueue c message)
      refine ⟨[(c, message)] ++ out, ?_, List.mem_append_left _ (List.mem_singleton.2 rfl)⟩
      rw [hround, hout, ← List.append_assoc]
      rfl
    · have hrest : code ∈ l := (List.mem_cons.1 hmem).resolve_left (Ne.symm hfirst)
      cases hother : r.active? first with
      | none =>
        have hround : tellRecipient message r first = r := by
          unfold tellRecipient
          rw [hother]
        rw [hround]
        exact ih hs hc hspace hcode hrest
      | some d =>
        -- the session of another code is another one
        have hdc : d ≠ c := by
          rintro rfl
          obtain ⟨-, o, ho, hocode⟩ := hs.active first d hother
          obtain rfl := Option.some_injective _ (hobj.symm.trans ho)
          exact hfirst (hocode.symm.trans hthis)
        have hround : tellRecipient message r first = (r.deliver d message).1 := by
          unfold tellRecipient
          rw [hother]
          rfl
        obtain ⟨first, hsent, -⟩ := emits_tellRecipient message r first
        rw [hround] at hsent ⊢
        obtain ⟨out, hout, hin⟩ := ih (hs.deliver d message) (mem_clients_deliver_of_ne hdc hc)
          ((hasSpace_deliver_of_ne hdc).trans hspace)
          (((fades_deliver d message).codeOf c).trans hcode) hrest
        refine ⟨first ++ out, ?_, List.mem_append_right _ hin⟩
        rw [hout, hsent, List.append_assoc]

theorem sent_deliverRecall {r : Registry} (hs : Sound r) (env : Env) (record : MessageRecord)
    (message : Message) {c : ClientID} {code : String} (hc : c ∈ r.clients)
    (hspace : r.hasSpace c = true) (hcode : r.codeOf c = some code)
    (hmem : code ∈ record.recipients) :
    ∃ out, (deliverRecall r env record message).sent = r.sent ++ out ∧ (c, message) ∈ out :=
  sent_tellRecipients _ hs hc hspace hcode (mem_visitTexts.2 (List.mem_dedup.2 hmem))

/-! ### Recall requests -/

theorem registry_persistRecall (env : Env) (messageID : String) (record : MessageRecord) :
    (h.persistRecall env messageID record).2.registry = h.registry := by
  have hcopy : ∀ l : Hub, (l.removeOfflineCopy env record).2.registry = l.registry := by
    intro l
    unfold removeOfflineCopy
    split
    · rfl
    split
    · rfl
    · rfl
  unfold persistRecall
  split
  · split
    · exact hcopy _
    · exact hcopy h
    · rfl
  · rfl

/-- A recall request leaves the records, or it marks one and tells its recipients. -/
def RecallTold (h k : Hub) (env : Env) (messageID commandID : String) : Prop :=
  k.messageRecords = h.messageRecords ∨
    ∃ record, h.recordForRecall env messageID = some record ∧
      k.registry = deliverRecall h.registry env record
        { type := .messageRecalled, messageID, commandID }

theorem recallTold_handleRecall (env : Env) (c : ClientID) (obj : Client)
    (messageID commandID : String) :
    RecallTold h (h.handleRecall env c obj messageID commandID) env messageID commandID := by
  unfold handleRecall
  split
  · exact .inl rfl
  rename_i record hrecord
  split
  · exact .inl rfl
  split
  · exact .inl rfl
  split
  · exact .inl rfl
  have hreg := registry_persistRecall (h := h) env messageID record
  split
  · rename_i l hpersist
    exact .inl (persistRecall_cases hpersist).2.1
  · rename_i l hpersist
    rw [hpersist] at hreg
    refine .inr ⟨record, hrecord, ?_⟩
    dsimp only at hreg ⊢
    rw [hreg]

theorem recallTold_handleAdminAction (env : Env) (c : ClientID)
    (action targetCode messageID commandID : String) :
    RecallTold h (h.handleAdminAction env c action targetCode messageID commandID) env messageID
      commandID := by
  have houtcome := adminOutcome_handleAdminAction h env c action targetCode messageID commandID
  generalize h.handleAdminAction env c action targetCode messageID commandID = k at houtcome ⊢
  cases houtcome with
  | unchanged => exact .inl rfl
  | refused content => exact .inl rfl
  | recalled obj => exact recallTold_handleRecall env c obj messageID commandID
  | decision obj approved =>
    unfold handleDecision
    split
    · exact .inl rfl
    · exact .inl rfl
  | kick target o => exact .inl rfl
  | mute target o => exact .inl rfl

/-- A recall that succeeds is told to the sessions of all recipients with a free place. -/
theorem RecallSucceeds.told {platform : Platform} {e : Event} {messageID : String}
    (hs : Sound h.registry) (hsucc : RecallSucceeds platform h e messageID) :
    ∃ record commandID, h.recordForRecall e.env messageID = some record ∧
      record.recalled = false ∧
      ∀ d code, d ∈ h.registry.clients → h.registry.hasSpace d = true →
        h.registry.codeOf d = some code → code ∈ record.recipients →
        (d, { type := .messageRecalled, messageID, commandID }) ∈
          sentBetween h (step platform h e) := by
  have hchanges := hsucc.changes
  obtain ⟨⟨c, obj, m, ⟨⟨limited, muted, he⟩, hobj⟩, ht, haction, hid, -⟩,
    ⟨record, hrecord, hopen⟩, -⟩ := hsucc
  have htold : RecallTold h (step platform h e) e.env messageID m.commandID := by
    simp only [step, he]
    rcases readPump_cases (h := h) platform e.env c m limited muted with hquiet | ⟨o, ho, heq⟩
    · exact .inl (hquiet.same .records (by decide))
    rw [heq]
    simp only [dispatch, ht]
    unfold validated
    split
    · rw [← hid]
      exact recallTold_handleAdminAction e.env c _ _ _ _
    · exact .inl rfl
  rcases htold with hsame | ⟨record', hrecord', hreg⟩
  · rw [hsame] at hchanges
    exact absurd rfl hchanges
  · obtain rfl := Option.some_injective _ (hrecord.symm.trans hrecord')
    refine ⟨record, m.commandID, hrecord, hopen, fun d code hd hspace hcode hmem => ?_⟩
    obtain ⟨out, hout, hin⟩ := sent_deliverRecall hs e.env record
      { type := .messageRecalled, messageID, commandID := m.commandID } hd hspace hcode hmem
    rw [← hreg] at hout
    exact (mem_sentBetween_iff hout).2 hin

/-- An event without an attempt leaves a record, or marks it as recalled. -/
theorem record_unpublished (platform : Platform) (hs : Sound h.registry) (e : Event)
    (hlive : e.input.isRestart = false) (hnone : attempt? platform h e = none) (x : String) :
    (step platform h e).messageRecords.lookup x = h.messageRecords.lookup x ∨
      ∃ record, h.recordForRecall e.env x = some record ∧
        (step platform h e).messageRecords.lookup x = some { record with recalled := true } := by
  cases recordStep platform hs e with
  | send hr =>
    rcases hr.record x with hsame | ⟨⟨c, obj, m, ⟨⟨limited, muted, he⟩, -⟩, ht, -⟩, -⟩
    · exact .inl hsame
    · have hattempt : AttemptStep platform h e (h.readPump platform e.env c m limited muted) :=
        attemptStep_readPump he ht
      rcases hattempt with ⟨-, hquiet⟩ | ⟨a, n, ha, -⟩
      · have hrecords : (h.readPump platform e.env c m limited muted).messageRecords =
          h.messageRecords := hquiet.same .records (by decide)
        simp only [step, he]
        rw [hrecords]
        exact .inl rfl
      · rw [hnone] at ha
        cases ha
  | «recall» c obj m hframe ht hr =>
    rcases hr.other x with hsame | ⟨rfl, record, hrecord, -, hnew, -⟩
    · exact .inl hsame
    · exact .inr ⟨record, hrecord, hnew⟩
  | restart he =>
    rw [hlive] at he
    cases he

/-! ### What a relay leaves -/

/-- The codes that a relayed message is recorded with. -/
def Attempt.audience (h : Hub) : Attempt → List String
  | .chat _ message => h.registry.recipientCodes
      (h.registry.roomClients (h.senderRoom (h.senderOf message.userCode)))
  | .privateChat _ obj target _ _ => [obj.normalizedCode, target]

/-- The record of a message names its audience. -/
def Recorded (k : Hub) (messageID : String) (audience : List String) : Prop :=
  ∃ record, k.messageRecords.lookup messageID = some record ∧ record.recipients = audience

/-- The copies of a relayed message, live and waiting, go to its audience; without a record there
are none. -/
structure RelayLog (h k : Hub) (a : Attempt) : Prop where
  sent : ∀ x ∈ sentBetween h k, x.2.type ∈ liveTypes → x.2.messageID = a.message.messageID ∧
    ∃ code ∈ a.audience h, h.registry.codeOf x.1 = some code
  offline : ∀ row ∈ k.db.chat.offline.rows, row ∈ h.db.chat.offline.rows ∨
    (row.messageID = a.message.messageID ∧ row.targetCode ∈ a.audience h)
  other : ∀ x, x ≠ a.message.messageID → k.messageRecords.lookup x = h.messageRecords.lookup x
  record : Recorded k a.message.messageID (a.audience h) ∨
    (k.messageRecords = h.messageRecords ∧ (∀ x ∈ sentBetween h k, x.2.type ∉ liveTypes) ∧
      (∀ row ∈ k.db.chat.offline.rows, row ∈ h.db.chat.offline.rows) ∧
      (a.identity h).kind = .privateChat)

theorem recorded_insert {message : Message} (hid : message.messageID ≠ "") {audience : List String}
    {offlineMessageID : String} (hk : k.messageRecords =
      (h.recordMessage message audience offlineMessageID).messageRecords) :
    Recorded k message.messageID audience ∧
      ∀ x, x ≠ message.messageID → k.messageRecords.lookup x = h.messageRecords.lookup x := by
  rw [records_recorded hid] at hk
  constructor
  · exact ⟨_, by rw [hk, AList.lookup_insert], rfl⟩
  · intro x hx
    rw [hk]
    exact AList.lookup_insert_ne hx

theorem mem_recipientCodes {r : Registry} {c : ClientID} {l : List ClientID} {code : String}
    (hmem : c ∈ l) (hcode : r.codeOf c = some code) (hne : code ≠ "") :
    code ∈ r.recipientCodes l := by
  unfold codeOf at hcode
  obtain ⟨obj, hobj, rfl⟩ := Option.map_eq_some_iff.1 hcode
  refine List.mem_filterMap.2 ⟨c, hmem, ?_⟩
  rw [hobj, Option.bind_some, if_neg hne]

/-- A connected client has a code that is not empty. -/
theorem codeOf_connected {r : Registry} (hs : Sound r) {c : ClientID} (hc : c ∈ r.clients) :
    ∃ code, r.codeOf c = some code ∧ code ≠ "" := by
  obtain ⟨obj, hobj, -⟩ := hs.online c hc
  have hcode : r.codeOf c = some obj.normalizedCode := by
    unfold codeOf
    rw [hobj]
    rfl
  exact ⟨obj.normalizedCode, hcode, codeOf_ne_empty hs hcode⟩

theorem relayLog_chat (hs : Sound h.registry) (env : Env) (sender : Option ClientID)
    {room : String} (tracking : Bool) {message : Message} {a : Attempt}
    (hid : message.messageID ≠ "") (hma : message.messageID = a.message.messageID)
    (haudience : a.audience h = h.registry.recipientCodes (h.registry.roomClients room)) :
    RelayLog h (h.relayChat env sender room tracking message) a := by
  obtain ⟨live, rest, hrelay⟩ := chatRelay (h := h) env sender room tracking message
  obtain ⟨hrecorded, hother⟩ := recorded_insert hid hrelay.records
  rw [hma] at hrecorded hother
  refine ⟨fun x hx hlive => ?_, fun row hrow => .inl (hrelay.offline ▸ hrow), hother,
    .inl (haudience ▸ hrecorded)⟩
  obtain ⟨hwire, hc, hroom⟩ := live_relayChat hx hlive
  obtain ⟨code, hcode, hne⟩ := codeOf_connected hs hc
  rw [haudience]
  refine ⟨?_, code, mem_recipientCodes hroom hcode hne, hcode⟩
  rw [hwire, (wireMessage_fields tracking message).2.2, hma]

theorem records_relayPrivate_eq (env : Env) (c : ClientID) (obj : Client) (target : ClientID)
    (targetCode : String) (tracking : Bool) (message : Message) :
    (h.relayPrivate env c obj target targetCode tracking message).messageRecords =
      (h.recordMessage message [obj.normalizedCode, targetCode] "").messageRecords := by
  unfold relayPrivate
  dsimp only
  split
  · rfl
  split
  · exact records_tell_if tracking c _
  split
  · rfl
  · rename_i l hmark
    rw [records_tell_if, records_markDelivered_eq hmark]

theorem relayLog_relayPrivate (env : Env) {c t : ClientID} {obj : Client} {target : String}
    (tracking : Bool) {message : Message} {a : Attempt} (hc : c ∈ h.registry.clients)
    (htc : t ∈ h.registry.clients) (hct : c ≠ t)
    (hown : h.registry.codeOf c = some obj.normalizedCode)
    (hcode : h.registry.codeOf t = some target) (hid : message.messageID ≠ "")
    (hma : message.messageID = a.message.messageID)
    (haudience : a.audience h = [obj.normalizedCode, target]) :
    RelayLog h (h.relayPrivate env c obj t target tracking message) a := by
  obtain ⟨hrecorded, hother⟩ := recorded_insert hid
    (records_relayPrivate_eq (h := h) env c obj t target tracking message)
  rw [hma] at hrecorded hother
  have hwire : ∀ d code, code ∈ [obj.normalizedCode, target] → h.registry.codeOf d = some code →
      (wireMessage tracking message).messageID = a.message.messageID ∧
        ∃ code ∈ a.audience h, h.registry.codeOf d = some code := by
    intro d code hmem hd
    rw [haudience]
    exact ⟨(wireMessage_fields tracking message).2.2.trans hma, code, hmem, hd⟩
  have hoffline : (h.relayPrivate env c obj t target tracking message).db.chat.offline =
      h.db.chat.offline := by
    cases privateRelay (h := h) env obj target tracking message hc htc hct with
    | echoFull hspace hdb hsent => rw [hdb]
    | targetFull hspace htfull hdb out hsent hout => rw [hdb]
    | unmarked hspace htspace hdb out hsent hout => rw [hdb]
    | delivered hspace htspace l hmark hdb out hsent hout => rw [hdb, offline_markDelivered hmark]
  refine ⟨fun x hx hlive => ?_, fun row hrow => .inl (hoffline ▸ hrow), hother,
    .inl (haudience ▸ hrecorded)⟩
  rcases live_relayPrivate hc htc hct hx hlive with rfl | rfl
  · exact hwire c _ List.mem_cons_self hown
  · exact hwire t _ (List.mem_cons_of_mem _ List.mem_cons_self) hcode

theorem relayLog_savePrivateOffline (env : Env) {c : ClientID} {obj : Client} {target : String}
    (tracking : Bool) {message : Message} {a : Attempt}
    (hown : h.registry.codeOf c = some obj.normalizedCode) (hlower : asciiLower target = target)
    (hid : message.messageID ≠ "")
    (hcontent : validateTextContent "private chat" message.content = .ok ())
    (hma : message.messageID = a.message.messageID)
    (hkind : (a.identity h).kind = .privateChat)
    (haudience : a.audience h = [obj.normalizedCode, target]) :
    RelayLog h (h.savePrivateOffline env c obj target tracking message) a := by
  have herrors : ∀ {out : List (ClientID × Message)},
      (h.savePrivateOffline env c obj target tracking message).registry.sent =
        h.registry.sent ++ out → (∀ x ∈ out, x.2.type = .error) →
      ∀ x ∈ sentBetween h (h.savePrivateOffline env c obj target tracking message),
        x.2.type ∉ liveTypes := fun hsent hout x hx =>
    not_live_of_error (hout x ((mem_sentBetween_iff hsent).1 hx))
  cases offlineRelay (h := h) env c obj target tracking hcontent with
  | unknown hknown hdb hrecords out hsent hout =>
    have hquiet := herrors hsent hout
    have hsame : ∀ row ∈ (h.savePrivateOffline env c obj target tracking
        message).db.chat.offline.rows, row ∈ h.db.chat.offline.rows := by
      intro row hrow
      rwa [hdb] at hrow
    refine ⟨fun x hx hlive => absurd hlive (hquiet x hx), fun row hrow => .inl (hsame row hrow),
      fun x _ => by rw [hrecords], .inr ⟨hrecords, hquiet, hsame, hkind⟩⟩
  | unsaved hknown htaken hdb hrecords out hsent hout =>
    have hquiet := herrors hsent hout
    obtain ⟨hrecorded, hother⟩ := recorded_insert hid hrecords
    rw [hma] at hrecorded hother
    refine ⟨fun x hx hlive => absurd hlive (hquiet x hx), fun row hrow => .inl ?_, hother,
      .inl (haudience ▸ hrecorded)⟩
    rwa [hdb] at hrow
  | queued hknown s hqueued hdb hrecords out hsent hout =>
    obtain ⟨hrecorded, hother⟩ := recorded_insert hid hrecords
    rw [hma] at hrecorded hother
    refine ⟨fun x hx hlive => ?_, fun row hrow => ?_, hother, .inl (haudience ▸ hrecorded)⟩
    · rw [live_savePrivateOffline hcontent hx hlive, haudience]
      exact ⟨(wireMessage_fields tracking message).2.2.trans hma, _, List.mem_cons_self, hown⟩
    · rw [hdb] at hrow
      rcases hqueued.rows row hrow with hold | rfl
      · exact .inl hold
      · refine .inr ⟨hma, ?_⟩
        rw [haudience]
        change asciiLower target ∈ _
        rw [hlower]
        exact List.mem_cons_of_mem _ List.mem_cons_self

/-- Every relay goes to the audience of its attempt. -/
theorem relayLog (platform : Platform) (hs : Sound h.registry) (env : Env) {a : Attempt}
    (hv : a.Valid h) : RelayLog h (a.relay platform env h) a := by
  cases hv with
  | @chat tracking message obj hobj ht hid hcode m hmt hm hcontent hcrypto =>
    obtain ⟨q, hq, hqid⟩ : ∃ q : Message, (if h.offlineStore then
        storedChat platform env (h.senderRoom (h.senderOf message.userCode)) message
        else message) = q ∧ q.messageID = message.messageID := by
      refine ⟨_, rfl, ?_⟩
      split_ifs
      · rfl
      · rfl
    change RelayLog h (h.relayChat env _ _ tracking _) _
    rw [hq]
    exact relayLog_chat hs env _ tracking (by rw [hqid]; exact hid) hqid rfl
  | @privateChat c obj target tracking message hc hobj hvalid htarget hne ht hid hcode hto hcontent
      hcrypto hstate =>
    have hlower : asciiLower target = target := ((normalizeUserCode_eq_ok.1 htarget).2).symm
    have hown : h.registry.codeOf c = some obj.normalizedCode := by
      unfold codeOf
      rw [hobj]
      rfl
    change RelayLog h (h.routePrivate env c obj target tracking message) _
    unfold routePrivate
    split
    · exact relayLog_savePrivateOffline env tracking hown hlower hid hcontent rfl rfl rfl
    · rename_i t hactive
      obtain ⟨htc, o, hto', hocode⟩ := hs.active target t hactive
      have htcode : h.registry.codeOf t = some target := by
        unfold codeOf
        rw [hto', ← hocode]
        rfl
      dsimp only
      obtain ⟨q, hq, hqid⟩ : ∃ q : Message, { message with
          targetUserCode := (h.registry.client? t).elim message.targetUserCode
            Client.userCode } = q ∧ q.messageID = message.messageID := ⟨_, rfl, rfl⟩
      rw [hq]
      exact relayLog_relayPrivate env tracking hc htc (ne_of_active hs hobj hne hactive) hown htcode
        (by rw [hqid]; exact hid) hqid rfl

/-! ### Who holds a copy -/

theorem liveKey_eq_some {x : Message} {key : MessageKey} (hx : liveKey x = some key) :
    x.type ∈ liveTypes ∧ x.messageID = key.2.2 := by
  have hlive : x.type ∈ liveTypes := by
    by_contra hother
    rw [liveKey_eq_none hother] at hx
    cases hx
  refine ⟨hlive, ?_⟩
  unfold liveKey at hx
  split at hx
  · rw [← Option.some_injective _ hx]
  · rw [← Option.some_injective _ hx]
  · rw [← Option.some_injective _ hx]
  · cases hx

theorem exists_liveKey {x : Message} (hx : x.type ∈ liveTypes) :
    ∃ key, liveKey x = some key ∧ key.2.2 = x.messageID := by
  simp only [liveTypes, List.mem_cons, List.not_mem_nil, or_false] at hx
  unfold liveKey
  rcases hx with ht | ht | ht
  · rw [ht]
    exact ⟨_, rfl, rfl⟩
  · rw [ht]
    exact ⟨_, rfl, rfl⟩
  · rw [ht]
    exact ⟨_, rfl, rfl⟩

theorem copies_pos {key : MessageKey} {d : ClientID} {l : List (ClientID × Message)} :
    0 < copies key d l ↔ ∃ x, (d, x) ∈ l ∧ liveKey x = some key := by
  unfold copies
  rw [List.countP_pos_iff]
  constructor
  · rintro ⟨⟨c, x⟩, hx, hmatch⟩
    simp only [Bool.and_eq_true, beq_iff_eq] at hmatch
    obtain ⟨rfl, hkey⟩ := hmatch
    exact ⟨x, hx, hkey⟩
  · rintro ⟨x, hx, hkey⟩
    exact ⟨(d, x), hx, by simp [hkey]⟩

/-- The connection has been sent the message, or its login goroutine has it in hand. -/
def HasCopy (messageID : String) (d : ClientID) (h : Hub) : Prop :=
  ∃ key : MessageKey, key.2.2 = messageID ∧
    0 < copies key d h.registry.sent + replayed key d h.registry

/-- All copies of the message are with users of a kind, or wait for one. -/
structure Held (P : String → Prop) (messageID : String) (h : Hub) : Prop where
  holders : ∀ d, HasCopy messageID d h → ∃ code, h.registry.codeOf d = some code ∧ P code
  waiting : ∀ row ∈ h.db.chat.offline.rows, row.messageID = messageID → P row.targetCode

variable {P Q : String → Prop} {messageID : String}

theorem Held.mono (hheld : Held P messageID h) (hPQ : ∀ code, P code → Q code) :
    Held Q messageID h := by
  constructor
  · intro d hd
    obtain ⟨code, hcode, hp⟩ := hheld.holders d hd
    exact ⟨code, hcode, hPQ code hp⟩
  · intro row hrow hid
    exact hPQ _ (hheld.waiting row hrow hid)

/-- Only what is sent, or queued for later, adds a copy. -/
theorem Held.extend {walks : Prop} {types : List MessageType} (hheld : Held P messageID h)
    (hmoves : Moves walks types h.registry k.registry) (hreplay : .offlineMessage ∉ types)
    (hsent : ∀ x ∈ sentBetween h k, x.2.type ∈ liveTypes → x.2.messageID = messageID →
      ∃ code, h.registry.codeOf x.1 = some code ∧ P code)
    (hoffline : ∀ row ∈ k.db.chat.offline.rows, row ∈ h.db.chat.offline.rows ∨
      (row.messageID = messageID → P row.targetCode)) : Held P messageID k := by
  have hkept : ∀ {d code}, h.registry.codeOf d = some code → k.registry.codeOf d = some code :=
    fun hc => hmoves.preserves (fun _ _ hmove hcode => hmove.codeOf hcode) hc
  constructor
  · rintro d ⟨key, hid, hpos⟩
    obtain ⟨out, hout, -⟩ := hmoves.emits
    by_cases hold : 0 < copies key d h.registry.sent + replayed key d h.registry
    · obtain ⟨code, hcode, hp⟩ := hheld.holders d ⟨key, hid, hold⟩
      exact ⟨code, hkept hcode, hp⟩
    · have hreplayed : replayed key d k.registry ≤ replayed key d h.registry :=
        replayed_moves hmoves hreplay
      rw [hout, copies_append] at hpos
      obtain ⟨x, hx, hkey⟩ := copies_pos.1 (show 0 < copies key d out by omega)
      obtain ⟨hlive, hxid⟩ := liveKey_eq_some hkey
      obtain ⟨code, hcode, hp⟩ := hsent (d, x) ((mem_sentBetween_iff hout).2 hx) hlive
        (hxid.trans hid)
      exact ⟨code, hkept hcode, hp⟩
  · intro row hrow hid
    rcases hoffline row hrow with hold | hnew
    · exact hheld.waiting row hold hid
    · exact hnew hid

/-- Nothing reaches a connection that does not exist. -/
theorem unborn_move {r r' : Registry} {walks : Prop} {types : List MessageType} {d : ClientID}
    (key : MessageKey) (hm : Move walks types r r') (hw : ¬ walks) (hs : Sound r)
    (hd : r.client? d = none) :
    r'.client? d = none ∧ copies key d r'.sent = copies key d r.sent := by
  have hfades : ∀ {r' : Registry}, Fades r r' → r'.client? d = none := by
    intro r' hf
    have hobj := hf.object d
    rw [hd, Option.map_none] at hobj
    exact Option.map_eq_none_iff.1 hobj
  have hmodify : ∀ (c : ClientID) (f : Client → Client), (r.modifyClient c f).client? d = none := by
    intro c f
    rw [client?_modifyClient, hd]
    split_ifs <;> rfl
  have hother : ∀ {c : ClientID} (m : Message), c ≠ d →
      copies key d (r.sent ++ [(c, m)]) = copies key d r.sent := by
    intro c m hcd
    have hzero : copies key d [(c, m)] = 0 := copies_eq_zero_of_ne (by simpa using hcd)
    rw [copies_append, hzero, Nat.add_zero]
  cases hm with
  | deliver c m hm =>
    refine ⟨hfades (fades_deliver c m), ?_⟩
    unfold Registry.deliver
    split_ifs with hcon hspace
    · refine hother m ?_
      rintro rfl
      obtain ⟨obj, hobj, -⟩ := hs.online c (isConnected_iff.1 hcon)
      rw [hd] at hobj
      cases hobj
    · exact congrArg (copies key d) (sent_removeClient (r := r) c)
    · rfl
  | remove c =>
    exact ⟨hfades (fades_removeClient c), congrArg (copies key d) (sent_removeClient (r := r) c)⟩
  | close c => exact ⟨hfades (fades_closeSend c), rfl⟩
  | go c room hgo => exact absurd hgo hw
  | mute c => exact ⟨hmodify c _, rfl⟩
  | pump c => exact ⟨hmodify c _, rfl⟩
  | enroll obj henroll => exact absurd henroll hw
  | dropRoom room hempty => exact ⟨hd, rfl⟩
  | load c stage replay => exact ⟨hmodify c _, rfl⟩
  | push c obj message rest hc hobj hm =>
    have hcd : c ≠ d := by
      rintro rfl
      rw [hd] at hc
      cases hc
    refine ⟨?_, hother message hcd⟩
    change ((r.modifyClient c _).modifyClient c _).client? d = none
    rw [client?_modifyClient, if_neg hcd]
    exact hmodify c _

theorem unborn_moves {r r' : Registry} {walks : Prop} {types : List MessageType} {d : ClientID}
    (key : MessageKey) (hm : Moves walks types r r') (hw : ¬ walks) (hs : Sound r)
    (hd : r.client? d = none) :
    r'.client? d = none ∧ copies key d r'.sent = copies key d r.sent := by
  induction hm with
  | refl => exact ⟨hd, rfl⟩
  | tail hmoves hmove ih =>
    obtain ⟨hnone, hcopies⟩ := unborn_move key hmove hw (Moves.sound hmoves hs) ih.1
    exact ⟨hnone, hcopies.trans ih.2⟩

/-- The replay hands out what waits for the user of the connection. -/
theorem Held.replay (hs : Sound h.registry) (hheld : Held P messageID h) (env : Env)
    (c : ClientID) : Held P messageID (h.replay env c) := by
  have hmoves := (touches_replay hs env c).moves
  constructor
  · rintro d ⟨key, hid, hpos⟩
    have hburden : burden key d (h.replay env c) ≤ burden key d h := burden_replay hs env c
    by_cases hold : 0 < copies key d h.registry.sent + replayed key d h.registry
    · obtain ⟨code, hcode, hp⟩ := hheld.holders d ⟨key, hid, hold⟩
      exact ⟨code, hmoves.preserves (fun _ _ hmove hc => hmove.codeOf hc) hcode, hp⟩
    · -- the copy was in the offline queue before
      have hwait : h.awaits key d = true := by
        by_contra hnot
        rw [Bool.not_eq_true] at hnot
        unfold burden at hburden
        rw [hnot, Bool.toNat_false] at hburden
        omega
      obtain ⟨row, hrow, hmatch⟩ := List.any_eq_true.1 hwait
      rw [Bool.and_eq_true, beq_iff_eq] at hmatch
      have hp : P row.targetCode := hheld.waiting row hrow (by rw [← hid, ← hmatch.1]; rfl)
      cases hclient : h.registry.client? d with
      | some obj =>
        have hcode : h.registry.codeOf d = some obj.normalizedCode := by
          unfold codeOf
          rw [hclient]
          rfl
        rw [hcode, Option.all_some, beq_iff_eq] at hmatch
        rw [← hmatch.2] at hp
        exact ⟨_, hmoves.preserves (fun _ _ hmove hc => hmove.codeOf hc) hcode, hp⟩
      | none =>
        exfalso
        obtain ⟨hnone, hcopies⟩ := unborn_moves key hmoves (by decide) hs hclient
        have hzero : replayed key d (h.replay env c).registry = 0 := by
          unfold replayed
          rw [hnone]
          rfl
        rw [hcopies, hzero] at hpos
        omega
  · intro row hrow hid
    exact hheld.waiting row (offline_replay env c row hrow) hid

theorem not_live_of_unpublished (platform : Platform) (hs : Sound h.registry) {e : Event}
    (hquiet : Unpublished h (step platform h e)) (hreplay : ∀ c, e.input ≠ .replay c)
    {x : ClientID × Message} (hx : x ∈ sentBetween h (step platform h e)) :
    x.2.type ∉ liveTypes := by
  intro hlive
  have hsends : x.2.type ∈ e.input.sends := type_mem_sends platform hs hx
  have hpublic := mem_sentBetween hquiet.sent hx
  simp only [liveTypes, publicationTypes, List.mem_cons, List.not_mem_nil, or_false] at hlive hpublic
  rcases hlive with ht | ht | ht
  · exact hpublic (.inl ht)
  · exact hpublic (.inr (.inl ht))
  · exact offlineMessage_not_mem_sends hreplay (ht ▸ hsends)

theorem Held.unpublished (platform : Platform) (hs : Sound h.registry) {e : Event}
    (hlive : e.input.isRestart = false) (hquiet : Unpublished h (step platform h e))
    (hheld : Held P messageID h) : Held P messageID (step platform h e) := by
  by_cases hreplay : ∃ c, e.input = .replay c
  · obtain ⟨c, hinput⟩ := hreplay
    simp only [step, hinput]
    split
    · exact hheld.replay hs e.env c
    · exact hheld
  · have hother : ∀ c, e.input ≠ .replay c := fun c hc => hreplay ⟨c, hc⟩
    refine hheld.extend (step_touches platform hs e hlive).moves (offlineMessage_not_mem_sends hother)
      (fun x hx ht => ?_) fun row hrow => .inl (hquiet.offline row hrow)
    exact absurd ht (not_live_of_unpublished platform hs hquiet hother hx)

/-! ### Attempts -/

/-- The Hub goes on to deliver the attempt. -/
def relays (h : Hub) (env : Env) (a : Attempt) : Bool :=
  !h.offlineStore ||
    (h.isNew env a && !env.fails .pruneChatMessages && (a.sender h).isSome)

/-- The Hub takes the attempt for a message of its own, not for a retry. -/
def accepts (h : Hub) (env : Env) (a : Attempt) : Bool := !h.offlineStore || h.isNew env a

theorem accepts_of_relays {env : Env} {a : Attempt} (hr : h.relays env a = true) :
    h.accepts env a = true := by
  unfold relays at hr
  unfold accepts
  cases hstore : h.offlineStore with
  | false => rfl
  | true =>
    rw [hstore, Bool.not_true, Bool.false_or] at hr
    simp only [Bool.and_eq_true] at hr
    exact hr.1.1

/-- No copy goes out and no record changes. -/
structure Quiet (h k : Hub) : Prop where
  records : k.messageRecords = h.messageRecords
  sent : ∀ x ∈ sentBetween h k, x.2.type ∉ liveTypes
  offline : k.db.chat.offline = h.db.chat.offline

theorem Quiet.of_touches {types : List MessageType} {s : ChatStore}
    (a : Touches [] types (h.withChat s) k) (hoffline : s.offline = h.db.chat.offline)
    (htypes : ∀ t ∈ types, t ∉ liveTypes) : Quiet h k := by
  have hchat : k.db.chat = s := a.same .chat (by decide)
  refine ⟨a.same .records (by decide), fun x hx => ?_, by rw [hchat, hoffline]⟩
  exact htypes _ (mem_sentBetween (h := h.withChat s) a.moves.emits hx)

theorem RelayLog.of_withChat {s : ChatStore} {a : Attempt} (hl : RelayLog (h.withChat s) k a)
    (hoffline : s.offline = h.db.chat.offline) : RelayLog h k a := by
  refine ⟨hl.sent, fun row hrow => ?_, hl.other, ?_⟩
  · rw [← hoffline]
    exact hl.offline row hrow
  · refine hl.record.imp_right ?_
    rintro ⟨hrecords, hsent, hrows, hkind⟩
    refine ⟨hrecords, hsent, fun row hrow => ?_, hkind⟩
    rw [← hoffline]
    exact hrows row hrow

theorem Outcome.fate {platform : Platform} {env : Env} {a : Attempt} (hs : Sound h.registry)
    (hv : a.Valid h) (ho : Outcome platform env h a k) :
    (h.relays env a = false ∧ Quiet h k) ∨ (h.relays env a = true ∧ RelayLog h k a) := by
  have hnew : ∀ {row : ChatRow}, row ∈ h.db.chat.messages.rows → row.key = a.key h →
      h.isNew env a = false := by
    intro row hrow hkey
    have hfound : (h.db.chat.messages.rows.any fun row => row.key == a.key h) = true :=
      List.any_eq_true.2 ⟨row, hrow, beq_iff_eq.2 hkey⟩
    unfold isNew
    rw [hfound, Bool.not_true, Bool.and_false]
  cases ho with
  | unstored hstore hk =>
    refine .inr ⟨?_, hk ▸ relayLog platform hs env hv⟩
    unfold relays
    rw [hstore]
    rfl
  | refused hstore hk hwhy =>
    refine .inl ⟨?_, Quiet.of_touches (s := h.db.chat) hk rfl (by decide)⟩
    unfold relays isNew
    rw [hstore]
    rcases hwhy with hfails | hsender
    · rw [hfails]
      rfl
    · rw [hsender, Option.isSome_none, Bool.and_false]
      rfl
  | retried hstore row hrow hkey hk =>
    have htouch : Touches [] [.deliveryReceipt, .error] h k := by
      rw [hk]
      unfold answerRetry
      split
      · exact Touches.refl h
      split
      · exact Touches.refl h
      split
      · exact touches_deliverError (by decide) _ _ _ _
      · exact touches_tell (t := .deliveryReceipt) rfl (by decide)
    refine .inl ⟨?_, Quiet.of_touches (s := h.db.chat) htouch rfl (by decide)⟩
    unfold relays
    rw [hstore, hnew hrow hkey]
    rfl
  | unpruned hstore hfails hprune s hsender hsaved hk =>
    refine .inl ⟨?_, Quiet.of_touches hk hsaved.offline (by decide)⟩
    unfold relays
    rw [hstore, hprune, Bool.not_true, Bool.and_false]
    rfl
  | relayed hstore hfails hprune s hsender hsaved hk =>
    have hlog := relayLog platform (h := h.withChat s) hs env (hv.congr rfl)
    rw [← hk] at hlog
    refine .inr ⟨?_, hlog.of_withChat hsaved.offline⟩
    unfold relays
    rw [isNew_of_saved hstore hfails hsaved, hprune, Option.isSome_iff_ne_none.2 hsender]
    simp

/-- What an event does to copies and records. -/
theorem step_fate (platform : Platform) (hs : Sound h.registry) (e : Event) :
    (attempt? platform h e = none ∧ Unpublished h (step platform h e)) ∨
      ∃ a, attempt? platform h e = some a ∧ e.input.isRestart = false ∧
        (∀ c, e.input ≠ .replay c) ∧
        ((h.relays e.env a = false ∧ Quiet h (step platform h e)) ∨
          (h.relays e.env a = true ∧ RelayLog h (step platform h e) a)) := by
  rcases step_outcome platform hs e with hquiet | ⟨a, n, ha, hv, ho⟩
  · exact .inl hquiet
  · obtain ⟨c, m, limited, muted, hinput⟩ : ∃ c m limited muted,
        e.input = .frame c m limited muted := by
      unfold attempt? at ha
      split at ha
      · rename_i c m limited muted hinput
        exact ⟨c, m, limited, muted, hinput⟩
      · cases ha
    refine .inr ⟨a, ha, by rw [hinput]; rfl, by simp [hinput], ?_⟩
    rcases Outcome.fate (h := h.counted n) hs (hv.congr rfl) ho with ⟨hr, hq⟩ | ⟨hr, hl⟩
    · exact .inl ⟨hr, hq.records, hq.sent, hq.offline⟩
    · exact .inr ⟨hr, hl.sent, hl.offline, hl.other, hl.record⟩

/-! ### Runs -/

/-- The user is on record as a recipient of the message. -/
def OnRecord (h : Hub) (messageID code : String) : Prop :=
  ∃ record, h.messageRecords.lookup messageID = some record ∧ code ∈ record.recipients

/-- The recipients on record stay. -/
theorem recorded_unpublished (platform : Platform) (hs : Sound h.registry) {e : Event}
    (hlive : e.input.isRestart = false) (hnone : attempt? platform h e = none)
    {audience : List String} (hrec : Recorded h messageID audience) :
    Recorded (step platform h e) messageID audience := by
  obtain ⟨record, hrecord, hto⟩ := hrec
  rcases record_unpublished platform hs e hlive hnone messageID with hsame | ⟨record', hfor, hnew⟩
  · exact ⟨record, hsame.trans hrecord, hto⟩
  · rw [recordForRecall_of_lookup hrecord] at hfor
    obtain rfl := Option.some_injective _ hfor
    exact ⟨_, hnew, hto⟩

theorem onRecord_iff {code : String} :
    h.OnRecord messageID code ↔ ∃ audience, Recorded h messageID audience ∧ code ∈ audience := by
  constructor
  · rintro ⟨record, hrecord, hmem⟩
    exact ⟨_, ⟨record, hrecord, rfl⟩, hmem⟩
  · rintro ⟨audience, ⟨record, hrecord, rfl⟩, hmem⟩
    exact ⟨record, hrecord, hmem⟩

namespace Trace

variable {r : Trace} {n : ℕ}

/-- The attempt at the position is taken for a message of its own. -/
def Accepts (r : Trace) (i : ℕ) (a : Attempt) : Prop :=
  r.At i fun h e => attempt? r.platform h e = some a ∧ h.accepts e.env a = true

/-- The attempt at the position is delivered. -/
def Relays (r : Trace) (i : ℕ) (a : Attempt) : Prop :=
  r.At i fun h e => attempt? r.platform h e = some a ∧ h.relays e.env a = true

/-- At most one message is sent under the id. -/
def UniqueID (r : Trace) (messageID : String) : Prop :=
  ∀ i j a b, r.Accepts i a → r.Accepts j b → a.message.messageID = messageID →
    b.message.messageID = messageID → i = j

def NoRestart (r : Trace) : Prop := ∀ e ∈ r.events, e.input.isRestart = false

theorem Relays.accepts {i : ℕ} {a : Attempt} (hr : r.Relays i a) : r.Accepts i a := by
  obtain ⟨hn, ha, hrelays⟩ := hr
  exact ⟨hn, ha, accepts_of_relays hrelays⟩

/-- What is known of the message under an id before event number `n`. -/
structure Reach (r : Trace) (messageID : String) (n : ℕ) : Prop where
  held : Held ((r.hub n).OnRecord messageID) messageID (r.hub n)
  blank : (∀ i < n, ∀ a, r.Accepts i a → a.message.messageID ≠ messageID) →
    Held (fun _ => False) messageID (r.hub n)
  recorded : ∀ i < n, ∀ a, r.Relays i a → a.message.messageID = messageID →
    (a.identity (r.hub i)).kind = .room → Recorded (r.hub n) messageID (a.audience (r.hub i))
  origin : ∀ record, (r.hub n).messageRecords.lookup messageID = some record →
    record.recalled = false → ∃ i < n, ∃ a, r.Relays i a ∧ a.message.messageID = messageID ∧
      record.recipients = a.audience (r.hub i)

theorem reach_zero (messageID : String) : r.Reach messageID 0 := by
  have hblank : ∀ P : String → Prop, Held P messageID (r.hub 0) := by
    intro P
    constructor
    · rintro d ⟨key, -, hpos⟩
      exact absurd hpos (Nat.lt_irrefl 0)
    · intro row hrow
      cases hrow
  refine ⟨hblank _, fun _ => hblank _, fun i hi => absurd hi (Nat.not_lt_zero i), ?_⟩
  intro record hrecord
  cases hrecord

/-- An event that leaves the copies and the recipients on record. -/
theorem Reach.keep {messageID : String} (hi : r.Reach messageID n)
    (hkeep : ∀ P, Held P messageID (r.hub n) → Held P messageID (r.hub (n + 1)))
    (hrec : ∀ audience, Recorded (r.hub n) messageID audience →
      Recorded (r.hub (n + 1)) messageID audience)
    (horigin : ∀ record, (r.hub (n + 1)).messageRecords.lookup messageID = some record →
      record.recalled = false → (r.hub n).messageRecords.lookup messageID = some record)
    (hnone : ∀ a, r.Relays n a → a.message.messageID ≠ messageID) :
    r.Reach messageID (n + 1) := by
  refine ⟨(hkeep _ hi.held).mono fun code hcode => ?_, fun hfree => hkeep _ (hi.blank ?_), ?_, ?_⟩
  · obtain ⟨audience, haudience, hmem⟩ := onRecord_iff.1 hcode
    exact onRecord_iff.2 ⟨audience, hrec audience haudience, hmem⟩
  · exact fun i hlt => hfree i (by omega)
  · intro i hlt a hrelays hid hkind
    rcases Nat.lt_succ_iff_lt_or_eq.1 hlt with hlt | rfl
    · exact hrec _ (hi.recorded i hlt a hrelays hid hkind)
    · exact absurd hid (hnone a hrelays)
  · intro record hrecord hopen
    obtain ⟨i, hlt, a, hrelays⟩ := hi.origin record (horigin record hrecord hopen) hopen
    exact ⟨i, by omega, a, hrelays⟩

theorem reach_hub (hlive : r.NoRestart) {messageID : String} (hunique : r.UniqueID messageID)
    (hn : n ≤ r.events.length) : r.Reach messageID n := by
  induction n with
  | zero => exact reach_zero messageID
  | succ n ih =>
    have hlt : n < r.events.length := hn
    have hi := ih hlt.le
    have hs := sound_hub (r := r) n
    have hrestart := hlive _ (List.getElem_mem hlt)
    have hattempt : ∀ {a b}, attempt? r.platform (r.hub n) r.events[n] = some a → r.Relays n b →
        b = a := by
      rintro a b ha ⟨_, hb, _⟩
      exact Option.some_injective _ (hb.symm.trans ha)
    rcases step_fate r.platform hs r.events[n] with
      ⟨hnone, hquiet⟩ | ⟨a, ha, -, hreplay, ⟨hr, hq⟩ | ⟨hr, hl⟩⟩
    · rw [← hub_succ hlt] at hquiet
      refine hi.keep (fun P hheld => ?_) (fun audience hrec => ?_) ?_ ?_
      · rw [hub_succ hlt] at hquiet ⊢
        exact hheld.unpublished r.platform hs hrestart hquiet
      · rw [hub_succ hlt]
        exact recorded_unpublished r.platform hs hrestart hnone hrec
      · intro record hrecord hopen
        rw [hub_succ hlt] at hrecord
        rcases record_unpublished r.platform hs r.events[n] hrestart hnone messageID with
          hsame | ⟨record', -, hnew⟩
        · exact hsame.symm.trans hrecord
        · obtain rfl := Option.some_injective _ (hrecord.symm.trans hnew)
          cases hopen
      · rintro b ⟨_, hb, _⟩
        rw [hnone] at hb
        cases hb
    all_goals
      have hmoves := (step_touches r.platform hs r.events[n] hrestart).moves
      have hsends := offlineMessage_not_mem_sends hreplay
    · rw [← hub_succ hlt] at hq hmoves
      refine hi.keep (fun P hheld => ?_) (fun audience hrec => ?_) ?_ ?_
      · exact hheld.extend hmoves hsends (fun x hx ht => absurd ht (hq.sent x hx))
          fun row hrow => .inl (hq.offline ▸ hrow)
      · obtain ⟨record, hrecord, hto⟩ := hrec
        exact ⟨record, by rw [hq.records]; exact hrecord, hto⟩
      · intro record hrecord _
        rwa [hq.records] at hrecord
      · rintro b hb
        obtain rfl := hattempt ha hb
        obtain ⟨_, _, hyes⟩ := hb
        rw [hr] at hyes
        cases hyes
    · rw [← hub_succ hlt] at hl hmoves
      by_cases hid : a.message.messageID = messageID
      · -- the first and only message under the id
        have haccepts : r.Accepts n a := ⟨hlt, ha, accepts_of_relays hr⟩
        have hfirst : ∀ i < n, ∀ b, r.Accepts i b → b.message.messageID ≠ messageID := by
          intro i hi' b hb hbid
          have heq := hunique i n b a hb haccepts hbid hid
          omega
        have hblank := hi.blank hfirst
        have hnotblank : ¬ ∀ i < n + 1, ∀ b, r.Accepts i b → b.message.messageID ≠ messageID :=
          fun hall => hall n (Nat.lt_succ_self n) a haccepts hid
        have hearlier : ∀ i < n, ∀ b, r.Relays i b → b.message.messageID = messageID → False :=
          fun i hi' b hb hbid => hfirst i hi' b hb.accepts hbid
        rcases hl.record with hrecorded | ⟨hrecords, hsent, hrows, hkind⟩
        · rw [hid] at hrecorded
          refine ⟨?_, fun hall => absurd hall hnotblank, ?_, ?_⟩
          · refine (hblank.mono fun _ hf => hf.elim).extend hmoves hsends (fun x hx ht _ => ?_)
              fun row hrow => ?_
            · obtain ⟨-, code, hmem, hcode⟩ := hl.sent x hx ht
              exact ⟨code, hcode, onRecord_iff.2 ⟨_, hrecorded, hmem⟩⟩
            · exact (hl.offline row hrow).imp_right
                fun hnew _ => onRecord_iff.2 ⟨_, hrecorded, hnew.2⟩
          · intro i hi' b hb hbid hbkind
            rcases Nat.lt_succ_iff_lt_or_eq.1 hi' with hi' | rfl
            · exact (hearlier i hi' b hb hbid).elim
            · rw [hattempt ha hb]
              exact hrecorded
          · intro record hrecord _
            obtain ⟨record', hrecord', hto⟩ := hrecorded
            obtain rfl := Option.some_injective _ (hrecord.symm.trans hrecord')
            exact ⟨n, Nat.lt_succ_self n, a, ⟨hlt, ha, hr⟩, hid, hto⟩
        · have hstill : ∀ P, Held P messageID (r.hub (n + 1)) := by
            intro P
            exact (hblank.mono fun _ hf => hf.elim).extend hmoves hsends
              (fun x hx ht => absurd ht (hsent x hx)) fun row hrow => .inl (hrows row hrow)
          refine ⟨hstill _, fun _ => hstill _, ?_, ?_⟩
          · intro i hi' b hb hbid hbkind
            rcases Nat.lt_succ_iff_lt_or_eq.1 hi' with hi' | rfl
            · exact (hearlier i hi' b hb hbid).elim
            · rw [hattempt ha hb, hkind] at hbkind
              cases hbkind
          · intro record hrecord hopen
            rw [hrecords] at hrecord
            obtain ⟨i, hi', b, hb, hbid, -⟩ := hi.origin record hrecord hopen
            exact (hearlier i hi' b hb hbid).elim
      · have hsame := hl.other messageID (Ne.symm hid)
        refine hi.keep (fun P hheld => ?_) (fun audience hrec => ?_) ?_ ?_
        · refine hheld.extend hmoves hsends (fun x hx ht hxid => ?_) fun row hrow => ?_
          · exact absurd ((hl.sent x hx ht).1.symm.trans hxid) hid
          · exact (hl.offline row hrow).imp_right
              fun hnew hrid => absurd (hnew.1.symm.trans hrid) hid
        · obtain ⟨record, hrecord, hto⟩ := hrec
          exact ⟨record, hsame.trans hrecord, hto⟩
        · intro record hrecord _
          exact hsame.symm.trans hrecord
        · rintro b hb
          rw [hattempt ha hb]
          exact hid

/-! ### History pages -/

/-- The row was stored for a message that was accepted earlier. -/
def Comes (r : Trace) (n : ℕ) (row : ChatRow) : Prop :=
  ∃ i < n, ∃ a, r.Accepts i a ∧ row.key = a.key (r.hub i) ∧
    row.kind = (a.identity (r.hub i)).kind ∧ row.targetCode = (a.identity (r.hub i)).targetCode

theorem Comes.mono {row : ChatRow} {m : ℕ} (hc : r.Comes n row) (hnm : n ≤ m) : r.Comes m row := by
  obtain ⟨i, hi, hrest⟩ := hc
  exact ⟨i, hi.trans_le hnm, hrest⟩

theorem comes_hub (hn : n ≤ r.events.length) :
    ∀ row ∈ (r.hub n).db.chat.messages.rows, r.Comes n row := by
  induction n with
  | zero =>
    intro row hrow
    cases hrow
  | succ n ih =>
    intro row hrow
    have hlt : n < r.events.length := hn
    have hfixed : ∀ base, row.fixed = base.fixed → base ∈ (r.hub n).db.chat.messages.rows →
        r.Comes (n + 1) row := by
      intro base hfix hbase
      obtain ⟨i, hi, a, ha, hkey, hkind, htarget⟩ := ih hlt.le base hbase
      refine ⟨i, by omega, a, ha, ?_, ?_, ?_⟩
      · rw [ChatRow.fixed_key hfix, hkey]
      · rw [ChatRow.fixed_kind hfix, hkind]
      · rw [ChatRow.fixed_targetCode hfix, htarget]
    rw [hub_succ hlt] at hrow
    rcases step_outcome r.platform (sound_hub n) r.events[n] with ⟨-, hquiet⟩ | ⟨a, m, ha, hv, ho⟩
    · obtain ⟨base, hbase, hfix, -⟩ := hquiet.rows row hrow
      exact hfixed base hfix hbase
    · obtain ⟨base, hfix, hbase | ⟨rfl, hnew, -⟩⟩ := ho.rows hrow
      · exact hfixed base hfix hbase
      · have haccepts : (r.hub n).accepts r.events[n].env a = true := by
          have hnew' : (r.hub n).isNew r.events[n].env a = true := hnew
          unfold accepts
          rw [hnew', Bool.or_true]
        refine ⟨n, Nat.lt_succ_self n, a, ⟨hlt, ha, haccepts⟩, ?_, ?_, ?_⟩
        · rw [ChatRow.fixed_key hfix, key_row]
          rfl
        · rw [ChatRow.fixed_kind hfix]
          rfl
        · rw [ChatRow.fixed_targetCode hfix]
          rfl

/-- The job asks for the user of its client. -/
def AsksFor (h : Hub) (job : HistoryJob) : Prop :=
  JobOf job ∧ ∃ code, h.registry.codeOf job.client = some code ∧
    normalizeUserCode job.query.userCode = .ok code

/-- The rows of the page are of the conversation that the job asks about. -/
def PageRows (r : Trace) (n : ℕ) (job : HistoryJob) (page : HistoryPage) : Prop :=
  ∀ row ∈ page.rows, r.Comes n row ∧ ∃ kind key, queryConversation job.query = .ok (kind, key) ∧
    row.inConversation kind key = true

theorem asksFor_step (platform : Platform) {h : Hub} (hs : Sound h.registry) (e : Event)
    {job : HistoryJob} (hjob : AsksFor h job) : AsksFor (step platform h e) job := by
  obtain ⟨hquery, code, hcode, huser⟩ := hjob
  exact ⟨hquery, code, codeOf_step platform hs e hcode, huser⟩

theorem asksFor_of_granted {h : Hub} (hs : Sound h.registry) {job : HistoryJob}
    (hg : Granted h job) : AsksFor h job := by
  obtain ⟨obj, hobj, huser⟩ := hg.user
  refine ⟨hg.query, obj.normalizedCode, ?_, ?_⟩
  · unfold codeOf
    rw [hobj]
    rfl
  · rw [huser]
    exact (hs.valid obj (client?_mem hobj)).code

theorem PageRows.mono {job : HistoryJob} {page : HistoryPage} {m : ℕ} (hp : r.PageRows n job page)
    (hnm : n ≤ m) : r.PageRows m job page := by
  intro row hrow
  obtain ⟨hcomes, hconv⟩ := hp row hrow
  exact ⟨hcomes.mono hnm, hconv⟩

/-- What is known of requests, results and responses. -/
structure Paged (r : Trace) (n : ℕ) : Prop where
  jobs : ∀ job ∈ (r.hub n).pendingJobs, AsksFor (r.hub n) job
  results : ∀ result ∈ (r.hub n).historyResults, ∀ page, result.page = .ok page →
    r.PageRows n result.job page
  sent : ∀ d x, (d, x) ∈ (r.hub n).registry.sent → x.type = .historyResponse →
    ∃ job page, x = historyResponse job page ∧ job.client = d ∧ AsksFor (r.hub n) job ∧
      r.PageRows n job page

theorem paged_hub (hn : n ≤ r.events.length) : r.Paged n := by
  induction n with
  | zero =>
    refine ⟨?_, ?_, ?_⟩
    · intro job hjob
      cases hjob
    · intro result hresult
      cases hresult
    · intro d x hx
      cases hx
  | succ n ih =>
    have hlt : n < r.events.length := hn
    have hi := ih hlt.le
    have hs := sound_hub (r := r) n
    obtain ⟨hjobs, hresults⟩ := pendingJobs_step r.platform hs r.events[n]
    have hasks : ∀ {job}, AsksFor (r.hub n) job → AsksFor (r.hub (n + 1)) job := by
      intro job hjob
      rw [hub_succ hlt]
      exact asksFor_step r.platform hs r.events[n] hjob
    have hpending : ∀ {result}, result ∈ (r.hub n).historyResults →
        AsksFor (r.hub n) result.job := fun hresult =>
      hi.jobs _ (mem_pendingJobs.2 (.inr (.inr ⟨_, hresult, rfl⟩)))
    refine ⟨fun job hjob => ?_, fun result hresult page hpage => ?_, fun d x hx ht => ?_⟩
    · rw [hub_succ hlt] at hjob
      rcases hjobs job hjob with hold | hgranted
      · exact hasks (hi.jobs job hold)
      · exact hasks (asksFor_of_granted hs hgranted)
    · rw [hub_succ hlt] at hresult
      rcases hresults result hresult with hold | ⟨-, hload⟩
      · exact (hi.results result hold page hpage).mono (Nat.le_succ n)
      · obtain ⟨kind, key, hquery, hrows⟩ := loadHistory_rows (hload page hpage)
        intro row hrow
        obtain ⟨hmem, hconv⟩ := hrows row hrow
        exact ⟨(comes_hub hlt.le row hmem).mono (Nat.le_succ n), kind, key, hquery, hconv⟩
    · obtain ⟨out, hout⟩ := sent_step r.platform hs r.events[n]
      rw [hub_succ hlt, hout] at hx
      rcases List.mem_append.1 hx with hold | hnew
      · obtain ⟨job, page, hx', hclient, hjob, hrows⟩ := hi.sent d x hold ht
        exact ⟨job, page, hx', hclient, hasks hjob, hrows.mono (Nat.le_succ n)⟩
      · obtain ⟨result, hresult, page, hpage, hclient, hx'⟩ :=
          step_historyResponse r.platform hs ((mem_sentBetween_iff hout).2 hnew) ht
        exact ⟨result.job, page, hx', hclient, hasks (hpending hresult),
          (hi.results result hresult page hpage).mono (Nat.le_succ n)⟩

/-! ### Recalls -/

/-- The user had a session in the room as the chat was relayed. -/
def Present (h : Hub) (a : Attempt) (code : String) : Prop :=
  ∃ c ∈ h.registry.roomClients (h.senderRoom (h.senderOf a.message.userCode)),
    h.registry.codeOf c = some code

/-- The connection has seen the message in a way that a recall answers for. -/
inductive Reached (r : Trace) (n : ℕ) (messageID : String) (d : ClientID) : Prop
  | live (x : Message) (hx : (d, x) ∈ (r.hub n).registry.sent) (ht : x.type ∈ liveTypes)
      (hid : x.messageID = messageID)
  | privatePage (x : Message) (hx : (d, x) ∈ (r.hub n).registry.sent)
      (ht : x.type = .historyResponse) (hpage : ∃ y ∈ x.messages, y.messageID = messageID)
      (hprivate : x.isPrivate = true)
  | roomPage (x : Message) (hx : (d, x) ∈ (r.hub n).registry.sent)
      (ht : x.type = .historyResponse) (hpage : ∃ y ∈ x.messages, y.messageID = messageID)
      (i : ℕ) (hi : i < n) (a : Attempt) (hrelays : r.Relays i a)
      (hid : a.message.messageID = messageID) (hkind : (a.identity (r.hub i)).kind = .room)
      (code : String) (hcode : (r.hub n).registry.codeOf d = some code)
      (hpresent : Present (r.hub i) a code)
  | unrelayedPage (x : Message) (hx : (d, x) ∈ (r.hub n).registry.sent)
      (ht : x.type = .historyResponse) (hpage : ∃ y ∈ x.messages, y.messageID = messageID)
      (hroom : x.isPrivate = false)
      (hnever : ∀ i < n, ∀ a, r.Relays i a → a.message.messageID ≠ messageID)
      (hmember : d ∈ (r.hub n).registry.members x.room)

/-- Without a record in memory the stored row decides. -/
theorem recordForRecall_stored {h : Hub} {env : Env} {messageID : String} {record : MessageRecord}
    (hnone : h.messageRecords.lookup messageID = none)
    (hrecord : h.recordForRecall env messageID = some record) :
    ∃ stored ∈ h.db.chat.messages.rows, stored.messageID = messageID ∧
      record.recipients = match stored.kind with
        | .privateChat => [asciiLower stored.senderCode, stored.targetCode]
        | .room => h.registry.recipientCodes (h.registry.roomClients stored.room) := by
  unfold recordForRecall at hrecord
  rw [hnone] at hrecord
  dsimp only at hrecord
  split at hrecord
  · split at hrecord
    · rename_i stored hstored
      obtain rfl := Option.some_injective _ hrecord
      have hcall := (call_eq_ok.1 hstored).2
      unfold getStoredMessage at hcall
      split at hcall
      · rename_i row hfound
        obtain rfl := Except.ok.inj hcall
        have hmatch := List.find?_some hfound
        exact ⟨row, List.mem_reverse.1 (List.mem_of_find?_eq_some hfound), beq_iff_eq.1 hmatch, rfl⟩
      · cases hcall
    · cases hrecord
  · cases hrecord

/-- Under a unique id there is one attempt. -/
theorem UniqueID.eq {messageID : String} (hunique : r.UniqueID messageID) {i j : ℕ}
    {a b : Attempt} (ha : r.Accepts i a) (hb : r.Accepts j b)
    (haid : a.message.messageID = messageID) (hbid : b.message.messageID = messageID) :
    i = j ∧ a = b := by
  obtain rfl := hunique i j a b ha hb haid hbid
  obtain ⟨_, ha, _⟩ := ha
  obtain ⟨_, hb, _⟩ := hb
  exact ⟨rfl, Option.some_injective _ (ha.symm.trans hb)⟩

/-- The row of a message with a private conversation is of a private attempt between its parties. -/
theorem Comes.parties {row : ChatRow} (hc : r.Comes n row) (hkind : row.kind = .privateChat) :
    ∃ i < n, ∃ a, r.Accepts i a ∧ a.message.messageID = row.messageID ∧
      (a.identity (r.hub i)).kind = .privateChat ∧
      a.audience (r.hub i) = [asciiLower row.senderCode, row.targetCode] ∧
      ∀ c p, row.conversationKey = privateConversationKey c p → c ∈ a.audience (r.hub i) := by
  obtain ⟨i, hi, a, ha, hkey, hakind, htarget⟩ := hc
  have hvalid : a.Valid (r.hub i) := by
    obtain ⟨_, ha, _⟩ := ha
    exact attempt_valid (sound_hub i) ha
  obtain ⟨hsender, hconv, hid⟩ := key_eq_iff.1 hkey
  rw [hkind] at hakind
  refine ⟨i, hi, a, ha, hid.symm, hakind.symm, ?_⟩
  cases hvalid with
  | chat => cases hakind
  | @privateChat c obj target tracking message hc hobj hvalid hnorm hne ht hmid hcode hto hcontent
      hcrypto hstate =>
    have hsender' : row.senderCode = obj.normalizedCode := hsender
    have htarget' : row.targetCode = target := htarget
    have hown := normalizeUserCode_idem hvalid.code
    constructor
    · rw [hsender', htarget', ← (normalizeUserCode_eq_ok.1 hown).2]
      rfl
    · intro c p heq
      refine mem_of_privateConversationKey hown hnorm (p := p) ?_
      rw [← heq, hconv]
      rfl

theorem historyInv_hub (n : ℕ) : HistoryInv (r.hub n) := by
  have hboth : Sound (r.hub n).registry ∧ HistoryInv (r.hub n) :=
    r.invariant (I := fun h => Sound h.registry ∧ HistoryInv h)
      ⟨sound_start _ _, historyInv_start _ _⟩
      (fun h e hi => ⟨sound_step _ h e hi.1, historyInv_step _ hi.1 e hi.2⟩) n
  exact hboth.2

/-- A recall is told to every connection with a free place that has seen the message live, in a
page of a private conversation, or in a page of the room when its user was there at the time. -/
theorem recall_reaches (r : Trace) (hlive : r.NoRestart) (n : ℕ) (messageID : String)
    (hunique : r.UniqueID messageID)
    (hsucc : r.At n fun h e => RecallSucceeds r.platform h e messageID) (d : ClientID)
    (hd : d ∈ (r.hub n).registry.clients) (hspace : (r.hub n).registry.hasSpace d = true)
    (hreached : r.Reached n messageID d) :
    ∃ x, (d, x) ∈ sentBetween (r.hub n) (r.hub (n + 1)) ∧ x.type = .messageRecalled ∧
      x.messageID = messageID := by
  obtain ⟨hn, hsucc⟩ := hsucc
  have hs := sound_hub (r := r) n
  have hreach := reach_hub hlive hunique hn.le
  have hpaged := paged_hub (r := r) hn.le
  obtain ⟨record, commandID, hrecord, hopen, htold⟩ := hsucc.told hs
  obtain ⟨code, hcode, hne⟩ := codeOf_connected hs hd
  suffices hmem : code ∈ record.recipients by
    rw [hub_succ hn]
    exact ⟨_, htold d code hd hspace hcode hmem, rfl, rfl⟩
  have hrecorded : ∀ {audience}, Recorded (r.hub n) messageID audience →
      record.recipients = audience := by
    rintro audience ⟨record', hrecord', hto⟩
    rw [recordForRecall_of_lookup hrecord'] at hrecord
    obtain rfl := Option.some_injective _ hrecord
    exact hto
  cases hreached with
  | live x hx ht hid =>
    obtain ⟨key, hkey, hkid⟩ := exists_liveKey ht
    have hpos : 0 < copies key d (r.hub n).registry.sent := copies_pos.2 ⟨x, hx, hkey⟩
    obtain ⟨code', hcode', hon⟩ := hreach.held.holders d ⟨key, hkid.trans hid, by omega⟩
    obtain rfl := Option.some_injective _ (hcode.symm.trans hcode')
    obtain ⟨audience, haudience, hmem⟩ := onRecord_iff.1 hon
    rw [hrecorded haudience]
    exact hmem
  | privatePage x hx ht hpage hprivate =>
    obtain ⟨job, page, hxjob, hclient, ⟨hjob, code', hjcode, huser⟩, hrows⟩ :=
      hpaged.sent d x hx ht
    obtain ⟨y, hy, hyid⟩ := hpage
    rw [hxjob] at hy hprivate
    obtain ⟨row, hrow, rfl⟩ := List.mem_map.1 hy
    obtain ⟨hcomes, kind, key, hquery, hconv⟩ := hrows row hrow
    have hqprivate : job.query.isPrivate = true := hjob.isPrivate.trans hprivate
    obtain ⟨rfl, user, peer, huser', -, rfl⟩ := queryConversation_private hqprivate hquery
    simp only [ChatRow.inConversation, Bool.and_eq_true, beq_iff_eq] at hconv
    rw [hclient, hcode] at hjcode
    obtain rfl := Option.some_injective _ hjcode
    obtain rfl := Except.ok.inj (huser.symm.trans huser')
    have hrowid : row.messageID = messageID := hyid
    obtain ⟨i, hi, a, ha, haid, hakind, haudience, hparty⟩ := hcomes.parties hconv.1
    have hcodemem := hparty _ _ hconv.2
    cases hlookup : (r.hub n).messageRecords.lookup messageID with
    | some record' =>
      have heq : record' = record := by
        rw [recordForRecall_of_lookup hlookup] at hrecord
        exact Option.some_injective _ hrecord
      obtain ⟨j, hj, b, hb, hbid, hto⟩ := hreach.origin record' hlookup (by rw [heq]; exact hopen)
      obtain ⟨rfl, rfl⟩ := hunique.eq ha hb.accepts (haid.trans hrowid) hbid
      rw [← heq, hto]
      exact hcodemem
    | none =>
      obtain ⟨stored, hstored, hsid, hto⟩ := recordForRecall_stored hlookup hrecord
      obtain ⟨j, hj, b, hb, hbkey, hbkind, -⟩ := comes_hub hn.le stored hstored
      have hbid : b.message.messageID = messageID := (key_eq_iff.1 hbkey).2.2.symm.trans hsid
      obtain ⟨rfl, rfl⟩ := hunique.eq ha hb (haid.trans hrowid) hbid
      have hskind : stored.kind = .privateChat := hbkind.trans hakind
      obtain ⟨l, hl, c, hc, hcid, -, hcaudience, -⟩ :=
        (comes_hub hn.le stored hstored).parties hskind
      obtain ⟨rfl, rfl⟩ := hunique.eq ha hc (haid.trans hrowid) (hcid.trans hsid)
      rw [hto, hskind]
      dsimp only
      rw [← hcaudience]
      exact hcodemem
  | roomPage x hx ht hpage i hi a hrelays hid hkind code' hcode' hpresent =>
    rw [hrecorded (hreach.recorded i hi a hrelays hid hkind)]
    obtain ⟨c, hc, hccode⟩ := hpresent
    obtain rfl := Option.some_injective _ (hcode.symm.trans hcode')
    cases a with
    | chat tracking message => exact mem_recipientCodes hc hccode hne
    | privateChat => cases hkind
  | unrelayedPage x hx ht hpage hroom hnever hmember =>
    obtain ⟨job, page, hxjob, -, ⟨hjob, -⟩, hrows⟩ := hpaged.sent d x hx ht
    obtain ⟨y, hy, hyid⟩ := hpage
    rw [hxjob] at hy hroom hmember
    obtain ⟨row, hrow, rfl⟩ := List.mem_map.1 hy
    obtain ⟨⟨i, hi, a, ha, hkey, hkind, -⟩, kind, key, hquery, hconv⟩ := hrows row hrow
    obtain ⟨rfl, rfl⟩ := queryConversation_public (hjob.isPrivate.trans hroom) hquery
    simp only [ChatRow.inConversation, Bool.and_eq_true, beq_iff_eq] at hconv
    have haid : a.message.messageID = messageID := (key_eq_iff.1 hkey).2.2.symm.trans hyid
    cases hlookup : (r.hub n).messageRecords.lookup messageID with
    | some record' =>
      have heq : record' = record := by
        rw [recordForRecall_of_lookup hlookup] at hrecord
        exact Option.some_injective _ hrecord
      obtain ⟨j, hj, b, hb, hbid, -⟩ := hreach.origin record' hlookup (by rw [heq]; exact hopen)
      exact absurd hbid (hnever j hj b hb)
    | none =>
      obtain ⟨stored, hstored, hsid, hto⟩ := recordForRecall_stored hlookup hrecord
      obtain ⟨j, hj, b, hb, hbkey, hbkind, -⟩ := comes_hub hn.le stored hstored
      have hbid : b.message.messageID = messageID := (key_eq_iff.1 hbkey).2.2.symm.trans hsid
      obtain ⟨rfl, rfl⟩ := hunique.eq ha hb haid hbid
      have hskind : stored.kind = .room := hbkind.trans (hkind.symm.trans hconv.1)
      have hplace : stored.room = job.room := by
        rw [(historyInv_hub n).named stored hstored hskind, (key_eq_iff.1 hbkey).2.1,
          ← (key_eq_iff.1 hkey).2.1, hconv.2]
        exact hjob.room hroom
      rw [hto, hskind]
      dsimp only
      refine mem_recipientCodes ?_ hcode hne
      rw [hplace]
      unfold roomClients
      split_ifs
      · exact hd
      · exact hmember

/-- Carol is in a room of her own and reads the history of the lobby, where Alice has written; then
Alice recalls her message. -/
def readElsewhere : Trace where
  platform := samplePlatform
  adminCode := ""
  offlineStore := true
  events := sessionEvents 0 "Alice" "alice" ++ sessionEvents 1 "Carol" "carol" ++
    [frameEvent 1 { type := .roomCreate, room := "den" },
      frameEvent 0 { type := .chat, messageID := "m1", content := "hello" },
      frameEvent 1 { type := .historyRequest, room := "lobby" }, ⟨.takeHistoryJob, {}⟩,
      ⟨.runHistoryJob, {}⟩, ⟨.historyResult, {}⟩, frameEvent 0 recallFrame]

theorem readElsewhere_noRestart : readElsewhere.NoRestart := by
  unfold NoRestart
  decide

theorem readElsewhere_uniqueID : readElsewhere.UniqueID "m1" := by
  have honly : ∀ n (hn : n < readElsewhere.events.length),
      (attempt? readElsewhere.platform (readElsewhere.hub n) readElsewhere.events[n]).any (fun a =>
        a.message.messageID == "m1") = true → n = 7 := by decide +kernel
  have hseven : ∀ {i a}, readElsewhere.Accepts i a → a.message.messageID = "m1" → i = 7 := by
    rintro i a ⟨hi, ha, _⟩ hid
    refine honly i hi ?_
    rw [ha, Option.any_some, hid]
    rfl
  intro i j a b ha hb haid hbid
  rw [hseven ha haid, hseven hb hbid]

theorem readElsewhere_recall :
    readElsewhere.At 12 (RecallSucceeds readElsewhere.platform · · "m1") :=
  ⟨by decide, recallSucceeds_recallFrame (by decide +kernel) (by decide +kernel)⟩

/-- Alice, who got her own chat, is told. -/
theorem recall_reaches_readElsewhere :
    ∃ x, (0, x) ∈ sentBetween (readElsewhere.hub 12) (readElsewhere.hub 13) ∧
      x.type = .messageRecalled ∧ x.messageID = "m1" := by
  have hsent : (readElsewhere.hub 12).registry.sent.any (fun x => x.1 == 0 &&
      liveTypes.contains x.2.type && x.2.messageID == "m1") = true := by decide +kernel
  obtain ⟨⟨d, x⟩, hx, hmatch⟩ := List.any_eq_true.1 hsent
  have hlive : (d = 0 ∧ x.type ∈ liveTypes) ∧ x.messageID = "m1" := by simpa using hmatch
  obtain ⟨⟨rfl, ht⟩, hid⟩ := hlive
  exact recall_reaches readElsewhere readElsewhere_noRestart 12 "m1" readElsewhere_uniqueID
    readElsewhere_recall 0 (by decide +kernel) (by decide +kernel) (.live x hx ht hid)

/-- Carol has read the message and is not told. -/
theorem recall_misses_reader :
    ¬ ∀ (r : Trace) (n : ℕ) (messageID : String) (d : ClientID), r.NoRestart →
      r.UniqueID messageID → (r.At n fun h e => RecallSucceeds r.platform h e messageID) →
      d ∈ (r.hub n).registry.clients → (r.hub n).registry.hasSpace d = true →
      (∃ x, (d, x) ∈ (r.hub n).registry.sent ∧
        ((x.type ∈ liveTypes ∧ x.messageID = messageID) ∨
          (x.type = .historyResponse ∧ ∃ y ∈ x.messages, y.messageID = messageID))) →
      ∃ x, (d, x) ∈ sentBetween (r.hub n) (r.hub (n + 1)) ∧ x.type = .messageRecalled ∧
        x.messageID = messageID := by
  intro hclaim
  have hread : (readElsewhere.hub 12).registry.sent.any (fun x => x.1 == 1 &&
      x.2.type == .historyResponse && x.2.messages.any fun y => y.messageID == "m1") = true := by
    decide +kernel
  obtain ⟨⟨d, x⟩, hx, hmatch⟩ := List.any_eq_true.1 hread
  simp only [Bool.and_eq_true, beq_iff_eq, List.any_eq_true] at hmatch
  obtain ⟨⟨rfl, ht⟩, y, hy, hid⟩ := hmatch
  obtain ⟨z, hz, hzt, -⟩ := hclaim readElsewhere 12 "m1" 1 readElsewhere_noRestart
    readElsewhere_uniqueID readElsewhere_recall (by decide +kernel) (by decide +kernel)
    ⟨x, hx, .inr ⟨ht, y, hy, hid⟩⟩
  have hnone : (sentBetween (readElsewhere.hub 12) (readElsewhere.hub 13)).all (fun x =>
      !(x.1 == 1 && x.2.type == .messageRecalled)) = true := by decide +kernel
  have hno := List.all_eq_true.1 hnone (1, z) hz
  simp [hzt] at hno

end Trace

end Hub

end LanChat
