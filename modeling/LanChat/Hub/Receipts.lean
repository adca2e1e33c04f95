import LanChat.Hub.Routes
import LanChat.Store.Conversations

/-!
# What a receipt for a private chat is worth

`handlePrivateMessage` stores the row of a message first and looks for its target after that.  When
it then fails, the row stays, and the next attempt under the id is taken for a retry of a message
that was sent; and the echo goes out before the target's queue is tried.

* `PlacedIn`: the message is in a send queue of the target or in its offline queue;
* `lost`: the attempt leaves a row without a place, as far as the state before it says;
* `Trace.ReceiptsSound`: whoever gets an echo or a receipt has a message with a place;
* `Trace.receipts_sound`: it holds in every run without an echo for a full target and without a
  tracked retry of a lost attempt.
-/

namespace LanChat

namespace Hub

open GoStrings Registry ChatStore EventMachine

variable {h k : Hub}

/-- The private message went into a send queue of the target, or is in its offline queue. -/
def PlacedIn (h : Hub) (sender target messageID : String) : Prop :=
  (∃ d x, (d, x) ∈ h.registry.sent ∧ h.registry.codeOf d = some target ∧ x.type = .privateChat ∧
    asciiLower x.userCode = sender ∧ x.messageID = messageID) ∨
  ∃ row ∈ h.db.chat.offline.rows, row.targetCode = target ∧ asciiLower row.senderCode = sender ∧
    row.messageID = messageID

/-- The message would find a place: in the queue of the target's session once the echo is in the
sender's, or in the offline queue of an account. -/
def findsPlace (h : Hub) (env : Env) (c : ClientID) (target messageID : String) : Bool :=
  match h.registry.active? target with
  | some t => h.registry.hasSpace c && h.registry.hasSpace t
  | none => h.offlineStore && h.targetKnown env target && !env.fails .saveOfflineMessage &&
      !h.db.chat.offline.rows.any fun row => row.messageID == messageID

/-- A private attempt that leaves a row and no message. -/
def lost (h : Hub) (env : Env) (a : Attempt) : Bool :=
  match a with
  | .chat _ _ => false
  | .privateChat c _ target _ message => h.isNew env a &&
      (env.fails .pruneChatMessages || !h.findsPlace env c target message.messageID)

/-- A private attempt whose echo goes out although the target's queue is full. -/
def echoOnly (h : Hub) (env : Env) (a : Attempt) : Bool :=
  match a with
  | .chat _ _ => false
  | .privateChat c _ target _ _ =>
    (!h.offlineStore || (h.isNew env a && !env.fails .pruneChatMessages)) &&
      (h.registry.active? target).any fun t => h.registry.hasSpace c && !h.registry.hasSpace t

/-! ### One attempt -/

section Route

variable {env : Env} {c : ClientID} {obj : Client} {target : String} {tracking : Bool}
  {message : Message}

/-- The echo or a receipt of the attempt. -/
def Answers (c : ClientID) (x : ClientID × Message) : Prop :=
  x.1 = c ∧ (x.2.type = .privateChat ∨ x.2.type = .deliveryReceipt)

theorem not_answers_of_error {x : ClientID × Message} (hx : x.2.type = .error) : ¬ Answers c x := by
  rintro ⟨-, ht | ht⟩
  · rw [hx] at ht
    cases ht
  · rw [hx] at ht
    cases ht

theorem placedIn_of_sent {d : ClientID} {out : List (ClientID × Message)} {x : Message}
    (hsent : k.registry.sent = h.registry.sent ++ out) (hx : (d, x) ∈ out)
    (hcode : k.registry.codeOf d = some target) (ht : x.type = .privateChat) :
    PlacedIn k (asciiLower x.userCode) target x.messageID := by
  refine .inl ⟨d, x, ?_, hcode, ht, rfl, rfl⟩
  rw [hsent]
  exact List.mem_append_right _ hx

/-- A routed private chat has a place whenever it found one, and whenever its sender hears of it but
for the echo of a message to a full queue. -/
theorem placed_routePrivate (hs : Sound h.registry) (hc : c ∈ h.registry.clients)
    (hobj : h.registry.client? c = some obj) (hne : target ≠ obj.normalizedCode)
    (ht : message.type = .privateChat)
    (htarget : normalizeUserCode target = .ok target)
    (hcontent : validateTextContent "private chat" message.content = .ok ())
    {k : Hub} (hk : k = h.routePrivate env c obj target tracking message) :
    (h.findsPlace env c target message.messageID = true →
      PlacedIn k (asciiLower message.userCode) target message.messageID) ∧
    ∀ x ∈ sentBetween h k, Answers c x →
      x.2.messageID = message.messageID ∧
      (PlacedIn k (asciiLower message.userCode) target message.messageID ∨
        (h.registry.active? target).any
          (fun t => h.registry.hasSpace c && !h.registry.hasSpace t) = true) := by
  subst hk
  unfold routePrivate findsPlace
  cases hactive : h.registry.active? target with
  | none =>
    dsimp only
    have hlower : asciiLower target = target := ((normalizeUserCode_eq_ok.1 htarget).2).symm
    cases offlineRelay (h := h) env c obj target tracking hcontent with
    | unknown hknown hdb hrecords out hsent hout =>
      refine ⟨fun hplace => ?_, fun x hx hans => ?_⟩
      · rw [hknown] at hplace
        cases hplace
      · exact absurd hans (not_answers_of_error (hout x ((mem_sentBetween_iff hsent).1 hx)))
    | unsaved hknown htaken hdb hrecords out hsent hout =>
      refine ⟨fun hplace => ?_, fun x hx hans => ?_⟩
      · exfalso
        simp only [Bool.and_eq_true, Bool.not_eq_true'] at hplace
        rcases htaken with hfail | ⟨row, hrow, hid⟩
        · rw [hfail] at hplace
          cases hplace.1.2
        · have hfree := List.any_eq_false.1 hplace.2 row hrow
          exact hfree (beq_iff_eq.2 hid)
      · exact absurd hans (not_answers_of_error (hout x ((mem_sentBetween_iff hsent).1 hx)))
    | queued hknown s hqueued hdb hrecords out hsent hout =>
      have hplaced : PlacedIn (h.savePrivateOffline env c obj target tracking message)
          (asciiLower message.userCode) target message.messageID := by
        refine .inr ⟨offlineRow target message, ?_, hlower, rfl, rfl⟩
        rw [hdb]
        exact hqueued.mem
      refine ⟨fun _ => hplaced, fun x hx hans => ⟨?_, .inl hplaced⟩⟩
      have hmem := (mem_sentBetween_iff hsent).1 hx
      rcases hout with hout | hout
      · exact absurd hans (not_answers_of_error (hout x hmem))
      · -- the notice in between is neither an echo nor a receipt
        have hnotice := hout.subset hmem
        unfold offlineNotices at hnotice
        rcases List.mem_append.1 hnotice with hnotice | hnotice
        · rcases List.mem_cons.1 hnotice with rfl | hnotice
          · exact (wireMessage_fields tracking message).2.2
          · rw [List.mem_singleton.1 hnotice] at hans
            rcases hans.2 with hcase | hcase <;> cases hcase
        · cases tracking with
          | true =>
            rw [if_pos rfl] at hnotice
            rw [List.mem_singleton.1 hnotice]
            rfl
          | false => simp at hnotice
  | some t =>
    dsimp only
    obtain ⟨htc, o, hto, hcode⟩ := hs.active target t hactive
    have hct : c ≠ t := ne_of_active hs hobj hne hactive
    have htcode : h.registry.codeOf t = some target := by
      unfold codeOf
      rw [hto, ← hcode]
      rfl
    -- the Hub writes the target's own spelling of its code into the message
    obtain ⟨q, hq, hqt, hqcode, hqid⟩ : ∃ q : Message,
        h.relayPrivate env c obj t target tracking { message with
          targetUserCode := (h.registry.client? t).elim message.targetUserCode Client.userCode } =
          h.relayPrivate env c obj t target tracking q ∧ q.type = .privateChat ∧
        q.userCode = message.userCode ∧ q.messageID = message.messageID := ⟨_, rfl, ht, rfl, rfl⟩
    rw [hq]
    obtain ⟨hwt, hwcode, hwid⟩ := wireMessage_fields tracking q
    have hkept : (h.relayPrivate env c obj t target tracking q).registry.codeOf t = some target :=
      (touches_relayPrivate env c obj t target tracking hqt).moves.preserves
        (fun _ _ hmove hc => hmove.codeOf hc) htcode
    have hplaced : ∀ {out : List (ClientID × Message)},
        (h.relayPrivate env c obj t target tracking q).registry.sent = h.registry.sent ++ out →
        (t, wireMessage tracking q) ∈ out →
        PlacedIn (h.relayPrivate env c obj t target tracking q) (asciiLower message.userCode) target
          message.messageID := by
      intro out hsent hmem
      have hin := placedIn_of_sent hsent hmem hkept (hwt.trans hqt)
      rwa [hwcode, hwid, hqcode, hqid] at hin
    have hreceipt : ∀ {state : String} {out : List (ClientID × Message)} {x : ClientID × Message},
        out.Sublist (if tracking then [(c, receipt q.messageID state)] else []) → x ∈ out →
        x.2.messageID = message.messageID := by
      intro state out x hout hx
      have hmem := hout.subset hx
      cases tracking with
      | true =>
        rw [if_pos rfl] at hmem
        rw [List.mem_singleton.1 hmem]
        exact hqid
      | false => simp at hmem
    cases privateRelay (h := h) env obj target tracking q hc htc hct with
    | echoFull hspace hdb hsent =>
      refine ⟨fun hplace => ?_, fun x hx => absurd hx (not_mem_sentBetween hsent)⟩
      rw [hspace] at hplace
      cases hplace
    | targetFull hspace hfull hdb out hsent hout =>
      refine ⟨fun hplace => ?_, fun x hx _ => ⟨?_, .inr ?_⟩⟩
      · rw [hfull, Bool.and_false] at hplace
        cases hplace
      · rcases List.mem_cons.1 ((mem_sentBetween_iff hsent).1 hx) with rfl | hx
        · exact hwid.trans hqid
        · exact hreceipt hout hx
      · rw [Option.any_some, hspace, hfull]
        rfl
    | unmarked hspace hspace' hdb out hsent hout =>
      have hin := hplaced hsent (List.mem_cons_of_mem _ List.mem_cons_self)
      refine ⟨fun _ => hin, fun x hx hans => ⟨?_, .inl hin⟩⟩
      rcases List.mem_cons.1 ((mem_sentBetween_iff hsent).1 hx) with rfl | hx
      · exact hwid.trans hqid
      rcases List.mem_cons.1 hx with rfl | hx
      · exact hwid.trans hqid
      · exact absurd hans (not_answers_of_error (hout x hx))
    | delivered hspace hspace' l hmark hdb out hsent hout =>
      have hin := hplaced hsent (List.mem_cons_of_mem _ List.mem_cons_self)
      refine ⟨fun _ => hin, fun x hx _ => ⟨?_, .inl hin⟩⟩
      rcases List.mem_cons.1 ((mem_sentBetween_iff hsent).1 hx) with rfl | hx
      · exact hwid.trans hqid
      rcases List.mem_cons.1 hx with rfl | hx
      · exact hwid.trans hqid
      · exact hreceipt hout hx

end Route

/-! ### Runs -/

/-- The row of a private chat names its two parties. -/
structure PrivateRow (row : ChatRow) : Prop where
  conversation : row.conversationKey = privateConversationKey row.senderCode row.targetCode
  sender : normalizeUserCode row.senderCode = .ok row.senderCode
  target : normalizeUserCode row.targetCode = .ok row.targetCode

theorem PrivateRow.congr {row base : ChatRow} (hp : PrivateRow base)
    (hfix : row.fixed = base.fixed) : PrivateRow row := by
  have htarget := ChatRow.fixed_targetCode hfix
  have hsender := ChatRow.fixed_senderCode hfix
  refine ⟨?_, ?_, ?_⟩
  · rw [ChatRow.fixed_conversationKey hfix, hsender, htarget]
    exact hp.conversation
  · rw [hsender]
    exact hp.sender
  · rw [htarget]
    exact hp.target

/-- A new row of a private chat: its attempt was lost, or its message has a place. -/
theorem private_row_step (platform : Platform) (hs : Sound h.registry) (e : Event) {row : ChatRow}
    (hrow : row ∈ (step platform h e).db.chat.messages.rows) (hkind : row.kind = .privateChat) :
    (∃ base ∈ h.db.chat.messages.rows, row.fixed = base.fixed) ∨
      (PrivateRow row ∧ ∃ a, attempt? platform h e = some a ∧ row.key = a.key h ∧
        (h.lost e.env a = true ∨ PlacedIn (step platform h e) row.senderCode row.targetCode
          row.messageID)) := by
  rcases step_outcome platform hs e with ⟨-, hquiet⟩ | ⟨a, n, ha, hv, ho⟩
  · obtain ⟨base, hbase, hfix, -⟩ := hquiet.rows row hrow
    exact .inl ⟨base, hbase, hfix⟩
  obtain ⟨base, hfix, hbase | ⟨rfl, hnew, hfate⟩⟩ := ho.rows hrow
  · exact .inl ⟨base, hbase, hfix⟩
  right
  have hbkind : (a.row platform e.env (h.counted n)).kind = .privateChat :=
    (ChatRow.fixed_kind hfix).symm.trans hkind
  cases hv with
  | chat => cases hbkind
  | @privateChat c obj target tracking message hc hobj hvalid htarget hne ht hid hcode hto hcontent
      hcrypto hstate =>
    have hsender : row.senderCode = obj.normalizedCode := ChatRow.fixed_senderCode hfix
    have htargetCode : row.targetCode = target := ChatRow.fixed_targetCode hfix
    have hmessageID : row.messageID = message.messageID := ChatRow.fixed_messageID hfix
    have hlower : asciiLower message.userCode = obj.normalizedCode := by
      rw [hcode]
      exact ((normalizeUserCode_eq_ok.1 hvalid.code).2).symm
    refine ⟨PrivateRow.congr ⟨rfl, normalizeUserCode_idem hvalid.code, htarget⟩ hfix, _, ha, ?_, ?_⟩
    · rw [ChatRow.fixed_key hfix]
      rfl
    rw [hsender, htargetCode, hmessageID, ← hlower]
    have hlost : h.lost e.env (.privateChat c obj target tracking message) =
        (e.env.fails .pruneChatMessages || !h.findsPlace e.env c target message.messageID) := by
      have hnew' : h.isNew e.env (.privateChat c obj target tracking message) = true := hnew
      simp only [lost, hnew', Bool.true_and]
    rw [hlost]
    rcases hfate with hprune | ⟨s, hsaved, hk⟩
    · rw [hprune]
      exact .inl rfl
    -- what decides about the place does not depend on the new row
    have hplace : ((h.counted n).withChat s).findsPlace e.env c target message.messageID =
        h.findsPlace e.env c target message.messageID := by
      unfold findsPlace targetKnown hasUserCode
      rw [hsaved.offline, hsaved.accounts]
    cases hfinds : h.findsPlace e.env c target message.messageID with
    | false =>
      left
      simp
    | true =>
      right
      exact (placed_routePrivate (h := (h.counted n).withChat s) hs hc hobj hne ht htarget hcontent
        hk).1 (hplace.trans hfinds)

/-- The attempt of a private chat frame. -/
theorem attempt?_private {platform : Platform} {e : Event} {c : ClientID} {m : Message}
    {limited muted : Bool} {obj : Client} {a : Attempt} (he : e.input = .frame c m limited muted)
    (ht : m.type = .privateChat) (hobj : h.registry.client? c = some obj)
    (ha : attempt? platform h e = some a) :
    ∃ tracking message, a = .privateChat c obj (asciiLower m.targetUserCode) tracking message := by
  simp only [attempt?, he, hobj, ht] at ha
  split at ha
  · cases ha
  split at ha
  · cases ha
  rename_i target htarget
  split at ha
  · cases ha
  obtain rfl := Option.some_injective _ ha
  obtain rfl := (normalizeUserCode_eq_ok.1 htarget).2
  exact ⟨_, _, rfl⟩

namespace Trace

variable {r : Trace} {n : ℕ}

/-- The private message has been given a place in the first `n` events. -/
def Placed (r : Trace) (n : ℕ) (sender target messageID : String) : Prop :=
  ∃ i ≤ n, PlacedIn (r.hub i) sender target messageID

/-- The attempt is made at position `n`. -/
def Attempts (r : Trace) (n : ℕ) (a : Attempt) : Prop :=
  r.At n fun h e => attempt? r.platform h e = some a

/-- The attempt is made at position `n` and lost. -/
def Loses (r : Trace) (n : ℕ) (a : Attempt) : Prop :=
  r.At n fun h e => attempt? r.platform h e = some a ∧ h.lost e.env a = true

/-- Whenever the sender of a private chat gets an echo or a receipt, the message has a place. -/
def ReceiptsSound (r : Trace) : Prop :=
  ∀ n (hn : n < r.events.length) c m limited muted obj,
    r.events[n].input = .frame c m limited muted → m.type = .privateChat →
    (r.hub n).registry.client? c = some obj →
    ∀ x, (c, x) ∈ sentBetween (r.hub n) (r.hub (n + 1)) →
      (x.type = .privateChat ∨ x.type = .deliveryReceipt) →
      r.Placed (n + 1) obj.normalizedCode (asciiLower m.targetUserCode) x.messageID

/-- No echo goes out for a target whose queue is full, and no attempt asks for a receipt under the
row that a lost attempt left. -/
structure Careful (r : Trace) : Prop where
  echo : ∀ n a, ¬ r.At n fun h e => attempt? r.platform h e = some a ∧ h.echoOnly e.env a = true
  retry : ∀ i n a b, i < n → r.Loses i a → r.Attempts n b → b.tracking = true →
    a.key (r.hub i) = b.key (r.hub n) →
    ∀ row ∈ (r.hub n).db.chat.messages.rows, row.key ≠ b.key (r.hub n)

theorem Placed.mono {i j : ℕ} {sender target messageID : String}
    (hp : r.Placed i sender target messageID) (hij : i ≤ j) :
    r.Placed j sender target messageID := by
  obtain ⟨k, hk, hin⟩ := hp
  exact ⟨k, hk.trans hij, hin⟩

/-- Every stored private chat has a place, or the attempt that stored it was lost. -/
theorem private_row_hub (hn : n ≤ r.events.length) :
    ∀ row ∈ (r.hub n).db.chat.messages.rows, row.kind = .privateChat →
      PrivateRow row ∧ (r.Placed n row.senderCode row.targetCode row.messageID ∨
        ∃ i < n, ∃ a, r.Loses i a ∧ row.key = a.key (r.hub i)) := by
  induction n with
  | zero =>
    intro row hrow
    cases hrow
  | succ n ih =>
    intro row hrow hkind
    have hlt : n < r.events.length := hn
    rw [hub_succ hlt] at hrow
    rcases private_row_step r.platform (sound_hub n) r.events[n] hrow hkind with
      ⟨base, hbase, hfix⟩ | ⟨hparties, a, ha, hkey, hfate⟩
    · have hbkind : base.kind = .privateChat := (ChatRow.fixed_kind hfix).symm.trans hkind
      obtain ⟨hparties, hfate⟩ := ih (by omega) base hbase hbkind
      refine ⟨hparties.congr hfix, ?_⟩
      rw [ChatRow.fixed_senderCode hfix, ChatRow.fixed_targetCode hfix, ChatRow.fixed_messageID hfix,
        ChatRow.fixed_key hfix]
      rcases hfate with hplaced | ⟨i, hi, a, hlost, hakey⟩
      · exact .inl (hplaced.mono (Nat.le_succ n))
      · exact .inr ⟨i, by omega, a, hlost, hakey⟩
    · refine ⟨hparties, ?_⟩
      rcases hfate with hlost | hplaced
      · exact .inr ⟨n, Nat.lt_succ_self n, a, ⟨hlt, ha, hlost⟩, hkey⟩
      · exact .inl ⟨n + 1, Nat.le_refl _, by rw [hub_succ hlt]; exact hplaced⟩

/-- In every run without an echo for a full target and without a tracked retry of a lost attempt,
a private chat whose sender gets an echo or a receipt has a place. -/
theorem receipts_sound (r : Trace) (hcareful : r.Careful) : r.ReceiptsSound := by
  intro n hn c m limited muted obj he ht hobj x hx hxt
  have hs := sound_hub (r := r) n
  rw [hub_succ hn] at hx
  have htype : ∀ {types : List MessageType} {k l : Hub}, Touches [] types k l →
      (c, x) ∈ sentBetween k l → .privateChat ∉ types → .deliveryReceipt ∉ types → False := by
    intro types k l htouch hmem hprivate hreceipt
    have hin := mem_sentBetween htouch.moves.emits hmem
    rcases hxt with hxt | hxt
    · exact hprivate (hxt ▸ hin)
    · exact hreceipt (hxt ▸ hin)
  rcases step_outcome r.platform hs r.events[n] with ⟨-, hquiet⟩ | ⟨a, i, ha, hv, ho⟩
  · exfalso
    have hin := mem_sentBetween hquiet.sent hx
    rcases hxt with hxt | hxt
    · exact hin (by rw [hxt]; decide)
    · exact hin (by rw [hxt]; decide)
  obtain ⟨tracking, message, rfl⟩ := attempt?_private he ht hobj ha
  have hcheck := checkChatMessage_stored r.platform r.events[n].env (h := (r.hub n).counted i) hs
    (hv.congr rfl) (by simp [Attempt.sender])
  cases hv with
  | privateChat hc _ hvalid htarget hne hmt hid hcode hto hcontent hcrypto hstate =>
  have hlower : asciiLower message.userCode = obj.normalizedCode := by
    rw [hcode]
    exact ((normalizeUserCode_eq_ok.1 hvalid.code).2).symm
  have hecho : (r.hub n).echoOnly r.events[n].env
      (.privateChat c obj (asciiLower m.targetUserCode) tracking message) = false :=
    Bool.eq_false_iff.2 fun hfull => hcareful.echo n _ ⟨hn, ha, hfull⟩
  -- the two outcomes that route the message
  have hrouted : ∀ h' : Hub, h'.registry = (r.hub n).registry →
      step r.platform (r.hub n) r.events[n] =
        h'.routePrivate r.events[n].env c obj (asciiLower m.targetUserCode) tracking message →
      (!(r.hub n).offlineStore || ((r.hub n).isNew r.events[n].env
        (.privateChat c obj (asciiLower m.targetUserCode) tracking message) &&
        !r.events[n].env.fails .pruneChatMessages)) = true →
      r.Placed (n + 1) obj.normalizedCode (asciiLower m.targetUserCode) x.messageID := by
    intro h' hreg hk hgoes
    obtain ⟨hxid, hplaced⟩ := (placed_routePrivate (by rw [hreg]; exact hs)
      (by rw [hreg]; exact hc) (by rw [hreg]; exact hobj) hne hmt htarget hcontent hk).2 (c, x)
      (by unfold sentBetween at hx ⊢; rw [hreg]; exact hx) ⟨rfl, hxt⟩
    rcases hplaced with hplaced | hfull
    · refine ⟨n + 1, Nat.le_refl _, ?_⟩
      rw [hub_succ hn, hxid, ← hlower]
      exact hplaced
    · exfalso
      dsimp only [echoOnly] at hecho
      rw [hgoes, Bool.true_and, ← hreg, hfull] at hecho
      cases hecho
  cases ho with
  | unstored hstore hk =>
    refine hrouted ((r.hub n).counted i) rfl hk ?_
    rw [show (r.hub n).offlineStore = false from hstore]
    rfl
  | refused hstore hk => exact (htype hk hx (by decide) (by decide)).elim
  | unpruned hstore hfails hprune s hsender hsaved hk =>
    exact (htype hk hx (by decide) (by decide)).elim
  | relayed hstore hfails hprune s hsender hsaved hk =>
    have hnew : (r.hub n).isNew r.events[n].env
        (.privateChat c obj (asciiLower m.targetUserCode) tracking message) = true :=
      isNew_of_saved (h := (r.hub n).counted i) hstore hfails hsaved
    refine hrouted (((r.hub n).counted i).withChat s) rfl hk ?_
    rw [hnew, hprune]
    simp
  | retried hstore row hrow hkey hk =>
    rw [hk] at hx
    rcases sent_answerRetry (h := (r.hub n).counted i) hx with
      herror | ⟨htracking, -, stored, hstored, hreceipt⟩
    · exfalso
      rcases hxt with hxt | hxt
      · rw [hxt] at herror
        cases herror
      · rw [hxt] at herror
        cases herror
    obtain ⟨hmem, hkind, hskey⟩ := getStoredMessageForMessage_ok (identity_of_check hcheck) hstored
    obtain ⟨hparties, hfate⟩ := private_row_hub hn.le stored hmem hkind
    obtain ⟨hsender, hconv, hsid⟩ := key_eq_iff.1 hskey
    have hsender' : stored.senderCode = obj.normalizedCode := hsender
    have htargetCode : stored.targetCode = asciiLower m.targetUserCode := by
      refine privateConversationKey_inj hparties.sender hparties.target ?_
      rw [← hparties.conversation, hsender']
      exact hconv
    have hxid : x.messageID = stored.messageID := by
      have hx2 : x = receipt _ stored.deliveryState := hreceipt
      rw [hx2, hsid]
      rfl
    rcases hfate with hplaced | ⟨j, hj, b, hlost, hbkey⟩
    · rw [hxid, ← hsender', ← htargetCode]
      exact hplaced.mono (Nat.le_succ n)
    · exact absurd hskey (hcareful.retry j n b _ hj hlost ⟨hn, ha⟩ htracking
        (hbkey.symm.trans hskey) stored hmem)

/-- A private chat under a chosen id. -/
def noteTo (target : String) : Message :=
  { type := .privateChat, messageID := "m1", targetUserCode := target, content := "hello" }

/-- Alice writes to Bob, who is online, and asks again. -/
def notedTwice : Trace where
  platform := samplePlatform
  adminCode := ""
  offlineStore := true
  events := sessionEvents 0 "Alice" "alice" ++ sessionEvents 1 "Bob" "bob" ++
    [frameEvent 0 (noteTo "bob"), frameEvent 0 (noteTo "bob")]

/-- Her second attempt gets a receipt, and Bob has the message. -/
theorem receipts_sound_notedTwice :
    (0, receipt "m1" "delivered") ∈ sentBetween (notedTwice.hub 7) (notedTwice.hub 8) ∧
      notedTwice.ReceiptsSound := by
  have hgood : ∀ n (hn : n < notedTwice.events.length),
      (attempt? notedTwice.platform (notedTwice.hub n) notedTwice.events[n]).all (fun a =>
        !(notedTwice.hub n).lost notedTwice.events[n].env a &&
          !(notedTwice.hub n).echoOnly notedTwice.events[n].env a) = true := by decide +kernel
  refine ⟨by decide +kernel, receipts_sound notedTwice ⟨?_, ?_⟩⟩
  · rintro n a ⟨hn, ha, hfull⟩
    have hok := hgood n hn
    rw [ha, Option.all_some, hfull] at hok
    simp at hok
  · rintro i n a b - ⟨hi, ha, hlost⟩
    have hok := hgood i hi
    rw [ha, Option.all_some, hlost] at hok
    cases hok

/-- Alice writes to Carol, who has no account, and asks again. -/
def lostThenRetried : Trace where
  platform := samplePlatform
  adminCode := ""
  offlineStore := true
  events := sessionEvents 0 "Alice" "alice" ++
    [frameEvent 0 (noteTo "carol"), frameEvent 0 (noteTo "carol")]

theorem receipt_without_message : ¬ ∀ r : Trace, r.ReceiptsSound := by
  intro hclaim
  have hobj : ((lostThenRetried.hub 4).registry.client? 0).isSome := by decide +kernel
  obtain ⟨obj, hobj⟩ := Option.isSome_iff_exists.1 hobj
  obtain ⟨i, hi, hin⟩ := hclaim lostThenRetried 4 (by decide) 0 (noteTo "carol") false false obj rfl
    rfl hobj (receipt "m1" "sent") (by decide +kernel) (.inr rfl)
  have hnowhere : ∀ i, i ≤ 5 → (lostThenRetried.hub i).db.chat.offline.rows = [] ∧
      (lostThenRetried.hub i).registry.sent.all
        (fun x => (lostThenRetried.hub i).registry.codeOf x.1 != some "carol") = true := by
    decide +kernel
  obtain ⟨hoffline, hsent⟩ := hnowhere i hi
  rcases hin with ⟨d, x, hx, hcode, -⟩ | ⟨row, hrow, -⟩
  · have hother := List.all_eq_true.1 hsent (d, x) hx
    have hcarol : (lostThenRetried.hub i).registry.codeOf d = some "carol" := hcode
    simp [hcarol] at hother
  · rw [hoffline] at hrow
    cases hrow

end Trace

end Hub

end LanChat
