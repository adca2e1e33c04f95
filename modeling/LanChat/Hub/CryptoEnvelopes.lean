import LanChat.Client.ServerFrames
import LanChat.Hub.HistoryLog
import LanChat.Hub.Routes

/-!
# The `crypto` object of a message

`validateMessage` accepts a chat and a private chat with a `crypto` object and no text.  The object
then passes the read pump, the Hub, the store, the history worker and the client's decoder.

* `carriesEnvelope h c m`: session `c` sends such a message;
* `EnvelopeKept`: the object is in every copy, in the stored row and in the decoded history entry;
* `losesEnvelope h e`: the event takes a message through code that does not look at `crypto`;
* `Trace.envelopes_kept`: in a run without such an event every object is kept.

A private chat is such a message: `PrivateMessageRequest` has no `crypto`, and the read pump asks
for a text.  So is an entry of a history page: the client's decoder of nested messages skips it.
-/

namespace LanChat

/-- `crypto` of an entry of `messages`: the decoder leaves it as the default. -/
def Client.NestedMessage.crypto (_ : Client.NestedMessage) : String := ""

namespace Hub

open GoStrings Registry ChatStore EventMachine

variable {h k : Hub}

/-- A registered client sends a chat or private chat with a `crypto` object that `validateMessage`
accepts. -/
def carriesEnvelope (h : Hub) (c : ClientID) (m : Message) : Bool :=
  (m.type == .chat || m.type == .privateChat) && m.crypto != "" && (validateMessage m).isOk &&
    h.readsFrames c && h.registry.isConnected c

/-- The page that the event sends to a client. -/
def answeredPage? (h : Hub) (e : Event) : Option HistoryPage :=
  match e.input, h.historyResults with
  | .historyResult, result :: _ =>
    if h.registry.isConnected result.job.client && h.registry.hasSpace result.job.client then
      result.page.toOption
    else none
  | _, _ => none

/-- The rate limiter turns the message away, it is a private chat, or it is an entry of a page. -/
def losesEnvelope (h : Hub) (e : Event) : Bool :=
  match e.input with
  | .frame c m limited muted =>
    h.carriesEnvelope c m && !muted && (limited || m.type == .privateChat)
  | .historyResult => (h.answeredPage? e).any fun page => page.rows.any fun row => row.crypto != ""
  | _ => false

/-- The texts with which the read pump turns a chat or a private chat away. -/
def rejections : List String :=
  ["Rate limit exceeded; please slow down", "You are muted", "Invalid chat content",
    "Invalid target user code", "Invalid private chat content"]

/-- The two texts are one JSON value. -/
def SameCrypto (read : String → Json) (sent got : String) : Prop := got ≠ "" ∧ read got = read sent

/-- A row that event number `n` has added. -/
def Trace.Adds (r : Trace) (n : ℕ) (row : ChatRow) : Prop :=
  row ∈ (r.hub (n + 1)).db.chat.messages.rows ∧
    ∀ old ∈ (r.hub n).db.chat.messages.rows, old.id ≠ row.id

/-- What becomes of the `crypto` object that the message of event number `n` carries. -/
structure Trace.EnvelopeKept (r : Trace) (read : String → Json) (n : ℕ) (m : Message) : Prop where
  accepted : ∀ x ∈ sentBetween (r.hub n) (r.hub (n + 1)), x.2.type = .error →
    x.2.content ∉ rejections
  copies : ∀ x ∈ sentBetween (r.hub n) (r.hub (n + 1)), x.2.type ∈ [.chat, .privateChat] →
    SameCrypto read m.crypto x.2.crypto
  offline : ∀ row ∈ (r.hub (n + 1)).db.chat.offline.rows, row ∈ (r.hub n).db.chat.offline.rows
  stored : ∀ row, r.Adds n row → SameCrypto read m.crypto row.crypto
  history : ∀ row, r.Adds n row → ∀ i (hi : i < r.events.length), n < i →
    ∀ page, (r.hub i).answeredPage? r.events[i] = some page → ∀ row' ∈ page.rows, row'.id = row.id →
      ∀ entry, Client.asNestedMessage (row'.toMessage.value read) = .ok entry →
        SameCrypto read m.crypto entry.crypto

/-! ### The copies -/

/-- What is sent on the way of an accepted chat. -/
def Fine (crypto : String) (m : Message) : Prop :=
  (m.type = .error → m.content ∉ rejections) ∧
    (m.type ∈ [.chat, .privateChat] → m.crypto = crypto)

theorem fine_error {crypto text messageID : String} (htext : text ∉ rejections) :
    Fine crypto { type := .error, messageID, content := text } :=
  ⟨fun _ => htext, fun ht => by simp at ht⟩

theorem fine_receipt (crypto messageID state : String) : Fine crypto (receipt messageID state) :=
  ⟨fun ht => MessageType.noConfusion ht, fun ht => by simp [receipt] at ht⟩

theorem fine_wireMessage {message : Message} (tracking : Bool) (ht : message.type = .chat) :
    Fine message.crypto (wireMessage tracking message) := by
  have htype : (wireMessage tracking message).type = .chat := by
    cases tracking <;> exact ht
  refine ⟨fun herror => ?_, fun _ => ?_⟩
  · rw [htype] at herror
    cases herror
  · cases tracking <;> rfl

/-- Only fine messages are sent. -/
abbrev FineStep (crypto : String) (h k : Hub) : Prop :=
  Emits (fun x => Fine crypto x.2) h.registry k.registry

theorem fineStep_deliverError {crypto text : String} (htext : text ∉ rejections) (c : ClientID)
    (messageID : String) : FineStep crypto h (h.deliverError c text messageID) :=
  emits_tell (fine_error htext)

theorem fineStep_receipt (crypto : String) (c : ClientID) (messageID state : String) :
    FineStep crypto h (h.tell c (receipt messageID state)) :=
  emits_tell (fine_receipt crypto messageID state)

theorem fineStep_answerRetry (crypto : String) (env : Env) (sender : Option ClientID)
    (tracking : Bool) (message : Message) :
    FineStep crypto h (h.answerRetry env sender tracking message) := by
  unfold answerRetry
  split
  · exact Emits.refl _
  split
  · exact Emits.refl _
  split
  · exact fineStep_deliverError (by decide) _ _
  · exact fineStep_receipt crypto _ _ _

theorem fineStep_relayChat (env : Env) (sender : Option ClientID) (room : String) (tracking : Bool)
    {message : Message} (ht : message.type = .chat) :
    FineStep message.crypto h (h.relayChat env sender room tracking message) := by
  have hpeers : ∀ l, Emits (fun x => Fine message.crypto x.2) h.registry
      (deliverToPeers h.registry sender (wireMessage tracking message) l).1 := by
    intro l
    refine (hasSpace_of_delivered sender (wireMessage tracking message) l).mono fun x hx => ?_
    rw [hx.1]
    exact fine_wireMessage tracking ht
  unfold relayChat
  dsimp only
  rw [registry_recordMessage]
  specialize hpeers (env.visit (h.registry.roomClients room))
  generalize deliverToPeers _ _ _ _ = delivered at hpeers ⊢
  split
  · exact hpeers
  split
  · exact hpeers
  split
  · exact hpeers.trans (fineStep_receipt _ _ _ _)
  split
  · exact hpeers.trans (fineStep_deliverError (by decide) _ _)
  · rename_i hmarked
    refine Emits.trans ?_ (fineStep_receipt _ _ _ _)
    have hkept : FineStep message.crypto h { h with registry := delivered.1 } := hpeers
    change Emits _ h.registry _
    rwa [registry_markDelivered hmarked]

theorem fineStep_publishChat (platform : Platform) (env : Env) (tracking : Bool) {message : Message}
    (ht : message.type = .chat) :
    FineStep message.crypto h (h.publishChat platform env tracking message) := by
  unfold publishChat
  dsimp only
  split
  · exact fineStep_relayChat env _ _ tracking ht
  split
  · rename_i hsave
    have hreg := registry_saveChatMessage hsave
    split
    · refine Emits.trans (.of_eq (by rw [hreg])) (fineStep_deliverError (by decide) _ _)
    · exact .of_eq (by rw [hreg])
  · rename_i hsave
    exact Emits.trans (.of_eq (by rw [registry_saveChatMessage hsave]))
      (fineStep_answerRetry _ env _ tracking _)
  · rename_i hsave
    exact Emits.trans (.of_eq (by rw [registry_saveChatMessage hsave]))
      (fineStep_relayChat env _ _ tracking ht)

/-! ### An accepted chat -/

theorem carriesEnvelope_iff {c : ClientID} {m : Message} : h.carriesEnvelope c m = true ↔
    (m.type = .chat ∨ m.type = .privateChat) ∧ m.crypto ≠ "" ∧ validateMessage m = .ok () ∧
      h.readsFrames c = true ∧ h.registry.isConnected c = true := by
  unfold carriesEnvelope
  simp only [Bool.and_eq_true, Bool.or_eq_true, beq_iff_eq, bne_iff_ne, isOk_iff, and_assoc]

/-- The attempt of a chat that carries a `crypto` object. -/
theorem attempt?_of_carries (platform : Platform) {e : Event} {c : ClientID} {m : Message}
    (he : e.input = .frame c m false false) (hcarry : h.carriesEnvelope c m = true)
    (ht : m.type = .chat) : ∃ tracking message,
      attempt? platform h e = some (.chat tracking message) ∧ message.type = .chat ∧
        message.crypto = m.crypto := by
  obtain ⟨-, -, hvalid, hreads, -⟩ := carriesEnvelope_iff.1 hcarry
  unfold readsFrames at hreads
  obtain ⟨halive, hany⟩ := Bool.and_eq_true_iff.1 hreads
  obtain ⟨obj, hobj, hready⟩ := (Option.any_eq_true _ _).1 hany
  have hcommand : ¬ maxCommandIDSize < m.commandID.utf8ByteSize := by
    intro hlarge
    unfold validateMessage at hvalid
    rw [if_pos hlarge] at hvalid
    cases hvalid
  refine ⟨deliveryTracking m.messageID, { m with
    username := obj.username, userCode := obj.userCode
    messageID := (h.assignMessageID m.messageID).1 }, ?_, ht, rfl⟩
  unfold attempt?
  rw [he]
  dsimp only
  rw [hobj]
  dsimp only
  rw [if_neg (by simpa [halive, hcommand] using hready), ht]
  dsimp only
  rw [if_neg (by simp [hvalid, Except.isOk, Except.toBool])]

/-- A chat leaves the offline messages alone. -/
theorem Outcome.offline_chat {platform : Platform} {env : Env} {tracking : Bool} {message : Message}
    (ho : Outcome platform env h (.chat tracking message) k) :
    k.db.chat.offline = h.db.chat.offline := by
  have hrelay : ∀ l : Hub, (Attempt.relay platform env l (.chat tracking message)).db.chat.offline =
      l.db.chat.offline := by
    intro l
    obtain ⟨_, _, hchat⟩ := chatRelay (h := l) env (l.senderOf message.userCode)
      (l.senderRoom (l.senderOf message.userCode)) tracking
      (if l.offlineStore then
        storedChat platform env (l.senderRoom (l.senderOf message.userCode)) message else message)
    exact hchat.offline
  cases ho with
  | unstored hstore hk =>
    rw [hk]
    exact hrelay h
  | refused hstore hk =>
    have hsame : k.db.chat = h.db.chat := hk.same .chat (by decide)
    rw [hsame]
  | retried hstore row hrow hkey hk => rw [hk, chat_answerRetry]
  | unpruned hstore hfails hprune s hsender hsaved hk =>
    have hsame : k.db.chat = s := hk.same .chat (by decide)
    rw [hsame]
    exact hsaved.offline
  | relayed hstore hfails hprune s hsender hsaved hk =>
    rw [hk]
    exact (hrelay _).trans hsaved.offline

/-- What becomes of the object in the step that takes the chat. -/
theorem step_of_carries (platform : Platform) (hs : Sound h.registry) {e : Event} {c : ClientID}
    {m : Message} (he : e.input = .frame c m false false) (hcarry : h.carriesEnvelope c m = true)
    (ht : m.type = .chat) : FineStep m.crypto h (step platform h e) ∧
      (∀ row ∈ (step platform h e).db.chat.messages.rows,
        (∃ old ∈ h.db.chat.messages.rows, old.id = row.id) ∨ row.crypto = m.crypto) ∧
      ∀ row ∈ (step platform h e).db.chat.offline.rows, row ∈ h.db.chat.offline.rows := by
  obtain ⟨tracking, message, ha, hmt, hcrypto⟩ := attempt?_of_carries platform he hcarry ht
  refine ⟨?_, fun row hrow => ?_, ?_⟩
  · rcases publishStep platform hs e with ⟨hnone, -⟩ | ⟨a, n, ha', hstep⟩
    · cases hnone.symm.trans ha
    obtain rfl : a = .chat tracking message := Option.some_injective _ (ha'.symm.trans ha)
    rw [hstep, ← hcrypto]
    exact fineStep_publishChat (h := h.counted n) platform e.env tracking hmt
  · rcases step_outcome platform hs e with ⟨hnone, -⟩ | ⟨a, n, ha', -, hout⟩
    · cases hnone.symm.trans ha
    obtain rfl : a = .chat tracking message := Option.some_injective _ (ha'.symm.trans ha)
    obtain ⟨base, hfix, hbase | ⟨rfl, -⟩⟩ := hout.rows hrow
    · exact .inl ⟨base, hbase, (ChatRow.fixed_id hfix).symm⟩
    · refine .inr (Eq.trans ?_ hcrypto)
      exact congrArg ChatRow.crypto hfix
  · rcases step_outcome platform hs e with ⟨hnone, -⟩ | ⟨a, n, ha', -, hout⟩
    · cases hnone.symm.trans ha
    obtain rfl : a = .chat tracking message := Option.some_injective _ (ha'.symm.trans ha)
    have hsame := hout.offline_chat
    intro row hrow
    rwa [hsame] at hrow

/-! ### Rows on their way to a client -/

/-- The row is stored, or in a page that the Hub has not sent yet. -/
def HoldsRow (h : Hub) (row : ChatRow) : Prop :=
  row ∈ h.db.chat.messages.rows ∨
    ∃ result ∈ h.historyResults, ∃ page, result.page = .ok page ∧ row ∈ page.rows

theorem holdsRow_of_answered {e : Event} {page : HistoryPage}
    (hpage : h.answeredPage? e = some page) {row : ChatRow} (hrow : row ∈ page.rows) : h.HoldsRow row := by
  unfold answeredPage? at hpage
  split at hpage
  · rename_i result results _ hresults
    split at hpage
    · refine .inr ⟨result, hresults ▸ List.mem_cons_self, page, ?_, hrow⟩
      cases hresult : result.page with
      | error x =>
        rw [hresult] at hpage
        cases hpage
      | ok page' =>
        rw [hresult] at hpage
        exact congrArg Except.ok (Option.some_injective _ hpage)
    · cases hpage
  · cases hpage

/-- The rows of a page were there before. -/
theorem holdsRow_of_page (platform : Platform) (hs : Sound h.registry) (e : Event)
    {result : HistoryResult} (hresult : result ∈ (step platform h e).historyResults)
    {page : HistoryPage} (hpage : result.page = .ok page) {row : ChatRow} (hrow : row ∈ page.rows) :
    h.HoldsRow row := by
  rcases (pendingJobs_step platform hs e).2 result hresult with hold | ⟨-, hload⟩
  · exact .inr ⟨result, hold, page, hpage, hrow⟩
  · obtain ⟨_, _, -, hrows⟩ := loadHistory_rows (hload page hpage)
    exact .inl (hrows row hrow).1

/-- A row was there before, or it has a new id. -/
theorem holdsRow_step (platform : Platform) (hs : Sound h.registry) (e : Event) {row : ChatRow}
    (hrow : (step platform h e).HoldsRow row) :
    (∃ base, h.HoldsRow base ∧ row.fixed = base.fixed) ∨
      (h.db.chat.lastID < row.id ∧ row.id ≤ (step platform h e).db.chat.lastID) := by
  rcases hrow with hrow | ⟨result, hresult, page, hpage, hrow⟩
  · obtain ⟨base, hbase, hfix, -⟩ := (step_grows platform hs e).origin row hrow
    rcases hbase with hbase | ⟨_, _, -, -, -, hlt, hle⟩
    · exact .inl ⟨base, .inl hbase, hfix⟩
    · rw [← ChatRow.fixed_id hfix] at hlt hle
      exact .inr ⟨hlt, hle⟩
  · exact .inl ⟨row, holdsRow_of_page platform hs e hresult hpage hrow, rfl⟩

/-- No id is larger than the counter. -/
def Numbered (h : Hub) : Prop := ∀ row, h.HoldsRow row → row.id ≤ h.db.chat.lastID

theorem numbered_start (adminCode : String) (offlineStore : Bool) :
    Numbered (start adminCode offlineStore) := by
  rintro row (hrow | ⟨result, hresult, -⟩)
  · cases hrow
  · cases hresult

theorem numbered_step (platform : Platform) (hs : Sound h.registry) (e : Event)
    (hn : h.Numbered) : (step platform h e).Numbered := by
  intro row hrow
  have hgrow := (step_grows platform hs e).last_le
  rcases holdsRow_step platform hs e hrow with ⟨base, hbase, hfix⟩ | ⟨-, hle⟩
  · have hold := hn base hbase
    rw [ChatRow.fixed_id hfix]
    omega
  · exact hle

/-- Every row with the id has the `crypto` object. -/
structure Tracked (h : Hub) (id : ℕ) (crypto : String) : Prop where
  le_last : id ≤ h.db.chat.lastID
  crypto : ∀ row, h.HoldsRow row → row.id = id → row.crypto = crypto

theorem tracked_step (platform : Platform) (hs : Sound h.registry) (e : Event) {id : ℕ}
    {crypto : String} (ht : h.Tracked id crypto) : (step platform h e).Tracked id crypto := by
  have hgrow := (step_grows platform hs e).last_le
  have hlast := ht.le_last
  refine ⟨by omega, fun row hrow hid => ?_⟩
  rcases holdsRow_step platform hs e hrow with ⟨base, hbase, hfix⟩ | ⟨hlt, -⟩
  · have hcrypto : row.crypto = base.crypto := by
      simpa [ChatRow.fixed] using congrArg ChatRow.crypto hfix
    rw [hcrypto]
    exact ht.crypto base hbase ((ChatRow.fixed_id hfix).symm.trans hid)
  · omega

namespace Trace

variable {r : Trace}

/-- What every run keeps about rows and their ids. -/
theorem rowIDs (n : ℕ) : ChatInv (r.hub n) ∧ (r.hub n).Numbered := by
  refine invariant (I := fun h => ChatInv h ∧ h.Numbered)
    ⟨chatInv_start _ _, numbered_start _ _⟩ (fun h e hi => ?_) n
  exact ⟨chatInv_step r.platform h e hi.1, numbered_step r.platform hi.1.sound e hi.2⟩

/-- A new row keeps its `crypto` object, in the table and in the pages. -/
theorem tracked {n : ℕ} (hn : n < r.events.length) {row : ChatRow} (hadd : r.Adds n row) {i : ℕ}
    (hni : n < i) (hi : i ≤ r.events.length) : (r.hub i).Tracked row.id row.crypto := by
  induction i, hni using Nat.le_induction with
  | base =>
    obtain ⟨hrow, hnew⟩ := hadd
    obtain ⟨hinv, hnumbered⟩ := rowIDs (r := r) n
    have hordered := (rowIDs (r := r) (n + 1)).1.ordered
    rw [hub_succ hn] at hrow hordered ⊢
    refine ⟨hordered.le_last row hrow, fun row' hrow' hid => ?_⟩
    rcases hrow' with hrow' | ⟨result, hresult, page, hpage, hrow'⟩
    · rw [hordered.eq_of_id hrow' hrow hid]
    · -- the pages have rows that were there before, and so smaller ids
      have hold := hnumbered row' (holdsRow_of_page r.platform hinv.sound _ hresult hpage hrow')
      have hgrow := step_grows r.platform hinv.sound r.events[n]
      obtain ⟨base, hbase, hfix, -⟩ := hgrow.origin row hrow
      have hsame := ChatRow.fixed_id hfix
      rcases hbase with hbase | ⟨_, _, -, -, -, hlt, -⟩
      · exact absurd hsame.symm (hnew base hbase)
      · omega
  | succ i hni ih =>
    have hlt : i < r.events.length := hi
    rw [hub_succ hlt]
    exact tracked_step r.platform (rowIDs i).1.sound r.events[i] (ih hlt.le)

/-- In every run without such events, the `crypto` object of every chat and private chat from a
registered client that is not muted is in every copy, in the row, and in the history entries. -/
theorem envelopes_kept (read : String → Json)
    (hkeep : ∀ n (hn : n < r.events.length), (r.hub n).losesEnvelope r.events[n] = false)
    {n : ℕ} (hn : n < r.events.length) {c : ClientID} {m : Message} {limited : Bool}
    (he : r.events[n].input = .frame c m limited false)
    (hcarry : (r.hub n).carriesEnvelope c m = true) : r.EnvelopeKept read n m := by
  obtain ⟨htype, hcrypto, -⟩ := carriesEnvelope_iff.1 hcarry
  have hopen := hkeep n hn
  unfold losesEnvelope at hopen
  rw [he] at hopen
  simp only [hcarry, Bool.not_false, Bool.and_self, Bool.true_and, Bool.or_eq_false_iff] at hopen
  obtain ⟨rfl, hprivate⟩ := hopen
  have ht : m.type = .chat := htype.resolve_right (by simpa using hprivate)
  have hs : Sound (r.hub n).registry := (rowIDs n).1.sound
  obtain ⟨hfine, hrows, hoffline⟩ := step_of_carries r.platform hs he hcarry ht
  have hsame : SameCrypto read m.crypto m.crypto := ⟨hcrypto, rfl⟩
  have hstored : ∀ row, r.Adds n row → row.crypto = m.crypto := by
    rintro row ⟨hrow, hnew⟩
    rw [hub_succ hn] at hrow
    rcases hrows row hrow with ⟨old, hold, hid⟩ | hcrypto
    · exact absurd hid (hnew old hold)
    · exact hcrypto
  refine ⟨?_, ?_, ?_, fun row hadd => by rw [hstored row hadd]; exact hsame, ?_⟩
  · intro x hx
    rw [hub_succ hn] at hx
    exact (mem_sentBetween hfine hx).1
  · intro x hx hxt
    rw [hub_succ hn] at hx
    rw [(mem_sentBetween hfine hx).2 hxt]
    exact hsame
  · rw [hub_succ hn]
    exact hoffline
  · -- no page that is sent has a row with a `crypto` object
    intro row hadd i hi hni page hpage row' hrow' hid
    exfalso
    have htracked := tracked hn hadd hni hi.le
    have hfound := htracked.crypto row' (holdsRow_of_answered hpage hrow') hid
    rw [hstored row hadd] at hfound
    have hclean := hkeep i hi
    unfold losesEnvelope at hclean
    have hinput : r.events[i].input = .historyResult := by
      unfold answeredPage? at hpage
      split at hpage
      · assumption
      · cases hpage
    rw [hinput] at hclean
    dsimp only at hclean
    rw [hpage, Option.any_some, List.any_eq_false] at hclean
    exact hclean row' hrow' (by rw [hfound]; simpa using hcrypto)

end Trace

/-! ### Alice writes to Bob -/

/-- Alice's encrypted message, in the lobby or to Bob. -/
def encrypted (type : MessageType) : Message :=
  { type, messageID := "m1", targetUserCode := "B001", crypto := "\x7b\"v\":1\x7d" }

/-- Alice and Bob are in the lobby, and she sends it. -/
def sendsEncrypted (type : MessageType) : Trace :=
  ⟨samplePlatform, "", true, sessionEvents 0 "alice" "A001" ++ sessionEvents 1 "bob" "B001" ++
    [frameEvent 0 (encrypted type)]⟩

theorem envelopes_kept_lobby :
    (sendsEncrypted .chat).EnvelopeKept .text 6 (encrypted .chat) :=
  Trace.envelopes_kept .text (by decide +kernel) (by decide) rfl (by decide +kernel)

/-- The read pump asks for a text in a private chat. -/
theorem envelope_rejected :
    ¬ ∀ (r : Trace) (read : String → Json) (n : ℕ) (hn : n < r.events.length) (c : ClientID)
      (m : Message), r.events[n].input = .frame c m false false →
        (r.hub n).carriesEnvelope c m = true → r.EnvelopeKept read n m := by
  intro hkept
  have hlost := (hkept (sendsEncrypted .privateChat) .text 6 (by decide) 0 (encrypted .privateChat)
    rfl (by decide +kernel)).accepted
  have hsent : (0, { type := .error, messageID := "m1"
                     content := "Invalid private chat content" }) ∈
      sentBetween ((sendsEncrypted .privateChat).hub 6) ((sendsEncrypted .privateChat).hub 7) := by
    decide +kernel
  exact hlost _ hsent rfl (by decide)

end Hub

end LanChat
