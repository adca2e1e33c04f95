import Mathlib.Data.Sym.Sym2
import LanChat.Lib.Run
import LanChat.Store.ChatSpec

/-!
# Conversations do not mix

A private conversation is known by a text: its two codes, in lower case and in order, around a
colon.  User codes hold no colon, so the text names the pair of codes.

* `privateConversationKey_eq_iff`: two keys are the same exactly for the same unordered pair;
* `ChatOp`, `ChatStore.apply`: the operations on `chat_messages`;
* `Regular`: what every run of them keeps;
* `private_isolation`: a history query returns rows of its own conversation only.
-/

namespace LanChat

open GoStrings EventMachine

namespace ChatStore

/-! ### Conversation keys -/

theorem colon_not_mem {code : String} (hcode : normalizeUserCode code = .ok code) :
    ':' ∉ code.toList := by
  have hvalid := (normalizeUserCode_eq_ok.1 hcode).1
  intro hmem
  unfold validateUserCode fail at hvalid
  split_ifs at hvalid with hempty hsize hall
  have halnum := List.all_eq_true.1 hall ':' hmem
  revert halnum
  decide

/-- Two texts without a colon are known by what stands between them and a colon. -/
theorem append_colon_inj {a b c d : String} (ha : ':' ∉ a.toList) (hb : ':' ∉ b.toList)
    (heq : a ++ ":" ++ b = c ++ ":" ++ d) : a = c ∧ b = d := by
  have hlist := congrArg String.toList heq
  simp only [String.toList_append, List.append_assoc] at hlist
  obtain ⟨hac, -, hbd⟩ := (List.append_cons_inj_of_notMem ha hb).1 hlist
  exact ⟨String.ext hac, String.ext hbd⟩

theorem privateConversationKey_comm (first second : String) :
    privateConversationKey first second = privateConversationKey second first := by
  unfold privateConversationKey
  by_cases hlt : first < second
  · rw [if_pos hlt, if_neg (String.lt_asymm hlt)]
  · rw [if_neg hlt]
    by_cases hgt : second < first
    · rw [if_pos hgt]
    · rw [if_neg hgt, String.le_antisymm (String.not_lt.1 hgt) (String.not_lt.1 hlt)]

/-- The key of two codes is that of an unordered pair, and of no other one. -/
theorem privateConversationKey_eq_iff {a b c d : String} (ha : normalizeUserCode a = .ok a)
    (hb : normalizeUserCode b = .ok b) :
    privateConversationKey a b = privateConversationKey c d ↔ s(a, b) = s(c, d) := by
  have hac := colon_not_mem ha
  have hbc := colon_not_mem hb
  rw [Sym2.eq_iff]
  constructor
  · intro hkey
    unfold privateConversationKey at hkey
    split_ifs at hkey
    · exact .inl (append_colon_inj hac hbc hkey)
    · exact .inr (append_colon_inj hac hbc hkey)
    · exact .inr (append_colon_inj hbc hac hkey).symm
    · exact .inl (append_colon_inj hbc hac hkey).symm
  · rintro (⟨rfl, rfl⟩ | ⟨rfl, rfl⟩)
    · rfl
    · exact privateConversationKey_comm _ _

/-- With the sender known, the conversation names the target. -/
theorem privateConversationKey_inj {s t t' : String} (hs : normalizeUserCode s = .ok s)
    (ht : normalizeUserCode t = .ok t)
    (hkey : privateConversationKey s t = privateConversationKey s t') : t = t' :=
  Sym2.congr_right.1 ((privateConversationKey_eq_iff hs ht).1 hkey)

/-- The two parties of a conversation key. -/
theorem mem_of_privateConversationKey {s t c p : String} (hs : normalizeUserCode s = .ok s)
    (ht : normalizeUserCode t = .ok t)
    (hkey : privateConversationKey s t = privateConversationKey c p) : c ∈ [s, t] := by
  have hmem : c ∈ s(s, t) := by
    rw [(privateConversationKey_eq_iff hs ht).1 hkey]
    exact Sym2.mem_mk_left c p
  simpa using hmem

end ChatStore

/-! ### Runs -/

/-- The operations on `chat_messages`. -/
inductive ChatOp
  | save (pruneFails : Bool) (message : Message)
  | recall (messageID : String)
  | deliver (message : Message) (deliveryState : String)

namespace ChatStore

/-- The store after an operation; a failed one leaves what it has written. -/
def apply (s : ChatStore) : ChatOp → ChatStore
  | .save pruneFails message => (s.saveChatMessageIfNew pruneFails message).2
  | .recall messageID => (s.markMessageRecalled messageID).toOption.getD s
  | .deliver message deliveryState =>
    (s.updateChatMessageDeliveryStateForMessage message deliveryState).toOption.getD s

/-- The parties of a private row are codes in lower case, and its key is made of them. -/
def KeyOfParties (r : ChatRow) : Prop :=
  r.kind = .privateChat → normalizeUserCode r.senderCode = .ok r.senderCode ∧
    normalizeUserCode r.targetCode = .ok r.targetCode ∧
    r.conversationKey = privateConversationKey r.senderCode r.targetCode

/-- What every run keeps. -/
structure Regular (s : ChatStore) : Prop where
  ordered : Ordered s
  parties : ∀ r ∈ s.messages.rows, KeyOfParties r
  named : ∀ r ∈ s.messages.rows, r.messageID ≠ ""

variable {s s' : ChatStore}

/-- The row of a checked message has its parties' key and an id. -/
theorem chatRow_of_check {message : Message} {i : ChatIdentity} (id : ℕ)
    (hcheck : checkChatMessage message = .ok i) :
    KeyOfParties (chatRow id i message) ∧ (chatRow id i message).messageID ≠ "" := by
  constructor
  · intro hkind
    have hident := identity_of_check hcheck
    unfold chatMessageIdentity at hident
    obtain ⟨sender, hsender, hident⟩ := bind_eq_ok.1 hident
    split at hident
    · obtain ⟨target, htarget, hident⟩ := bind_eq_ok.1 hident
      cases hident
      exact ⟨normalizeUserCode_idem hsender, normalizeUserCode_idem htarget, rfl⟩
    · obtain ⟨_, -, hident⟩ := bind_eq_ok.1 hident
      cases hident
      cases hkind
  · unfold checkChatMessage at hcheck
    obtain ⟨_, hid, -⟩ := bind_eq_ok.1 hcheck
    exact bne_iff_ne.1 (require_eq_ok.1 hid)

theorem grows_apply (s : ChatStore) (op : ChatOp) :
    Grows (fun _ => True) (fun _ => True) s (s.apply op) := by
  cases op with
  | save pruneFails message => exact grows_saveChatMessageIfNew trivial
  | «recall» messageID =>
    cases hk : s.markMessageRecalled messageID with
    | error e =>
      simp only [apply, hk]
      exact Grows.refl s
    | ok s' =>
      simp only [apply, hk]
      exact grows_markMessageRecalled trivial hk
  | deliver message deliveryState =>
    cases hk : s.updateChatMessageDeliveryStateForMessage message deliveryState with
    | error e =>
      simp only [apply, hk]
      exact Grows.refl s
    | ok s' =>
      simp only [apply, hk]
      exact grows_updateDeliveryState hk

theorem Regular.grows {posts : Message → Prop} {recalls : String → Prop} (hr : Regular s)
    (hg : Grows posts recalls s s') : Regular s' := by
  have hbase : ∀ r ∈ s'.messages.rows, ∃ base, base.fixed = r.fixed ∧ KeyOfParties base ∧
      base.messageID ≠ "" := by
    intro r hrow
    obtain ⟨base, hbase, hfix, -⟩ := hg.origin r hrow
    refine ⟨base, hfix.symm, ?_⟩
    rcases hbase with hbase | ⟨message, i, -, hcheck, heq, -, -⟩
    · exact ⟨hr.parties base hbase, hr.named base hbase⟩
    · rw [heq]
      exact chatRow_of_check _ hcheck
  refine ⟨hg.ordered hr.ordered, fun r hrow => ?_, fun r hrow => ?_⟩
  · obtain ⟨base, hfix, hparties, -⟩ := hbase r hrow
    intro hkind
    rw [← ChatRow.fixed_kind hfix] at hkind
    rw [← ChatRow.fixed_senderCode hfix, ← ChatRow.fixed_targetCode hfix,
      ← ChatRow.fixed_conversationKey hfix]
    exact hparties hkind
  · obtain ⟨base, hfix, -, hnamed⟩ := hbase r hrow
    rw [← ChatRow.fixed_messageID hfix]
    exact hnamed

theorem regular_run (ops : List ChatOp) : Regular (run apply empty ops) :=
  run_invariant apply (I := Regular) (fun s op hr => hr.grows (grows_apply s op))
    ⟨ordered_empty, fun _ hr => absurd hr (by simp [empty]), fun _ hr => absurd hr (by simp [empty])⟩
    ops

/-! ### History queries -/

/-- What a successful query says about itself and its page. -/
theorem loadHistory_eq_ok {q : HistoryQuery} {page : HistoryPage}
    (hload : s.loadHistory q = .ok page) : ∃ kind key, queryConversation q = .ok (kind, key) ∧
      ∀ r ∈ page.rows, r ∈ s.messages.rows ∧ r.kind = kind ∧ r.conversationKey = key := by
  unfold loadHistory at hload
  obtain ⟨⟨kind, key⟩, hquery, hload⟩ := bind_eq_ok.1 hload
  cases hload
  refine ⟨kind, key, hquery, fun r hr => ?_⟩
  have hbefore := (List.mem_filter.1
    (List.mem_reverse.1 (List.mem_of_mem_take (List.mem_reverse.1 hr)))).1
  have hrow : r ∈ s.messages.rows.filter fun r => r.inConversation kind key := by
    unfold rowsBefore at hbefore
    dsimp only at hbefore
    split at hbefore
    · exact hbefore
    · split at hbefore
      · exact List.mem_of_mem_filter hbefore
      · cases hbefore
  obtain ⟨hmem, hin⟩ := List.mem_filter.1 hrow
  simp only [ChatRow.inConversation, Bool.and_eq_true, beq_iff_eq] at hin
  exact ⟨hmem, hin⟩

/-- The conversation of a private query. -/
theorem conversation_of_private_query {q : HistoryQuery} (hprivate : q.isPrivate = true)
    {kind : ChatKind} {key : String} (hquery : queryConversation q = .ok (kind, key)) :
    kind = .privateChat ∧ key = privateConversationKey (asciiLower q.userCode) (asciiLower q.peerCode) := by
  obtain ⟨rfl, user, peer, huser, hpeer, rfl⟩ := queryConversation_private hprivate hquery
  rw [(normalizeUserCode_eq_ok.1 huser).2, (normalizeUserCode_eq_ok.1 hpeer).2]
  exact ⟨rfl, rfl⟩

/-- The query of the other party. -/
def exchanged (q : HistoryQuery) : HistoryQuery :=
  { q with userCode := q.peerCode, peerCode := q.userCode }

theorem queryConversation_exchanged {q : HistoryQuery} (hprivate : q.isPrivate = true)
    (hu : validateUserCode q.userCode = .ok ()) (hp : validateUserCode q.peerCode = .ok ()) :
    queryConversation (exchanged q) = queryConversation q := by
  have huser := normalizeUserCode_eq_ok.2 ⟨hu, rfl⟩
  have hpeer := normalizeUserCode_eq_ok.2 ⟨hp, rfl⟩
  have hprivate' : (exchanged q).isPrivate = true := hprivate
  unfold queryConversation
  simp only [if_pos hprivate, if_pos hprivate']
  simp only [exchanged, huser, hpeer, bind, Except.bind]
  rw [privateConversationKey_comm]
  rfl

/-- A private history holds only the messages between its two users, is the same for both of them
and holds nothing of a room, and the history of a room holds nothing private. -/
theorem private_isolation (ops : List ChatOp) (q : HistoryQuery)
    (hu : validateUserCode q.userCode = .ok ()) (hp : validateUserCode q.peerCode = .ok ()) :
    let s := run apply empty ops
    (q.isPrivate = true → s.loadHistory (exchanged q) = s.loadHistory q ∧
      ∀ page, s.loadHistory q = .ok page → ∀ r ∈ page.rows, r.kind = .privateChat ∧
        s(asciiLower r.senderCode, asciiLower r.targetCode) =
          s(asciiLower q.userCode, asciiLower q.peerCode)) ∧
    (q.isPrivate = false → ∀ page, s.loadHistory q = .ok page → ∀ r ∈ page.rows, r.kind = .room) := by
  intro s
  have hregular : Regular s := regular_run ops
  refine ⟨fun hprivate => ⟨?_, fun page hload r hr => ?_⟩, fun hroom page hload r hr => ?_⟩
  · unfold loadHistory
    rw [queryConversation_exchanged hprivate hu hp]
    rfl
  · obtain ⟨kind, key, hquery, hrows⟩ := loadHistory_eq_ok hload
    obtain ⟨hmem, hkind, hkey⟩ := hrows r hr
    obtain ⟨rfl, rfl⟩ := conversation_of_private_query hprivate hquery
    obtain ⟨hsender, htarget, hown⟩ := hregular.parties r hmem hkind
    refine ⟨hkind, ?_⟩
    rw [← (normalizeUserCode_eq_ok.1 hsender).2, ← (normalizeUserCode_eq_ok.1 htarget).2]
    exact (privateConversationKey_eq_iff hsender htarget).1 (hown.symm.trans hkey)
  · obtain ⟨kind, key, hquery, hrows⟩ := loadHistory_eq_ok hload
    rw [(hrows r hr).2.1, (queryConversation_public hroom hquery).1]

/-- Alice and Bob write to each other, Alice writes to a third user and to a room. -/
def sampleChats : List ChatOp :=
  [.save false { type := .privateChat, username := "alice", userCode := "Alice1"
                 targetUserCode := "bob22", messageID := "1", content := "hello" },
   .save false { type := .privateChat, username := "bob", userCode := "bob22"
                 targetUserCode := "alice1", messageID := "1", content := "hi" },
   .save false { type := .privateChat, username := "alice", userCode := "alice1"
                 targetUserCode := "carol", messageID := "2", content := "psst" },
   .save false { type := .chat, username := "alice", userCode := "alice1", room := "bob22"
                 messageID := "3", content := "all" }]

theorem private_isolation_alice :
    let s := run apply empty sampleChats
    let q : HistoryQuery := { userCode := "alice1", peerCode := "BOB22", isPrivate := true }
    (s.loadHistory q).toOption.map (fun page => page.rows.map ChatRow.content) =
      some ["hello", "hi"] ∧
    (∀ page, s.loadHistory q = .ok page → ∀ r ∈ page.rows, r.kind = .privateChat ∧
      s(asciiLower r.senderCode, asciiLower r.targetCode) =
        s(asciiLower q.userCode, asciiLower q.peerCode)) := by
  intro s q
  refine ⟨by decide +kernel, ?_⟩
  exact ((private_isolation sampleChats q (by decide) (by decide)).1 rfl).2

end ChatStore

end LanChat
