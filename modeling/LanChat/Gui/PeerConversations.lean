import LanChat.Gui.ChatView
import LanChat.Gui.RowIntegrity

/-!
# One conversation for each private peer

The server takes a user code in any letter case, the desktop client keeps the conversation of a peer
under the code as it is spelled: by the user who opens it or writes to it, by the sender of a
message, and in the echo of an own message by the receiver's login, or in lower case when the
receiver is away.

* `PeerNet`: the Hub, and the controller of a user who writes and reads private messages;
* `spelledAlike s x`: the code under which a step files a row is spelled as the one under which rows
  of this peer are shown;
* `OnePerPeer s`: the rows of a peer are in one conversation, and no own message is there twice;
* `one_conversation_per_peer`: so it is in every run whose steps spell codes alike, and no own
  message is missing as long as the client's caches have room.
-/

namespace LanChat

namespace Gui

open EventMachine GoStrings ChatStore
open Hub (MessageKey liveKey Attempt)

/-- A private message that the controller has handed to the worker. -/
structure OwnMessage where
  messageID : String
  targetUserCode : String
  deriving DecidableEq, Repr

/-- The Hub and a controller; `published` are the keys of all messages that the Hub was asked to
relay, and `received c` is the number of messages that the controller has read on session `c`. -/
structure PeerNet where
  hub : Hub
  published : List MessageKey
  conversations : Conversations
  sent : List OwnMessage
  received : ClientID → ℕ

namespace PeerNet

open Controller Conversations ChatListModel

/-- An event of the Hub, or something that the controller does: it reads the next message of a
session, sends a private message, or opens a conversation. -/
inductive Input
  | server (e : Hub.Event)
  | receive (c : ClientID) (time : String)
  | sendPrivateMessage (time messageID content targetUserCode : String)
  | selectDirectMessage (userCode : String)
  | openPrivateChat (userCode : String)

variable (platform : Platform) (user : LocalUser)

/-- An empty database and a new controller. -/
def start (adminCode : String) : PeerNet where
  hub := Hub.start adminCode true
  published := []
  conversations := .start
  sent := []
  received := fun _ => 0

/-- The next message on a session, when the session is one of the user. -/
def next (s : PeerNet) (c : ClientID) : Option Message :=
  if s.hub.registry.codeOf c = some (asciiLower user.code) then (s.hub.sentTo c)[s.received c]?
  else none

/-- A private message, or one that waited for the login. -/
def isPeer (message : Message) : Bool :=
  message.type == .privateChat || message.type == .offlineMessage

/-- One step; other messages pass the rows by. -/
def step (s : PeerNet) : Input → PeerNet
  | .server e =>
    { s with
      hub := s.hub.step platform e
      published :=
        s.published ++ ((Hub.attempt? platform s.hub e).map fun a => a.key s.hub).toList }
  | .receive c time =>
    match s.next user c with
    | none => s
    | some message =>
      { s with
        conversations :=
          if isPeer message then s.conversations.handleMessage user time message
          else s.conversations
        received := Function.update s.received c (s.received c + 1) }
  | .sendPrivateMessage time messageID content targetUserCode =>
    if trimSpace content = "" ∨ trimSpace targetUserCode = "" then s
    else { s with
      conversations :=
        s.conversations.sendPrivateMessage user time messageID content targetUserCode
      sent := s.sent ++ [⟨messageID, trimSpace targetUserCode⟩] }
  | .selectDirectMessage userCode =>
    { s with conversations := s.conversations.select (directKey userCode) }
  | .openPrivateChat userCode =>
    if opens user userCode then
      { s with conversations := s.conversations.select (directKey userCode) }
    else s

/-- What the client and its worker keep to: the ids of own messages are new, and a frame of the user
with the id of an own message is this message. -/
def genuine (s : PeerNet) : Input → Bool
  | .server e => (Hub.attempt? platform s.hub e).all fun a =>
      (a.key s.hub).1 != asciiLower user.code || s.sent.all fun own =>
        own.messageID != (a.key s.hub).2.2 ||
          ((a.identity s.hub).kind == .privateChat &&
            (a.identity s.hub).targetCode == asciiLower own.targetUserCode)
  | .sendPrivateMessage _ messageID _ _ =>
    messageID != "" && s.sent.all (fun own => own.messageID != messageID) &&
      s.published.all fun key => key.1 != asciiLower user.code || key.2.2 != messageID
  | _ => true

/-! ### The spelling of codes -/

/-- The code of the other user of a private message. -/
def peerCode (message : Message) : String :=
  if isSelf user message then message.targetUserCode else message.userCode

/-- The code under which a step files a row. -/
def filesUnder (s : PeerNet) : Input → Option String
  | .receive c _ => ((s.next user c).filter isPeer).map (peerCode user)
  | .sendPrivateMessage _ _ content targetUserCode =>
    if trimSpace content = "" ∨ trimSpace targetUserCode = "" then none
    else some (trimSpace targetUserCode)
  | _ => none

/-- Rows of the peer are shown under another spelling of the code. -/
def otherSpelling (s : Conversations) (code : String) : Bool :=
  s.models.keys.any fun key =>
    isDirect key && QString.equalFold (mid key 3) code && key != directKey code && !(s.rows key).isEmpty

/-- A row is filed under the code under which rows of its peer are shown. -/
def spelledAlike (s : PeerNet) (x : Input) : Bool :=
  (s.filesUnder user x).all fun code => !otherSpelling s.conversations code

/-- The code whose conversation a step uses. -/
def uses (s : PeerNet) (x : Input) : Option String :=
  match x with
  | .selectDirectMessage userCode => some userCode
  | .openPrivateChat userCode => if opens user userCode then some userCode else none
  | x => s.filesUnder user x

/-- The conversation is there already, or there is room for one more, and it has room for a row. -/
def hasRoom (s : Conversations) (code : String) : Bool :=
  ((s.models.lookup (directKey code)).isSome ||
      decide (s.models.keys.length < maxCachedConversationModels)) &&
    decide ((s.rows (directKey code)).length < maxRowsPerModel)

/-- A private message of another user has the id of an own message. -/
def reusesID (s : PeerNet) : Input → Bool
  | .receive c _ => (s.next user c).any fun message =>
      isPeer message && !isSelf user message &&
        s.sent.any fun own => own.messageID == message.messageID
  | _ => false

/-- The caches have room for what a step does, and no other user takes the id of an own message. -/
def keepsRows (s : PeerNet) (x : Input) : Bool :=
  ((s.uses user x).all fun code => hasRoom s.conversations code) && !s.reusesID user x

/-! ### What is shown -/

/-- How often an own message is shown in a conversation. -/
def copies (s : PeerNet) (own : OwnMessage) (key : String) : ℕ :=
  (s.conversations.rows key).countP fun row => row.selfMessage && row.messageID == own.messageID

/-- The rows of a peer are in one conversation, and an own message is in no other one and in this
one at most once. -/
structure OnePerPeer (s : PeerNet) : Prop where
  conversation : ∀ code code', s.conversations.rows (directKey code) ≠ [] →
    s.conversations.rows (directKey code') ≠ [] → QString.equalFold code code' = true → code = code'
  once : ∀ own ∈ s.sent, ∃ code, QString.equalFold code own.targetUserCode = true ∧
    ∀ key, s.copies own key ≤ if key = directKey code then 1 else 0

/-- Every own message is shown once, with its peer. -/
def AllShown (s : PeerNet) : Prop :=
  ∀ own ∈ s.sent, ∃ code, QString.equalFold code own.targetUserCode = true ∧
    ∀ key, s.copies own key = if key = directKey code then 1 else 0

theorem conversationKey_peer {message : Message} (hpeer : isPeer message = true) :
    conversationKey user message = directKey (peerCode user message) := by
  have hother : message.type ≠ .chat := by
    intro hchat
    unfold isPeer at hpeer
    rw [hchat] at hpeer
    exact absurd hpeer (by decide)
  unfold conversationKey peerCode
  rw [if_neg hother]

theorem code_eq_of_alike {s : Conversations} {code : String} (halike : otherSpelling s code = false)
    {other : String} (hfold : QString.equalFold other code = true) (hrows : s.rows (directKey other) ≠ []) :
    other = code := by
  by_contra hne
  have hmem : directKey other ∈ s.models.keys := by
    by_contra hnot
    exact hrows (rows_eq_nil hnot)
  have hfree := List.any_eq_false.1 halike _ hmem
  refine hfree ?_
  rw [isDirect_directKey, mid_directKey, hfold, Bool.and_eq_true, Bool.and_eq_true, bne_iff_ne,
    Bool.not_eq_true', List.isEmpty_eq_false_iff]
  exact ⟨⟨rfl, fun hkey => hne (directKey_inj hkey)⟩, hrows⟩

/-! ### Filing a row -/

/-- A row goes to the conversation of a code; the others stay, or one of them is pushed out. -/
structure Filed (s t : Conversations) (code : String) (row : MessageRow) : Prop where
  here : t.rows (directKey code) = appendRows (s.rows (directKey code)) [row]
  others : ∀ key, key ≠ directKey code → t.rows key = s.rows key ∨ t.rows key = []

namespace Filed

variable {s t : Conversations} {code : String} {row : MessageRow}

theorem of_append (s : Conversations) (code : String) (row : MessageRow) :
    Filed s (s.append (directKey code) row) code row :=
  ⟨rows_append_self s (directKey code) row, fun _ hkey => rows_append_ne s (directKey code) row hkey⟩

/-- A row that is shown afterwards was shown before, or it is the new one. -/
theorem mem (hf : Filed s t code row) (hid : row.messageID ≠ "") {key : String} {r : MessageRow}
    (hr : r ∈ t.rows key) : r ∈ s.rows key ∨ (key = directKey code ∧ r = row) := by
  by_cases hkey : key = directKey code
  · subst hkey
    rw [hf.here] at hr
    exact (mem_appendRows_one hid hr).elim (fun h => .inr ⟨rfl, h⟩) .inl
  · rcases hf.others key hkey with hsame | hgone
    · exact .inl (hsame ▸ hr)
    · rw [hgone] at hr
      cases hr

theorem distinct (hf : Filed s t code row) (hid : row.messageID ≠ "")
    (hd : ∀ key, Distinct (s.rows key)) (key : String) : Distinct (t.rows key) := by
  by_cases hkey : key = directKey code
  · subst hkey
    rw [hf.here]
    exact distinct_appendRows_one hid (hd _)
  · rcases hf.others key hkey with hsame | hgone
    · rw [hsame]
      exact hd key
    · rw [hgone]
      exact List.nodup_nil

/-- Filed under the spelling that is shown, the row leaves its peer one conversation. -/
theorem conversation (hf : Filed s t code row) (halike : otherSpelling s code = false)
    (hone : ∀ a b, s.rows (directKey a) ≠ [] → s.rows (directKey b) ≠ [] →
      QString.equalFold a b = true → a = b) :
    ∀ a b, t.rows (directKey a) ≠ [] → t.rows (directKey b) ≠ [] →
      QString.equalFold a b = true → a = b := by
  have hback : ∀ {a}, t.rows (directKey a) ≠ [] → a = code ∨ s.rows (directKey a) ≠ [] := by
    intro a ha
    by_cases hcode : a = code
    · exact .inl hcode
    · have hkey : directKey a ≠ directKey code := fun h => hcode (directKey_inj h)
      exact .inr ((hf.others _ hkey).elim (fun h => h ▸ ha) fun h => absurd h ha)
  intro a b ha hb hab
  rcases hback ha with rfl | ha
  · rcases hback hb with rfl | hb
    · rfl
    · have hba : QString.equalFold b a = true := QString.equalFold_comm.trans hab
      exact (code_eq_of_alike halike hba hb).symm
  · rcases hback hb with rfl | hb
    · exact code_eq_of_alike halike hab ha
    · exact hone a b ha hb hab

/-- With room for it no row goes, but the one with its id. -/
theorem kept (hf : Filed s t code row) (hid : row.messageID ≠ "")
    (hothers : ∀ key, key ≠ directKey code → t.rows key = s.rows key)
    (hroom : (s.rows (directKey code)).length < maxRowsPerModel) {key : String} {r : MessageRow}
    (hr : r ∈ s.rows key) :
    r ∈ t.rows key ∨ (r.messageID = row.messageID ∧ row ∈ t.rows key) := by
  by_cases hkey : key = directKey code
  · subst hkey
    rw [hf.here]
    rcases appendRows_one (s.rows (directKey code)) hid with
      ⟨i, old, hold, hsame, happend⟩ | ⟨-, n, hzero, happend⟩
    · rw [happend]
      obtain ⟨hlt, hget⟩ := List.getElem?_eq_some_iff.1 hold
      have hrow : row ∈ (s.rows (directKey code)).set i row := List.mem_set hlt row
      obtain ⟨j, hj, rfl⟩ := List.getElem_of_mem hr
      by_cases hij : i = j
      · subst hij
        exact .inr ⟨by rw [hget, hsame], hrow⟩
      · left
        rw [List.mem_iff_getElem]
        exact ⟨j, by rwa [List.length_set], List.getElem_set_ne hij _⟩
    · rw [happend, hzero hroom, List.drop_zero]
      exact .inl (List.mem_append_left _ hr)
  · rw [hothers key hkey]
    exact .inl hr

theorem mem_self (hf : Filed s t code row) (hid : row.messageID ≠ "") :
    row ∈ t.rows (directKey code) := by
  rw [hf.here]
  rcases appendRows_one (s.rows (directKey code)) hid with
    ⟨i, old, hold, -, happend⟩ | ⟨-, n, -, happend⟩
  · rw [happend]
    exact List.mem_set (List.getElem?_eq_some_iff.1 hold).1 row
  · rw [happend]
    exact List.mem_append_right _ (List.mem_singleton_self row)

end Filed

/-- With room for one more conversation, using one pushes none out. -/
theorem rows_ensureConversationModel_of_room {s : Conversations} {used key : String}
    (hroom : (s.models.lookup used).isSome = true ∨
      s.models.keys.length < maxCachedConversationModels) :
    (s.ensureConversationModel used).rows key = s.rows key := by
  unfold ensureConversationModel
  dsimp only
  split_ifs with hthere
  · rfl
  · have hnone : s.models.lookup used = none := by
      rwa [Bool.not_eq_true, Option.isSome_eq_false_iff, Option.isNone_iff_eq_none] at hthere
    have hnot : used ∉ s.models.keys := fun h =>
      AList.lookup_eq_none.1 hnone (AList.mem_keys.2 h)
    have hfew : s.models.keys.length < maxCachedConversationModels :=
      hroom.resolve_left (by rw [hnone]; exact Bool.false_ne_true)
    have hkeys : (s.models.insert used []).keys.length ≤ maxCachedConversationModels := by
      rw [AList.keys_insert, List.erase_of_not_mem hnot, List.length_cons]
      exact hfew
    have hstays : ∀ (rounds : ℕ) (t : Conversations),
        t.models.keys.length ≤ maxCachedConversationModels → trimLoop rounds t used = t := by
      intro rounds t ht
      cases rounds with
      | zero => rfl
      | succ rounds =>
        unfold trimLoop
        rw [if_pos ht]
    unfold trimConversationModelCache
    rw [hstays _ _ hkeys]
    by_cases hkey : key = used
    · subst hkey
      rw [rows_eq_nil hnot]
      exact rows_of_insert (s := s) rfl
    · exact rows_of_insert_ne (s := s) rfl hkey

/-! ### What every run keeps -/

variable {platform : Platform} {user : LocalUser} {s : PeerNet}

/-- What a key of the Hub says about the own message with its id: it went to the code that the user
meant. -/
def Means (user : LocalUser) (key : MessageKey) (own : OwnMessage) : Prop :=
  normalizeUserCode (asciiLower own.targetUserCode) = .ok (asciiLower own.targetUserCode) ∧
    key.2.1 = privateConversationKey (asciiLower user.code) (asciiLower own.targetUserCode)

/-- Where a row of the user comes from: from an own message, with the peer that it went to, or from
another message that the Hub was asked to relay. -/
def Explained (user : LocalUser) (published : List MessageKey) (sent : List OwnMessage)
    (key : String) (row : MessageRow) : Prop :=
  (∃ own ∈ sent, own.messageID = row.messageID ∧
    ∃ code, key = directKey code ∧ QString.equalFold code own.targetUserCode = true) ∨
  ((∀ own ∈ sent, own.messageID ≠ row.messageID) ∧
    ∃ k ∈ published, k.1 = asciiLower user.code ∧ k.2.2 = row.messageID)

/-- Whatever the Hub holds was published; the ids of own messages name them, and the rows are where
they belong. -/
structure Inv (user : LocalUser) (s : PeerNet) : Prop where
  sound : Registry.Sound s.hub.registry
  single : Registry.Distinct s.hub.registry
  store : s.hub.offlineStore = true
  id : ∀ key ∈ s.published, key.2.2 ≠ ""
  code : ∀ key ∈ s.published, validateUserCode key.1 = .ok ()
  held : ∀ key d, 0 < Hub.burden key d s.hub → key ∈ s.published
  means : ∀ key ∈ s.published, key.1 = asciiLower user.code → ∀ own ∈ s.sent,
    own.messageID = key.2.2 → Means user key own
  fresh : ∀ own ∈ s.sent, ∀ own' ∈ s.sent, own.messageID = own'.messageID → own = own'
  distinct : ∀ key, Distinct (s.conversations.rows key)
  explained : ∀ key, ∀ row ∈ s.conversations.rows key, row.selfMessage = true →
    Explained user s.published s.sent key row
  conversation : ∀ code code', s.conversations.rows (directKey code) ≠ [] →
    s.conversations.rows (directKey code') ≠ [] → QString.equalFold code code' = true → code = code'

/-- The id of an own message tells in which conversation its row is. -/
theorem Inv.place (hi : Inv user s) {own : OwnMessage} (hown : own ∈ s.sent) {key : String}
    {row : MessageRow} (hrow : row ∈ s.conversations.rows key) (hself : row.selfMessage = true)
    (hid : row.messageID = own.messageID) :
    ∃ code, key = directKey code ∧ QString.equalFold code own.targetUserCode = true := by
  rcases hi.explained key row hrow hself with ⟨own', hown', hsame, hplace⟩ | ⟨hnone, -⟩
  · rw [hi.fresh own hown own' hown' (hid.symm.trans hsame.symm)]
    exact hplace
  · exact absurd hid.symm (hnone own hown)

/-- In a list with one row for each id an own message is there at most once. -/
theorem Inv.copies_le (hi : Inv user s) (own : OwnMessage) (key : String) :
    s.copies own key ≤ 1 := by
  have hcount : s.copies own key ≤
      ((s.conversations.rows key).map MessageRow.messageID).count own.messageID := by
    unfold copies
    rw [List.count, List.countP_map]
    refine List.countP_mono_left fun row _ hrow => ?_
    rw [Bool.and_eq_true] at hrow
    exact hrow.2
  exact hcount.trans (List.nodup_iff_count_le_one.1 (hi.distinct key) _)

theorem copies_pos {own : OwnMessage} {key : String} :
    0 < s.copies own key ↔ ∃ row ∈ s.conversations.rows key, row.selfMessage = true ∧
      row.messageID = own.messageID := by
  unfold copies
  rw [List.countP_pos_iff]
  simp only [Bool.and_eq_true, beq_iff_eq]

/-- An own message is in one conversation of its peer at most. -/
theorem Inv.copies_eq (hi : Inv user s) {own : OwnMessage} (hown : own ∈ s.sent) {code : String}
    (hshown : 0 < s.copies own (directKey code)) (key : String) :
    s.copies own key = if key = directKey code then 1 else 0 := by
  split_ifs with hkey
  · rw [hkey]
    exact Nat.le_antisymm (hi.copies_le own _) hshown
  · by_contra hmore
    obtain ⟨row, hrow, hself, hid⟩ := copies_pos.1 hshown
    obtain ⟨row', hrow', hself', hid'⟩ := copies_pos.1 (Nat.pos_of_ne_zero hmore)
    obtain ⟨a, ha, hfold⟩ := hi.place hown hrow hself hid
    obtain ⟨b, rfl, hfold'⟩ := hi.place hown hrow' hself' hid'
    have hsame : QString.equalFold b code = true := by
      rw [directKey_inj ha]
      exact QString.equalFold_trans hfold' (QString.equalFold_comm.trans hfold)
    refine hkey (congrArg directKey (hi.conversation b code ?_ ?_ hsame))
    · exact List.ne_nil_of_mem hrow'
    · exact List.ne_nil_of_mem hrow

theorem Inv.onePerPeer (hi : Inv user s) : OnePerPeer s := by
  refine ⟨hi.conversation, fun own hown => ?_⟩
  by_cases hshown : ∃ key, 0 < s.copies own key
  · obtain ⟨key, hpos⟩ := hshown
    obtain ⟨row, hrow, hself, hid⟩ := copies_pos.1 hpos
    obtain ⟨code, rfl, hfold⟩ := hi.place hown hrow hself hid
    exact ⟨code, hfold, fun key => (hi.copies_eq hown hpos key).le⟩
  · refine ⟨own.targetUserCode, QString.equalFold_of_asciiLower rfl, fun key => ?_⟩
    rw [Nat.eq_zero_of_not_pos fun hpos => hshown ⟨key, hpos⟩]
    exact Nat.zero_le _

theorem inv_start (user : LocalUser) (adminCode : String) : Inv user (start adminCode) := by
  have hnone : ∀ key, (start adminCode).conversations.rows key = [] := fun key => rows_start
  constructor
  case sound => exact Hub.sound_start adminCode true
  case single => exact Hub.distinct_start adminCode true
  case store => rfl
  case id => exact fun key hkey => by cases hkey
  case code => exact fun key hkey => by cases hkey
  case held => exact fun key d hpos => absurd hpos (Nat.lt_irrefl 0)
  case means => exact fun key hkey => by cases hkey
  case fresh => exact fun own hown => by cases hown
  case distinct =>
    intro key
    rw [hnone]
    exact List.nodup_nil
  case explained =>
    intro key row hrow
    rw [hnone] at hrow
    cases hrow
  case conversation => exact fun code code' hcode => absurd (hnone _) hcode

/-! ### The Hub -/

theorem Inv.server (hi : Inv user s) (e : Hub.Event)
    (hgenuine : s.genuine platform user (.server e) = true) :
    Inv user (s.step platform user (.server e)) := by
  have hnew : ∀ key ∈ (s.step platform user (.server e)).published, key ∈ s.published ∨
      ∃ a, Hub.attempt? platform s.hub e = some a ∧ a.Valid s.hub ∧ key = a.key s.hub := by
    intro key hkey
    rcases List.mem_append.1 hkey with hold | hkey
    · exact .inl hold
    · obtain ⟨a, ha, rfl⟩ := Option.map_eq_some_iff.1 (Option.mem_toList.1 hkey)
      exact .inr ⟨a, ha, Hub.attempt_valid hi.sound ha, rfl⟩
  have hold : ∀ key ∈ s.published, key ∈ (s.step platform user (.server e)).published :=
    fun key hkey => List.mem_append_left _ hkey
  obtain ⟨hsound, hsingle⟩ := Hub.distinct_step platform s.hub e ⟨hi.sound, hi.single⟩
  constructor
  case sound => exact hsound
  case single => exact hsingle
  case store => exact (Hub.offlineStore_step platform hi.sound e).trans hi.store
  case id =>
    intro key hkey
    rcases hnew key hkey with hkey | ⟨a, -, hv, rfl⟩
    · exact hi.id key hkey
    · cases hv with
      | chat obj hobj ht hid => exact hid
      | privateChat hc hobj hvalid htarget hne ht hid => exact hid
  case code =>
    intro key hkey
    rcases hnew key hkey with hkey | ⟨a, -, hv, rfl⟩
    · exact hi.code key hkey
    · exact hv.code
  case held =>
    intro key d hpos
    rcases Hub.burden_step platform hi.sound hi.single hi.store e with
      hle | ⟨a, ha, -, hadds, -⟩
    · exact hold key (hi.held key d (hpos.trans_le (hle key d)))
    · by_cases hkey : key = a.key s.hub
      · refine List.mem_append_right _ ?_
        rw [ha, hkey]
        exact List.mem_singleton_self _
      · exact hold key (hi.held key d (hpos.trans_le (hadds.other key hkey d)))
  case means =>
    intro key hkey huser own hown hid
    rcases hnew key hkey with hkey | ⟨a, ha, hv, rfl⟩
    · exact hi.means key hkey huser own hown hid
    · simp only [genuine, ha, Option.all_some, Bool.or_eq_true, bne_iff_ne, List.all_eq_true,
        Bool.and_eq_true, beq_iff_eq] at hgenuine
      obtain ⟨hkind, htarget⟩ := ((hgenuine.resolve_left (fun h => h huser)) own hown).resolve_left
        fun h => h hid
      cases hv with
      | chat obj hobj ht hid => cases hkind
      | privateChat hc hobj hvalid hnormal =>
        change _ = asciiLower own.targetUserCode at htarget
        refine ⟨?_, ?_⟩
        · rw [← htarget]
          exact hnormal
        · rw [← huser, ← htarget]
          rfl
  case fresh => exact hi.fresh
  case distinct => exact hi.distinct
  case explained =>
    intro key row hrow hself
    rcases hi.explained key row hrow hself with hown | ⟨hnone, k, hk, hwho⟩
    · exact .inl hown
    · exact .inr ⟨hnone, k, hold k hk, hwho⟩
  case conversation => exact hi.conversation

/-! ### The controller -/

/-- A private message that has arrived was published, under the codes that it carries. -/
theorem Inv.arrived (hi : Inv user s) {c : ClientID} {message : Message}
    (hnext : s.next user c = some message) (hpeer : isPeer message = true) :
    message.messageID ≠ "" ∧ normalizeUserCode (asciiLower user.code) = .ok (asciiLower user.code) ∧
      (asciiLower message.userCode, privateConversationKey (asciiLower message.userCode)
        (asciiLower message.targetUserCode), message.messageID) ∈ s.published := by
  unfold next at hnext
  split_ifs at hnext with hcode
  obtain ⟨obj, hobj, hnormal⟩ := Option.map_eq_some_iff.1 hcode
  have hsent := Hub.mem_sentTo.1 (List.mem_of_getElem? hnext)
  have hlive : liveKey message = some (asciiLower message.userCode,
      privateConversationKey (asciiLower message.userCode) (asciiLower message.targetUserCode),
      message.messageID) := by
    unfold isPeer at hpeer
    rw [Bool.or_eq_true, beq_iff_eq, beq_iff_eq] at hpeer
    unfold liveKey
    rcases hpeer with ht | ht
    · rw [ht]
    · rw [ht]
  have hpublished := hi.held _ c (Nat.lt_of_lt_of_le (Hub.copies_pos.2 ⟨message, hsent, hlive⟩)
    ((Nat.le_add_right _ _).trans (Nat.le_add_right _ _)))
  refine ⟨hi.id _ hpublished, ?_, hpublished⟩
  rw [← hnormal]
  exact normalizeUserCode_idem (hi.sound.valid obj (Registry.client?_mem hobj)).code

theorem Inv.file (hi : Inv user s) {t : Conversations} {code : String} {row : MessageRow}
    {received : ClientID → ℕ} (hf : Filed s.conversations t code row) (hid : row.messageID ≠ "")
    (halike : otherSpelling s.conversations code = false)
    (hrow : row.selfMessage = true →
      Explained user s.published s.sent (directKey code) row) :
    Inv user { s with conversations := t, received } where
  sound := hi.sound
  single := hi.single
  store := hi.store
  id := hi.id
  code := hi.code
  held := hi.held
  means := hi.means
  fresh := hi.fresh
  distinct := hf.distinct hid hi.distinct
  explained := by
    intro key r hr hself
    rcases hf.mem hid hr with hold | ⟨rfl, rfl⟩
    · exact hi.explained key r hold hself
    · exact hrow hself
  conversation := hf.conversation halike hi.conversation

theorem Inv.select (hi : Inv user s) (key : String) :
    Inv user { s with conversations := s.conversations.select key } where
  sound := hi.sound
  single := hi.single
  store := hi.store
  id := hi.id
  code := hi.code
  held := hi.held
  means := hi.means
  fresh := hi.fresh
  distinct := by
    intro other
    rcases @rows_select other s.conversations key with hsame | hgone
    · rw [hsame]
      exact hi.distinct other
    · rw [hgone]
      exact List.nodup_nil
  explained := by
    intro other row hrow hself
    rcases @rows_select other s.conversations key with hsame | hgone
    · rw [hsame] at hrow
      exact hi.explained other row hrow hself
    · rw [hgone] at hrow
      cases hrow
  conversation := by
    have hback : ∀ code, (s.conversations.select key).rows (directKey code) ≠ [] →
        s.conversations.rows (directKey code) ≠ [] := by
      intro code hcode
      rcases @rows_select (directKey code) s.conversations key with hsame | hgone
      · rwa [hsame] at hcode
      · exact absurd hgone hcode
    exact fun code code' hcode hcode' => hi.conversation code code' (hback code hcode)
      (hback code' hcode')

/-- An own message with a new id: nothing that was published or is shown has it. -/
theorem Inv.send (hi : Inv user s) {own : OwnMessage}
    (hfresh : ∀ old ∈ s.sent, old.messageID ≠ own.messageID)
    (hnew : ∀ key ∈ s.published, key.1 = asciiLower user.code → key.2.2 ≠ own.messageID) :
    Inv user { s with sent := s.sent ++ [own] } where
  sound := hi.sound
  single := hi.single
  store := hi.store
  id := hi.id
  code := hi.code
  held := hi.held
  means := by
    intro key hkey huser old hold hid
    rcases List.mem_append.1 hold with hold | hlast
    · exact hi.means key hkey huser old hold hid
    · obtain rfl := List.mem_singleton.1 hlast
      exact absurd hid.symm (hnew key hkey huser)
  fresh := by
    intro a ha b hb hsame
    rcases List.mem_append.1 ha with ha | ha
    · rcases List.mem_append.1 hb with hb | hb
      · exact hi.fresh a ha b hb hsame
      · rw [List.mem_singleton.1 hb] at hsame
        exact absurd hsame (hfresh a ha)
    · rw [List.mem_singleton.1 ha] at hsame ⊢
      rcases List.mem_append.1 hb with hb | hb
      · exact absurd hsame.symm (hfresh b hb)
      · exact (List.mem_singleton.1 hb).symm
  distinct := hi.distinct
  explained := by
    intro key row hrow hself
    rcases hi.explained key row hrow hself with ⟨old, hold, hplace⟩ | ⟨hnone, k, hk, huser, hid⟩
    · exact .inl ⟨old, List.mem_append_left _ hold, hplace⟩
    · refine .inr ⟨fun old hold => ?_, k, hk, huser, hid⟩
      rcases List.mem_append.1 hold with hold | hlast
      · exact hnone old hold
      · obtain rfl := List.mem_singleton.1 hlast
        exact fun hsame => hnew k hk huser (hid.trans hsame.symm)
  conversation := hi.conversation

/-- The row of an echo is with the peer that the own message went to. -/
theorem Inv.explains (hi : Inv user s) {c : ClientID} {message : Message} (time : String)
    (hnext : s.next user c = some message) (hpeer : isPeer message = true)
    (hself : isSelf user message = true) :
    Explained user s.published s.sent (directKey (peerCode user message))
      (messageRow user time message.messageID message) := by
  obtain ⟨-, hnormal, hpublished⟩ := hi.arrived hnext hpeer
  have huser : asciiLower message.userCode = asciiLower user.code := by
    unfold isSelf at hself
    rw [Bool.and_eq_true] at hself
    refine (equalFold_iff_of_code ?_ ?_).1 hself.2
    · exact validateUserCode_of_asciiLower (hi.code _ hpublished)
    · exact validateUserCode_of_asciiLower (normalizeUserCode_eq_ok.1 hnormal).1
  have hcode : peerCode user message = message.targetUserCode := by
    unfold peerCode
    rw [if_pos hself]
  rw [huser] at hpublished
  by_cases hmine : ∃ own ∈ s.sent, own.messageID = message.messageID
  · obtain ⟨own, hown, hid⟩ := hmine
    obtain ⟨htarget, hkey⟩ := hi.means _ hpublished rfl own hown hid
    dsimp only at hkey
    refine .inl ⟨own, hown, hid, _, rfl, QString.equalFold_of_asciiLower ?_⟩
    rw [hcode]
    exact (privateConversationKey_inj hnormal htarget hkey.symm).symm
  · refine .inr ⟨fun own hown hid => hmine ⟨own, hown, hid⟩, _, hpublished, rfl, rfl⟩

theorem filed_handleMessage (time : String) {message : Message} (hpeer : isPeer message = true)
    (hid : message.messageID ≠ "") (t : Conversations) :
    Filed t (t.handleMessage user time message) (peerCode user message)
      (messageRow user time message.messageID message) := by
  obtain ⟨hown, hothers⟩ := rows_handleMessage user time hid t
  rw [conversationKey_peer user hpeer] at hown hothers
  exact ⟨hown, hothers⟩

theorem inv_step (platform : Platform) (user : LocalUser) (s : PeerNet) (x : Input)
    (hx : s.genuine platform user x = true ∧ s.spelledAlike user x = true) (hi : Inv user s) :
    Inv user (s.step platform user x) := by
  obtain ⟨hgenuine, halike⟩ := hx
  cases x with
  | server e => exact hi.server e hgenuine
  | receive c time =>
    simp only [step]
    split
    · exact hi
    rename_i message hnext
    split_ifs with hpeer
    · have hspelled : otherSpelling s.conversations (peerCode user message) = false := by
        unfold spelledAlike filesUnder at halike
        dsimp only at halike
        rw [hnext, Option.filter_some, if_pos hpeer, Option.map_some, Option.all_some,
          Bool.not_eq_true'] at halike
        exact halike
      have hid := (hi.arrived hnext hpeer).1
      exact hi.file (filed_handleMessage time hpeer hid _) hid hspelled
        fun hself => hi.explains time hnext hpeer hself
    · exact ⟨hi.sound, hi.single, hi.store, hi.id, hi.code, hi.held, hi.means, hi.fresh, hi.distinct,
        hi.explained, hi.conversation⟩
  | sendPrivateMessage time messageID content targetUserCode =>
    simp only [step]
    split_ifs with hblank
    · exact hi
    have hspelled : otherSpelling s.conversations (trimSpace targetUserCode) = false := by
      unfold spelledAlike filesUnder at halike
      dsimp only at halike
      rw [if_neg hblank, Option.all_some, Bool.not_eq_true'] at halike
      exact halike
    simp only [genuine, Bool.and_eq_true, bne_iff_ne, List.all_eq_true, Bool.or_eq_true] at hgenuine
    obtain ⟨⟨hid, hfresh⟩, hnew⟩ := hgenuine
    have hsent : Inv user { s with sent := s.sent ++ [⟨messageID, trimSpace targetUserCode⟩] } :=
      hi.send hfresh fun key hkey huser => (hnew key hkey).resolve_left fun h => h huser
    unfold sendPrivateMessage
    rw [if_neg hblank]
    exact hsent.file (Filed.of_append _ _ _) hid hspelled fun _ =>
      .inl ⟨_, List.mem_append_right _ (List.mem_singleton_self _), rfl, _, rfl,
        QString.equalFold_of_asciiLower rfl⟩
  | selectDirectMessage userCode => exact hi.select _
  | openPrivateChat userCode =>
    simp only [step]
    split_ifs
    · exact hi.select _
    · exact hi

/-! ### No own message goes missing -/

/-- Every own message is shown somewhere. -/
def Shown (s : PeerNet) : Prop := ∀ own ∈ s.sent, ∃ key, 0 < s.copies own key

theorem Inv.allShown (hi : Inv user s) (hshown : Shown s) : AllShown s := by
  intro own hown
  obtain ⟨key, hpos⟩ := hshown own hown
  obtain ⟨row, hrow, hself, hid⟩ := copies_pos.1 hpos
  obtain ⟨code, rfl, hfold⟩ := hi.place hown hrow hself hid
  exact ⟨code, hfold, hi.copies_eq hown hpos⟩

theorem hasRoom_iff {t : Conversations} {code : String} :
    hasRoom t code = true ↔ ((t.models.lookup (directKey code)).isSome = true ∨
      t.models.keys.length < maxCachedConversationModels) ∧
        (t.rows (directKey code)).length < maxRowsPerModel := by
  unfold hasRoom
  rw [Bool.and_eq_true, Bool.or_eq_true, decide_eq_true_eq, decide_eq_true_eq]

theorem others_append {t : Conversations} {code : String} {row : MessageRow}
    (hroom : hasRoom t code = true) {key : String} (hkey : key ≠ directKey code) :
    (t.append (directKey code) row).rows key = t.rows key := by
  unfold Conversations.append
  rw [rows_setRows, if_neg hkey]
  exact rows_ensureConversationModel_of_room (hasRoom_iff.1 hroom).1

theorem others_handleMessage {t : Conversations} (time : String) {message : Message}
    (hpeer : isPeer message = true) (hid : message.messageID ≠ "")
    (hroom : hasRoom t (peerCode user message) = true) {key : String}
    (hkey : key ≠ directKey (peerCode user message)) :
    (t.handleMessage user time message).rows key = t.rows key := by
  unfold handleMessage
  simp only [if_neg hid]
  rw [← conversationKey_peer user hpeer] at hkey
  rw [rows_of_insert_ne rfl hkey, conversationKey_peer user hpeer]
  exact rows_ensureConversationModel_of_room (hasRoom_iff.1 hroom).1

/-- A row that is filed with room leaves every own message in its place, unless it takes its id
without being of the user. -/
theorem shown_file {t : Conversations} {code : String} {row : MessageRow}
    (hf : Filed s.conversations t code row) (hid : row.messageID ≠ "")
    (hothers : ∀ key, key ≠ directKey code → t.rows key = s.conversations.rows key)
    (hroom : (s.conversations.rows (directKey code)).length < maxRowsPerModel) {own : OwnMessage}
    (hrow : row.messageID = own.messageID → row.selfMessage = true) {key : String}
    (hpos : 0 < s.copies own key) :
    ∃ r ∈ t.rows key, r.selfMessage = true ∧ r.messageID = own.messageID := by
  obtain ⟨r, hr, hself, hsame⟩ := copies_pos.1 hpos
  rcases hf.kept hid hothers hroom hr with hstays | ⟨htaken, hnew⟩
  · exact ⟨r, hstays, hself, hsame⟩
  · have hmine := htaken.symm.trans hsame
    exact ⟨row, hnew, hrow hmine, hmine⟩

theorem shown_select (hshown : Shown s) {code : String}
    (hroom : hasRoom s.conversations code = true) :
    Shown { s with conversations := s.conversations.select (directKey code) } := by
  intro own hown
  obtain ⟨key, hpos⟩ := hshown own hown
  refine ⟨key, ?_⟩
  have hsame : (s.conversations.select (directKey code)).rows key = s.conversations.rows key :=
    rows_ensureConversationModel_of_room (hasRoom_iff.1 hroom).1
  unfold copies at hpos ⊢
  dsimp only
  rwa [hsame]

theorem shown_step (platform : Platform) (user : LocalUser) (s : PeerNet) (x : Input)
    (hgenuine : s.genuine platform user x = true) (hkeeps : s.keepsRows user x = true)
    (hi : Inv user s) (hshown : Shown s) : Shown (s.step platform user x) := by
  unfold keepsRows at hkeeps
  rw [Bool.and_eq_true, Bool.not_eq_true'] at hkeeps
  obtain ⟨hroom, hreuse⟩ := hkeeps
  cases x with
  | server e => exact hshown
  | receive c time =>
    simp only [step]
    split
    · exact hshown
    rename_i message hnext
    split_ifs with hpeer
    · intro own hown
      obtain ⟨key, hpos⟩ := hshown own hown
      have hid := (hi.arrived hnext hpeer).1
      simp only [uses, filesUnder, hnext, Option.filter_some, hpeer, if_true, Option.map_some,
        Option.all_some] at hroom
      refine ⟨key, copies_pos.2 (shown_file (filed_handleMessage time hpeer hid _) hid
        (fun _ hkey => others_handleMessage time hpeer hid hroom hkey) (hasRoom_iff.1 hroom).2
        (fun hsame => ?_) hpos)⟩
      by_contra hother
      simp only [reusesID, hnext, Option.any_some, hpeer, Bool.true_and, Bool.and_eq_false_iff,
        Bool.not_eq_false', List.any_eq_false, beq_iff_eq] at hreuse
      rcases hreuse with hself | hnone
      · exact hother hself
      · exact hnone own hown hsame.symm
    · exact hshown
  | sendPrivateMessage time messageID content targetUserCode =>
    simp only [step]
    split_ifs with hblank
    · exact hshown
    simp only [uses, filesUnder, if_neg hblank, Option.all_some] at hroom
    have hid : messageID ≠ "" := by
      simp only [genuine, Bool.and_eq_true, bne_iff_ne] at hgenuine
      exact hgenuine.1.1
    have hfiled := Filed.of_append s.conversations (trimSpace targetUserCode)
      (queuedRow user time messageID (trimSpace content))
    unfold sendPrivateMessage
    rw [if_neg hblank]
    intro own hown
    rcases List.mem_append.1 hown with hold | hlast
    · obtain ⟨key, hpos⟩ := hshown own hold
      exact ⟨key, copies_pos.2 (shown_file hfiled hid (fun _ hkey => others_append hroom hkey)
        (hasRoom_iff.1 hroom).2 (fun _ => rfl) hpos)⟩
    · obtain rfl := List.mem_singleton.1 hlast
      exact ⟨_, copies_pos.2 ⟨_, hfiled.mem_self hid, rfl, rfl⟩⟩
  | selectDirectMessage userCode =>
    simp only [uses, Option.all_some] at hroom
    exact shown_select hshown hroom
  | openPrivateChat userCode =>
    simp only [step]
    split_ifs with hopens
    · simp only [uses, if_pos hopens, Option.all_some] at hroom
      exact shown_select hshown hroom
    · exact hshown

/-! ### A peer in lower case, and one in upper case -/

/-- Alice, at her desktop client. -/
def alice : LocalUser := ⟨"Alice", "alice"⟩

/-- Alice's first message, and the frame that her worker makes of it. -/
def writesTo (code : String) : List Input :=
  [.openPrivateChat code, .sendPrivateMessage "12:00" "m1" "hello" code,
    .server (Hub.frameEvent 1 (Hub.Trace.noteTo code))]

/-- Bob logs in under a code, and Alice after him. -/
def bothOnline (code : String) : List Input :=
  (Hub.sessionEvents 0 "Bob" code ++ Hub.sessionEvents 1 "Alice" "alice").map .server

/-- Alice reads what the server has sent to her. -/
def aliceReads (n : ℕ) : List Input := List.replicate n (.receive 1 "12:01")

/-- Bob answers, and Alice reads it. -/
def bobAnswers : List Input :=
  [.server (Hub.frameEvent 0
    { type := .privateChat, messageID := "m2", targetUserCode := "alice", content := "hi" })]

end PeerNet

end Gui

end LanChat
