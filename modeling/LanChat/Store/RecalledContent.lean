import LanChat.Store.ChatSpec
import Mathlib.Data.List.DropRight

/-!
# What a recall hides

A recalled row is rendered with a fixed text in place of its content, but the row keeps its
content and its crypto envelope.  Two stores are *twins* when they differ only there.

* `historyView`, `storedView`: what `LoadHistory` and `GetStoredMessage` return;
* `MayBeCursor`: the rows that the cursor query gives on the twins of a store;
* `HidesHistory`, `HidesStored`: conditions on the store and the query;
* `twins_agree_iff`: the results are the same on all twins exactly under these conditions.

The search is on the stored content, the crypto envelope is rendered as it is stored, and among the
rows with the cursor's message id the content decides which one the page ends before; all three show
through (`recalled_content_shows`).
-/

namespace LanChat

open GoStrings

/-- `StoredMessage`. -/
structure StoredMessage where
  message : HistoryMessage
  kind : ChatKind
  conversationKey : String
  targetCode : String
  authorCode : String
  deriving DecidableEq, Repr

/-- A row as `getStoredMessage` renders it. -/
def ChatRow.toStored (r : ChatRow) : StoredMessage where
  message :=
    { r.toMessage with targetUserCode := if r.kind = .privateChat then r.targetCode else "" }
  kind := r.kind
  conversationKey := r.conversationKey
  targetCode := r.targetCode
  authorCode := asciiLower r.senderCode

/-- The row with other texts in the two columns, if it is recalled. -/
def ChatRow.mask (content : ChatRow → String) (crypto : String → String) (r : ChatRow) : ChatRow :=
  if r.recalled then { r with content := content r, crypto := crypto r.crypto } else r

/-- The row without the two columns that a recall should hide. -/
def ChatRow.redact (r : ChatRow) : ChatRow := r.mask (fun _ => "") fun _ => ""

theorem ChatRow.redact_of_not {r : ChatRow} (h : r.recalled = false) : r.redact = r := by
  simp [ChatRow.redact, ChatRow.mask, h]

section mask

variable (content : ChatRow → String) (crypto : String → String) (r : ChatRow)

@[simp] theorem ChatRow.recalled_mask : (r.mask content crypto).recalled = r.recalled := by
  unfold ChatRow.mask
  split <;> rfl

@[simp] theorem ChatRow.id_mask : (r.mask content crypto).id = r.id := by
  unfold ChatRow.mask
  split <;> rfl

@[simp] theorem ChatRow.messageID_mask : (r.mask content crypto).messageID = r.messageID := by
  unfold ChatRow.mask
  split <;> rfl

@[simp] theorem ChatRow.key_mask : (r.mask content crypto).key = r.key := by
  unfold ChatRow.mask
  split <;> rfl

@[simp] theorem ChatRow.inConversation_mask (kind : ChatKind) (conversationKey : String) :
    (r.mask content crypto).inConversation kind conversationKey =
      r.inConversation kind conversationKey := by
  unfold ChatRow.mask
  split <;> rfl

@[simp] theorem ChatRow.redact_mask : (r.mask content crypto).redact = r.redact := by
  unfold ChatRow.redact ChatRow.mask
  split <;> simp_all

end mask

/-- Rows that are equal but for what a recall hides, one of them not recalled. -/
theorem ChatRow.eq_of_redact {a b : ChatRow} (h : a.redact = b.redact)
    (ha : a.recalled = false) : a = b := by
  have hb : b.recalled = false := by
    have := congrArg ChatRow.recalled h
    simpa [ChatRow.redact, ha] using this.symm
  rwa [ChatRow.redact_of_not ha, ChatRow.redact_of_not hb] at h

/-- Lists of rows that are equal but for what a recall hides, the first without recalled rows. -/
theorem eq_of_map_redact {rows rows' : List ChatRow}
    (h : rows.map ChatRow.redact = rows'.map ChatRow.redact)
    (hrows : ∀ r ∈ rows, r.recalled = false) : rows = rows' := by
  induction rows generalizing rows' with
  | nil => simpa using h
  | cons a rows ih =>
    cases rows' with
    | nil => simp at h
    | cons b rows' =>
      simp only [List.map_cons, List.cons.injEq] at h
      rw [ChatRow.eq_of_redact h.1 (hrows a List.mem_cons_self),
        ih h.2 fun r hr => hrows r (List.mem_cons_of_mem a hr)]

/-! ### The order of the index -/

theorem empty_le (s : String) : "" ≤ s := by
  rw [String.le_iff_toList_le]
  exact not_lt.1 (List.not_lt_nil _)

theorem lt_append_self (c : String) {text : String} (ht : text ≠ "") : c < c ++ text := by
  rw [String.lt_iff_toList_lt, String.toList_append]
  have hne : text.toList ≠ [] := fun h => ht (String.toList_eq_nil_iff.1 h)
  induction c.toList with
  | nil =>
    obtain ⟨x, xs, hx⟩ := List.exists_cons_of_ne_nil hne
    rw [hx]
    exact List.nil_lt_cons x xs
  | cons x xs ih => exact List.cons_lt_cons_iff.2 (.inr ⟨rfl, ih⟩)

theorem ChatRow.scopeKey_lt {a b : ChatRow} :
    a.scopeKey < b.scopeKey ↔ a.content < b.content ∨ a.content = b.content ∧ a.id < b.id :=
  Prod.Lex.toLex_lt_toLex

theorem ChatRow.scopeKey_le {a b : ChatRow} :
    a.scopeKey ≤ b.scopeKey ↔ a.content < b.content ∨ a.content = b.content ∧ a.id ≤ b.id :=
  Prod.Lex.toLex_le_toLex

namespace ChatStore

/-- The stores differ only in the content and the crypto envelope of recalled rows. -/
structure Twin (s s' : ChatStore) : Prop where
  messages : s.messages.rows.map ChatRow.redact = s'.messages.rows.map ChatRow.redact
  lastID : s.lastID = s'.lastID
  offline : s.offline = s'.offline
  accounts : s.accounts = s'.accounts

/-- What `LoadHistory` returns. -/
def historyView (s : ChatStore) (q : HistoryQuery) : Except GoError (List HistoryMessage × Bool) :=
  (s.loadHistory q).map fun page => (page.messages, page.hasMore)

/-- What `GetStoredMessage` returns. -/
def storedView (s : ChatStore) (messageID : String) : Except GoError StoredMessage :=
  (s.getStoredMessage messageID).map ChatRow.toStored

/-- The content contains the text searched for. -/
def found (search : String) (r : ChatRow) : Bool :=
  search == "" || decide (search.toList <:+: r.content.toList)

/-- Enough unrecalled rows match for the page, all of them newer than every recalled row; with a
search text one more such row, older or newer, keeps `HasMore` true. -/
def PageFull (rows : List ChatRow) (search : String) (limit : ℕ) : Prop :=
  limit ≤ ((rows.rtakeWhile fun r => !r.recalled).filter (found search)).length ∧
    (search ≠ "" → limit < ((rows.filter fun r => !r.recalled).filter (found search)).length)

/-- The rows of a conversation. -/
def scope (s : ChatStore) (kind : ChatKind) (conversationKey : String) : List ChatRow :=
  s.messages.rows.filter fun r => r.inConversation kind conversationKey

/-- Those of them before a row id. -/
def olderThan (s : ChatStore) (kind : ChatKind) (conversationKey : String) (id : ℕ) :
    List ChatRow :=
  (s.scope kind conversationKey).filter fun x => x.id < id

/-- The last page of the rows needs no recalled one. -/
def Hides (rows : List ChatRow) (q : HistoryQuery) : Prop :=
  (∀ r ∈ rows, r.recalled = false) ∨ PageFull rows (trimSpace q.searchQuery) (pageLimit q.limit)

/-- The cursor query can give the row: with no content if it is recalled, it is not after an
unrecalled row with the message id. -/
def MayBeCursor (s : ChatStore) (kind : ChatKind) (conversationKey messageID : String)
    (r : ChatRow) : Prop :=
  r ∈ s.scope kind conversationKey ∧ r.messageID = messageID ∧
    ∀ u ∈ s.scope kind conversationKey, u.messageID = messageID → u.recalled = false →
      r.redact.scopeKey ≤ u.scopeKey

/-- Whichever row the cursor query gives, the page before it needs no recalled row; and between two
such rows none is recalled or found. -/
structure HidesCursor (s : ChatStore) (q : HistoryQuery) (kind : ChatKind)
    (conversationKey : String) : Prop where
  page : ∀ r, s.MayBeCursor kind conversationKey q.beforeMessageID r →
    Hides (s.olderThan kind conversationKey r.id) q
  gap : ∀ a b, s.MayBeCursor kind conversationKey q.beforeMessageID a →
    s.MayBeCursor kind conversationKey q.beforeMessageID b →
    ∀ x ∈ s.scope kind conversationKey, a.id ≤ x.id → x.id < b.id →
      x.recalled = false ∧ found (trimSpace q.searchQuery) x = false

/-- The query is rejected, or no page that it can end at needs a recalled row, and they do not
differ. -/
def HidesHistory (s : ChatStore) (q : HistoryQuery) : Prop :=
  ∀ kind conversationKey, queryConversation q = .ok (kind, conversationKey) →
    if q.beforeMessageID = "" then Hides (s.scope kind conversationKey) q
    else s.HidesCursor q kind conversationKey

/-- The newest row under the id, if there is one, is not recalled. -/
def HidesStored (s : ChatStore) (messageID : String) : Prop :=
  ∀ r ∈ (s.messages.rows.filter fun r => r.messageID == messageID).getLast?, r.recalled = false

/-! ### Twins -/

variable {s s' : ChatStore}

/-- The store with other texts in its recalled rows. -/
def mask (s : ChatStore) (content : ChatRow → String) (crypto : String → String) : ChatStore :=
  { s with
    messages := s.messages.modify ChatRow.recalled
      (fun r => { r with content := content r, crypto := crypto r.crypto })
      (Table.keepsKey_keyClash fun _ => rfl) }

@[simp] theorem rows_mask (s : ChatStore) (content : ChatRow → String) (crypto : String → String) :
    (s.mask content crypto).messages.rows = s.messages.rows.map (ChatRow.mask content crypto) := by
  simp only [mask, Table.rows_modify]
  rfl

theorem twin_mask (s : ChatStore) (content : ChatRow → String) (crypto : String → String) :
    Twin s (s.mask content crypto) := by
  refine ⟨?_, rfl, rfl, rfl⟩
  rw [rows_mask, List.map_map]
  congr 1
  funext r
  exact (r.redact_mask content crypto).symm

theorem mem_scope {kind : ChatKind} {key : String} {r : ChatRow} :
    r ∈ s.scope kind key ↔ r ∈ s.messages.rows ∧ r.inConversation kind key = true :=
  List.mem_filter

/-- Selection by conversation does not look at the two columns. -/
theorem scope_of_mask {content : ChatRow → String} {crypto : String → String}
    (h : s'.messages.rows = s.messages.rows.map (ChatRow.mask content crypto)) (kind : ChatKind)
    (key : String) : s'.scope kind key = (s.scope kind key).map (ChatRow.mask content crypto) := by
  unfold scope
  rw [h, List.filter_map]
  simp only [Function.comp_def, ChatRow.inConversation_mask]

theorem olderThan_of_mask {content : ChatRow → String} {crypto : String → String}
    (h : s'.messages.rows = s.messages.rows.map (ChatRow.mask content crypto)) (kind : ChatKind)
    (key : String) (id : ℕ) :
    s'.olderThan kind key id = (s.olderThan kind key id).map (ChatRow.mask content crypto) := by
  unfold olderThan
  rw [scope_of_mask h, List.filter_map]
  simp only [Function.comp_def, ChatRow.id_mask]

theorem Twin.rows (h : Twin s s') : (s.mask (fun _ => "") fun _ => "").messages.rows =
    s'.messages.rows.map (ChatRow.mask (fun _ => "") fun _ => "") :=
  (rows_mask s _ _).trans h.messages

theorem Twin.scope (h : Twin s s') (kind : ChatKind) (key : String) :
    (s.scope kind key).map ChatRow.redact = (s'.scope kind key).map ChatRow.redact :=
  (scope_of_mask (rows_mask s _ _) kind key).symm.trans (scope_of_mask h.rows kind key)

theorem Twin.olderThan (h : Twin s s') (kind : ChatKind) (key : String) (id : ℕ) :
    (s.olderThan kind key id).map ChatRow.redact =
      (s'.olderThan kind key id).map ChatRow.redact :=
  (olderThan_of_mask (rows_mask s _ _) kind key id).symm.trans (olderThan_of_mask h.rows kind key id)

theorem Twin.symm (h : Twin s s') : Twin s' s :=
  ⟨h.messages.symm, h.lastID.symm, h.offline.symm, h.accounts.symm⟩

/-! ### The row of the cursor -/

/-- What `cursorRow` gives: the first of the rows with the message id. -/
theorem cursorRow_spec {kind : ChatKind} {key messageID : String} {c : ChatRow}
    (h : s.cursorRow kind key messageID = some c) : c ∈ s.scope kind key ∧
      c.messageID = messageID ∧
      ∀ u ∈ s.scope kind key, u.messageID = messageID → c.scopeKey ≤ u.scopeKey := by
  have hmem : ∀ u, u ∈ (s.messages.rows.filter fun r => r.inConversation kind key &&
      r.messageID == messageID) ↔ u ∈ s.scope kind key ∧ u.messageID = messageID := by
    intro u
    rw [List.mem_filter, mem_scope, Bool.and_eq_true, beq_iff_eq, and_assoc]
  obtain ⟨hc, hid⟩ := (hmem c).1 (List.argmin_mem h)
  exact ⟨hc, hid, fun u hu huid => List.le_of_mem_argmin ((hmem u).2 ⟨hu, huid⟩) h⟩

theorem exists_cursorRow {kind : ChatKind} {key messageID : String} {r : ChatRow}
    (hr : r ∈ s.scope kind key) (hid : r.messageID = messageID) :
    ∃ c, s.cursorRow kind key messageID = some c := by
  obtain ⟨hrow, hin⟩ := mem_scope.1 hr
  refine Option.ne_none_iff_exists'.1 fun hnone => ?_
  have hmem : r ∈ s.messages.rows.filter fun r => r.inConversation kind key &&
      r.messageID == messageID := by
    rw [List.mem_filter, Bool.and_eq_true, beq_iff_eq]
    exact ⟨hrow, hin, hid⟩
  rw [List.argmin_eq_none.1 hnone] at hmem
  cases hmem

/-- A row that comes before all others with the message id is the one. -/
theorem cursorRow_eq_some {kind : ChatKind} {key messageID : String} {c : ChatRow}
    (hc : c ∈ s.scope kind key) (hid : c.messageID = messageID)
    (hfirst : ∀ u ∈ s.scope kind key, u.messageID = messageID →
      u = c ∨ c.scopeKey < u.scopeKey) : s.cursorRow kind key messageID = some c := by
  obtain ⟨u, hu⟩ := exists_cursorRow hc hid
  obtain ⟨hmem, huid, hle⟩ := cursorRow_spec hu
  rcases hfirst u hmem huid with rfl | hlt
  · exact hu
  · exact absurd (hle c hc hid) (not_le_of_gt hlt)

theorem rowsBefore_start (s : ChatStore) (kind : ChatKind) (key : String) :
    s.rowsBefore kind key "" = s.scope kind key := by
  unfold rowsBefore
  exact if_pos rfl

theorem rowsBefore_of_cursor {kind : ChatKind} {key before : String} (hbefore : before ≠ "")
    {c : ChatRow} (hc : s.cursorRow kind key before = some c) :
    s.rowsBefore kind key before = s.olderThan kind key c.id := by
  unfold rowsBefore
  rw [hc]
  exact if_neg hbefore

theorem rowsBefore_of_none {kind : ChatKind} {key before : String} (hbefore : before ≠ "")
    (hnone : s.cursorRow kind key before = none) : s.rowsBefore kind key before = [] := by
  unfold rowsBefore
  rw [hnone]
  exact if_neg hbefore

/-- Twins have the same unrecalled rows. -/
theorem filter_not_recalled_eq {rows rows' : List ChatRow}
    (h : rows.map ChatRow.redact = rows'.map ChatRow.redact) :
    (rows.filter fun r => !r.recalled) = rows'.filter fun r => !r.recalled := by
  have hfilter (l : List ChatRow) : (l.map ChatRow.redact).filter (fun r => !r.recalled) =
      (l.filter fun r => !r.recalled).map ChatRow.redact := by
    rw [List.filter_map]
    simp only [Function.comp_def, ChatRow.redact, ChatRow.recalled_mask]
  refine eq_of_map_redact ?_ fun r hr => by simpa using (List.mem_filter.1 hr).2
  rw [← hfilter, ← hfilter, h]

/-! ### The rows that the cursor query can give -/

/-- A recalled row comes first without its content. -/
theorem redact_scopeKey_le (r : ChatRow) : r.redact.scopeKey ≤ r.scopeKey := by
  rw [ChatRow.scopeKey_le]
  unfold ChatRow.redact ChatRow.mask
  split_ifs
  · rcases (empty_le r.content).lt_or_eq with hlt | heq
    · exact .inl hlt
    · exact .inr ⟨heq, Nat.le_refl _⟩
  · exact .inr ⟨rfl, Nat.le_refl _⟩

/-- A row with the message id that may be the cursor passes this on to recalled rows before it. -/
theorem MayBeCursor.of_recalled {kind : ChatKind} {key messageID : String} {r x : ChatRow}
    (hr : s.MayBeCursor kind key messageID r) (hx : x ∈ s.scope kind key)
    (hid : x.messageID = messageID) (hrecalled : x.recalled = true) (hlt : x.id < r.id) :
    s.MayBeCursor kind key messageID x := by
  refine ⟨hx, hid, fun u hu huid hurec => le_trans (le_of_lt ?_) (hr.2.2 u hu huid hurec)⟩
  have hcontent : x.redact.content = "" := by
    unfold ChatRow.redact ChatRow.mask
    rw [if_pos hrecalled]
  have hids : x.redact.id < r.redact.id := by
    unfold ChatRow.redact
    rwa [ChatRow.id_mask, ChatRow.id_mask]
  rw [ChatRow.scopeKey_lt, hcontent]
  rcases (empty_le r.redact.content).lt_or_eq with hless | heq
  · exact .inl hless
  · exact .inr ⟨heq, hids⟩

/-- What the query gives on a twin is, in the store, such a row. -/
theorem Twin.mayBeCursor (h : Twin s s') {kind : ChatKind} {key messageID : String} {c : ChatRow}
    (hc : s'.cursorRow kind key messageID = some c) :
    ∃ r, s.MayBeCursor kind key messageID r ∧ r.id = c.id := by
  obtain ⟨hmem, hid, hfirst⟩ := cursorRow_spec hc
  have hredact : c.redact ∈ (s.scope kind key).map ChatRow.redact := by
    rw [h.scope kind key]
    exact List.mem_map_of_mem hmem
  obtain ⟨r, hr, heq⟩ := List.mem_map.1 hredact
  have hrid : r.messageID = c.messageID := by
    have hsame := congrArg ChatRow.messageID heq
    unfold ChatRow.redact at hsame
    rwa [ChatRow.messageID_mask, ChatRow.messageID_mask] at hsame
  refine ⟨r, ⟨hr, hrid.trans hid, fun u hu huid hurec => ?_⟩, ?_⟩
  · rw [heq]
    have hu' : u ∈ s'.scope kind key := by
      have hfilter := filter_not_recalled_eq (h.scope kind key)
      have hin : u ∈ (s.scope kind key).filter fun r => !r.recalled :=
        List.mem_filter.2 ⟨hu, by simp [hurec]⟩
      rw [hfilter] at hin
      exact List.mem_of_mem_filter hin
    exact (redact_scopeKey_le c).trans (hfirst u hu' huid)
  · have hsame := congrArg ChatRow.id heq
    unfold ChatRow.redact at hsame
    rwa [ChatRow.id_mask, ChatRow.id_mask] at hsame

/-- Contents of the recalled rows under which the query gives the row: none for itself, more than its
content for others with the message id. -/
def steer (kind : ChatKind) (key : String) (r : ChatRow) (text others : String) (x : ChatRow) :
    String :=
  if x.inConversation kind key = true ∧ x.messageID = r.messageID then
    if x.id = r.id then "" else r.redact.content ++ text
  else others

theorem cursorRow_steer (hs : Ordered s) {kind : ChatKind} {key messageID : String} {r : ChatRow}
    (hr : s.MayBeCursor kind key messageID r) {text : String} (htext : text ≠ "") (others : String)
    (crypto : String → String) :
    ∃ c, (s.mask (steer kind key r text others) crypto).cursorRow kind key messageID = some c ∧
      c.id = r.id := by
  obtain ⟨hmem, hid, hfirst⟩ := hr
  have hscope := scope_of_mask (rows_mask s (steer kind key r text others) crypto) kind key
  have hself : (r.mask (steer kind key r text others) crypto).scopeKey = r.redact.scopeKey := by
    unfold ChatRow.redact ChatRow.mask ChatRow.scopeKey
    split_ifs
    · unfold steer
      rw [if_pos ⟨(mem_scope.1 hmem).2, rfl⟩, if_pos rfl]
    · rfl
  refine ⟨_, cursorRow_eq_some (hscope ▸ List.mem_map_of_mem hmem)
    ((r.messageID_mask _ _).trans hid) fun u' hu' huid => ?_, r.id_mask _ _⟩
  rw [hscope] at hu'
  obtain ⟨u, hu, rfl⟩ := List.mem_map.1 hu'
  rw [ChatRow.messageID_mask] at huid
  rw [hself]
  by_cases hsame : u.id = r.id
  · rw [hs.eq_of_id (mem_scope.1 hu).1 (mem_scope.1 hmem).1 hsame]
    exact .inl rfl
  · right
    cases hrec : u.recalled with
    | true =>
      -- the content has been made greater
      rw [ChatRow.scopeKey_lt]
      left
      unfold ChatRow.mask steer
      rw [if_pos hrec, if_pos ⟨(mem_scope.1 hu).2, huid.trans hid.symm⟩, if_neg hsame]
      exact lt_append_self _ htext
    | false =>
      have hkeep : u.mask (steer kind key r text others) crypto = u := by
        unfold ChatRow.mask
        rw [hrec, if_neg Bool.false_ne_true]
      rw [hkeep]
      refine lt_of_le_of_ne (hfirst u hu huid hrec) fun heq => hsame ?_
      have hids := congrArg (fun k => (ofLex k).2) heq
      unfold ChatRow.redact at hids
      exact (hids.symm.trans (r.id_mask _ _))

/-! ### History pages -/

/-- `LoadHistory` on the rows before the cursor. -/
theorem loadHistory_eq {q : HistoryQuery} {kind : ChatKind} {conversationKey : String}
    (hq : queryConversation q = .ok (kind, conversationKey)) (s : ChatStore) :
    s.loadHistory q = .ok
      (let rows := (s.rowsBefore kind conversationKey q.beforeMessageID).filter
        (found (trimSpace q.searchQuery))
       ⟨(rows.reverse.take (pageLimit q.limit)).reverse,
        decide (pageLimit q.limit < rows.length)⟩) := by
  unfold loadHistory
  rw [hq]
  rfl

theorem pageLimit_pos (limit : ℤ) : 0 < pageLimit limit := by
  unfold pageLimit maxHistoryPageSize
  split_ifs <;> omega

/-- The newest rows of a list that ends in enough of them. -/
theorem newest_append {α : Type*} (old new : List α) {n : ℕ} (hn : n ≤ new.length) :
    ((old ++ new).reverse.take n).reverse = (new.reverse.take n).reverse := by
  rw [List.reverse_append, List.take_append_of_le_length (by simpa using hn)]

/-- A row of the list with fewer than `n` rows after it is among the newest `n`. -/
theorem mem_newest {α : Type*} (old new : List α) (r : α) {n : ℕ} (hn : new.length < n) :
    r ∈ ((old ++ r :: new).reverse.take n).reverse := by
  obtain ⟨k, rfl⟩ : ∃ k, n = new.reverse.length + (k + 1) :=
    ⟨n - new.length - 1, by simp only [List.length_reverse]; omega⟩
  simp [List.take_append]

/-- Rows with a recalled one end in that one and unrecalled rows. -/
theorem exists_newest_recalled {rows : List ChatRow} (h : ∃ r ∈ rows, r.recalled = true) :
    ∃ old r, rows = old ++ r :: rows.rtakeWhile (fun r => !r.recalled) ∧ r.recalled = true := by
  induction rows using List.reverseRecOn with
  | nil => simp at h
  | append_singleton rows a ih =>
    cases ha : a.recalled with
    | true =>
      refine ⟨rows, a, ?_, ha⟩
      rw [List.rtakeWhile_concat_neg _ _ _ (by simp [ha])]
    | false =>
      have hrows : ∃ r ∈ rows, r.recalled = true := by
        obtain ⟨r, hr, hrec⟩ := h
        rcases List.mem_append.1 hr with hr | hr
        · exact ⟨r, hr, hrec⟩
        · rw [List.mem_singleton.1 hr, ha] at hrec
          cases hrec
      obtain ⟨old, r, heq, hrec⟩ := ih hrows
      refine ⟨old, r, ?_, hrec⟩
      rw [List.rtakeWhile_concat_pos _ _ _ (by simp [ha]), ← List.cons_append, ← List.append_assoc,
        ← heq]

theorem not_recalled_of_mem_rtakeWhile {rows : List ChatRow} {r : ChatRow}
    (hr : r ∈ rows.rtakeWhile fun r => !r.recalled) : r.recalled = false := by
  simpa using List.mem_rtakeWhile_imp hr

/-- A page that is full without recalled rows is the same on twins. -/
theorem page_eq_of_full {rows rows' : List ChatRow} {search : String} {limit : ℕ}
    (h : rows.map ChatRow.redact = rows'.map ChatRow.redact) (hfull : PageFull rows search limit) :
    ((rows.filter (found search)).reverse.take limit).reverse =
      ((rows'.filter (found search)).reverse.take limit).reverse ∧
    decide (limit < (rows.filter (found search)).length) =
      decide (limit < (rows'.filter (found search)).length) := by
  obtain ⟨hnew, hmore⟩ := hfull
  have hsplit : rows.rdropWhile (fun r => !r.recalled) ++ rows.rtakeWhile (fun r => !r.recalled) =
    rows := List.rdropWhile_append_rtakeWhile
  generalize hold : rows.rdropWhile (fun r => !r.recalled) = old at hsplit
  generalize hlast : rows.rtakeWhile (fun r => !r.recalled) = new at hsplit hnew
  have hnewrec : ∀ r ∈ new, r.recalled = false := fun r hr =>
    not_recalled_of_mem_rtakeWhile (hlast ▸ hr)
  -- the twin ends in the very same unrecalled rows
  obtain ⟨old', new', rfl, -, hnew'⟩ : ∃ old' new', rows' = old' ++ new' ∧
      old'.map ChatRow.redact = old.map ChatRow.redact ∧
      new'.map ChatRow.redact = new.map ChatRow.redact := by
    rw [← hsplit, List.map_append] at h
    exact List.map_eq_append_iff.1 h.symm
  obtain rfl : new = new' := eq_of_map_redact hnew'.symm hnewrec
  constructor
  · rw [← hsplit, List.filter_append, List.filter_append, newest_append _ _ hnew,
      newest_append _ _ hnew]
  · by_cases hsearch : search = ""
    · have hall : found search = fun _ => true := by
        funext r
        simp [found, hsearch]
      have hlen := congrArg List.length h
      simp only [List.length_map] at hlen
      rw [hall, List.filter_true, List.filter_true, hlen]
    · -- the unrecalled rows that match already exceed the page in both stores
      have hle (l : List ChatRow) : ((l.filter fun r => !r.recalled).filter (found search)).length ≤
          (l.filter (found search)).length :=
        ((List.filter_sublist).filter _).length_le
      have hrows := hle rows
      have hrows' := hle (old' ++ new)
      rw [← filter_not_recalled_eq h] at hrows'
      have := hmore hsearch
      rw [decide_eq_true (by omega), decide_eq_true (by omega)]

/-- Nothing but a recalled row is masked. -/
theorem map_mask_of_not_recalled {rows : List ChatRow} (content : ChatRow → String)
    (crypto : String → String) (h : ∀ r ∈ rows, r.recalled = false) :
    rows.map (ChatRow.mask content crypto) = rows := by
  refine (List.map_congr_left fun r hr => ?_).trans (List.map_id _)
  simp [ChatRow.mask, h r hr]

/-- A search finds no recalled row whose content is blank. -/
theorem filter_found_mask_blank {search : String} (hsearch : search ≠ "")
    (crypto : String → String) (rows : List ChatRow) :
    (rows.map (ChatRow.mask (fun _ => "") crypto)).filter (found search) =
      (rows.filter fun r => !r.recalled).filter (found search) := by
  induction rows with
  | nil => rfl
  | cons a rows ih =>
    cases ha : a.recalled with
    | true =>
      have hmiss : found search (a.mask (fun _ => "") crypto) = false := by
        simp [found, ChatRow.mask, ha, hsearch]
      simp [hmiss, ha, ih]
    | false =>
      have hmask : a.mask (fun _ => "") crypto = a := by simp [ChatRow.mask, ha]
      simp only [List.map_cons, hmask, List.filter_cons, ih, ha, Bool.not_false, if_true]

/-- The last page of the rows, as `LoadHistory` returns it. -/
def lastPage (q : HistoryQuery) (rows : List ChatRow) : List HistoryMessage × Bool :=
  let shown := rows.filter (found (trimSpace q.searchQuery))
  (((shown.reverse.take (pageLimit q.limit)).reverse).map ChatRow.toMessage,
    decide (pageLimit q.limit < shown.length))

theorem historyView_eq {q : HistoryQuery} {kind : ChatKind} {conversationKey : String}
    (hq : queryConversation q = .ok (kind, conversationKey)) {rows : List ChatRow}
    (hrows : s.rowsBefore kind conversationKey q.beforeMessageID = rows) :
    s.historyView q = .ok (lastPage q rows) := by
  unfold historyView
  rw [loadHistory_eq hq, hrows]
  rfl

/-- Rows that need no recalled one for their last page have the same one on twins. -/
theorem lastPage_eq_of_hides {rows rows' : List ChatRow} {q : HistoryQuery}
    (h : rows.map ChatRow.redact = rows'.map ChatRow.redact) (hhides : Hides rows q) :
    lastPage q rows = lastPage q rows' := by
  rcases hhides with hnone | hfull
  · rw [eq_of_map_redact h hnone]
  · obtain ⟨hpage, hmore⟩ := page_eq_of_full h hfull
    unfold lastPage
    dsimp only
    rw [hpage, hmore]

/-- Another envelope than the given one. -/
def otherCrypto (crypto : String) : String := if crypto = "" then "\x7b\"v\":1\x7d" else ""

theorem otherCrypto_ne (crypto : String) : otherCrypto crypto ≠ crypto := by
  unfold otherCrypto
  split
  · rename_i h
    simp [h]
  · exact Ne.symm ‹_›

section necessity

variable {rows : List ChatRow} {search : String} {limit : ℕ}

/-- Without a search text, a recalled row on the page shows its envelope. -/
theorem envelope_shows (hsearch : search = "") {old new : List ChatRow} {r : ChatRow}
    (hrows : rows = old ++ r :: new) (hr : r.recalled = true)
    (hlen : (new.filter (found search)).length < limit)
    (heq : ((((rows.map (ChatRow.mask (fun _ => "") id)).filter (found search)).reverse.take
        limit).reverse).map ChatRow.toMessage =
      ((((rows.map (ChatRow.mask (fun _ => "") otherCrypto)).filter (found search)).reverse.take
        limit).reverse).map ChatRow.toMessage) : False := by
  have hall : found search = fun _ => true := by
    funext r
    simp [found, hsearch]
  simp only [hall, List.filter_true] at heq hlen
  rw [← List.map_reverse, ← List.map_take, ← List.map_reverse, List.map_map,
    ← List.map_reverse, ← List.map_take, ← List.map_reverse, List.map_map,
    List.map_inj_left] at heq
  have hmem : r ∈ (rows.reverse.take limit).reverse := by
    rw [hrows]
    exact mem_newest old new r hlen
  have hcrypto := congrArg HistoryMessage.crypto (heq r hmem)
  simp only [ChatRow.toMessage, Function.comp_apply, ChatRow.mask, hr, if_true, id_eq] at hcrypto
  exact otherCrypto_ne r.crypto hcrypto.symm

/-- With a search text, the page on rows whose recalled contents are blank or match differs. -/
theorem search_shows (hsearch : search ≠ "") {old new : List ChatRow} {r : ChatRow}
    (hrows : rows = old ++ r :: new) (hr : r.recalled = true)
    (hnew : ∀ x ∈ new, x.recalled = false)
    (hpage : (((((rows.map (ChatRow.mask (fun _ => "") id)).filter (found search)).reverse.take
        limit).reverse).map ChatRow.toMessage) =
      (((((rows.map (ChatRow.mask (fun _ => search) id)).filter (found search)).reverse.take
        limit).reverse).map ChatRow.toMessage))
    (hmore : decide (limit < ((rows.map (ChatRow.mask (fun _ => "") id)).filter (found search)).length) =
      decide (limit < ((rows.map (ChatRow.mask (fun _ => search) id)).filter (found search)).length)) :
    limit ≤ (new.filter (found search)).length ∧
      limit < ((rows.filter fun r => !r.recalled).filter (found search)).length := by
  have hhit : found search (r.mask (fun _ => search) id) = true := by
    simp [found, ChatRow.mask, hr]
  have hfound : (rows.map (ChatRow.mask (fun _ => search) id)).filter (found search) =
      (old.map (ChatRow.mask (fun _ => search) id)).filter (found search) ++
        r.mask (fun _ => search) id :: new.filter (found search) := by
    rw [hrows, List.map_append, List.map_cons, map_mask_of_not_recalled (fun _ => search) id hnew,
      List.filter_append, List.filter_cons, if_pos hhit]
  rw [filter_found_mask_blank hsearch id] at hpage hmore
  rw [hfound] at hpage hmore
  have hle : limit ≤ (new.filter (found search)).length := by
    by_contra hlt
    -- the recalled row is on the second page, and the first has no recalled one
    have hnewest := mem_newest ((old.map (ChatRow.mask (fun _ => search) id)).filter (found search)) _
      (r.mask (fun _ => search) id) (Nat.lt_of_not_le hlt)
    have hmem := List.mem_map_of_mem (f := ChatRow.toMessage) hnewest
    rw [← hpage] at hmem
    obtain ⟨x, hx, hxr⟩ := List.mem_map.1 hmem
    have hxmem := List.mem_of_mem_take (List.mem_reverse.1 hx)
    have hxrec := (List.mem_filter.1 (List.mem_filter.1 (List.mem_reverse.1 hxmem)).1).2
    have := congrArg HistoryMessage.recalled hxr
    simp only [ChatRow.toMessage, ChatRow.recalled_mask, hr] at this
    simp [this] at hxrec
  refine ⟨hle, ?_⟩
  refine of_decide_eq_true (hmore.trans (decide_eq_true ?_))
  simp only [List.length_append, List.length_cons]
  omega

/-- If the last page does not depend on what recalled rows contain, it needs none of them. -/
theorem hides_of_lastPage {q : HistoryQuery}
    (hview : ∀ text text' crypto crypto', lastPage q (rows.map (ChatRow.mask (fun _ => text) crypto)) =
      lastPage q (rows.map (ChatRow.mask (fun _ => text') crypto'))) : Hides rows q := by
  by_cases hrec : ∃ r ∈ rows, r.recalled = true
  · right
    obtain ⟨old, r, hsplit, hr⟩ := exists_newest_recalled hrec
    by_cases hsearch : trimSpace q.searchQuery = ""
    · refine ⟨?_, fun hne => absurd hsearch hne⟩
      by_contra hlt
      exact envelope_shows hsearch hsplit hr (Nat.lt_of_not_le hlt)
        (Prod.mk.inj (hview "" "" id otherCrypto)).1
    · obtain ⟨hpage, hmore⟩ := Prod.mk.inj (hview "" (trimSpace q.searchQuery) id id)
      obtain ⟨hle, hlt⟩ := search_shows hsearch hsplit hr
        (fun x hx => not_recalled_of_mem_rtakeWhile hx) hpage hmore
      exact ⟨hle, fun _ => hlt⟩
  · left
    intro r hr
    by_contra hne
    exact hrec ⟨r, hr, by simpa using hne⟩

end necessity

/-! ### The place of the cursor -/

section cursor

variable {q : HistoryQuery} {kind : ChatKind} {key : String}

/-- Between two ids without a recalled or found row the last page stays the same, on every twin. -/
theorem Twin.lastPage_eq (h : Twin s s') {i j : ℕ} (hij : i ≤ j)
    (hgap : ∀ x ∈ s.scope kind key, i ≤ x.id → x.id < j →
      x.recalled = false ∧ found (trimSpace q.searchQuery) x = false) :
    lastPage q (s'.olderThan kind key j) = lastPage q (s'.olderThan kind key i) := by
  have hshown : (s'.olderThan kind key j).filter (found (trimSpace q.searchQuery)) =
      (s'.olderThan kind key i).filter (found (trimSpace q.searchQuery)) := by
    unfold ChatStore.olderThan
    rw [List.filter_filter, List.filter_filter]
    refine List.filter_congr fun y hy => ?_
    by_cases hbetween : i ≤ y.id ∧ y.id < j
    · -- the row is not recalled, so it is the same in both stores
      have hredact : y.redact ∈ (s.scope kind key).map ChatRow.redact := by
        rw [h.scope kind key]
        exact List.mem_map_of_mem hy
      obtain ⟨x, hx, heq⟩ := List.mem_map.1 hredact
      have hid := congrArg ChatRow.id heq
      unfold ChatRow.redact at hid
      rw [ChatRow.id_mask, ChatRow.id_mask] at hid
      obtain ⟨hrec, hmiss⟩ := hgap x hx (by omega) (by omega)
      rw [← ChatRow.eq_of_redact heq hrec, hmiss, Bool.false_and, Bool.false_and]
    · congr 1
      rw [decide_eq_decide]
      omega
  unfold lastPage
  dsimp only
  rw [hshown]

/-- The newest of some rows is on their last page. -/
theorem exists_newest {rows : List ChatRow} (hrows : rows.Pairwise fun a b => a.id < b.id)
    {x : ChatRow} (hx : x ∈ rows) {n : ℕ} (hn : 0 < n) :
    ∃ y ∈ (rows.reverse.take n).reverse, x.id ≤ y.id := by
  obtain rfl | ⟨front, last, rfl⟩ := List.eq_nil_or_concat' rows
  · cases hx
  · refine ⟨last, mem_newest front [] last hn, ?_⟩
    rcases List.mem_append.1 hx with hfront | hlast
    · exact Nat.le_of_lt ((List.pairwise_append.1 hrows).2.2 x hfront last (List.mem_singleton_self _))
    · rw [List.mem_singleton.1 hlast]

/-- A text that the search finds. -/
def findable (q : HistoryQuery) : String :=
  if trimSpace q.searchQuery = "" then "a" else trimSpace q.searchQuery

theorem findable_ne_empty (q : HistoryQuery) : findable q ≠ "" := by
  unfold findable
  split_ifs with h
  · decide
  · exact h

theorem found_of_findable {r : ChatRow} (h : (findable q).toList <:+: r.content.toList) :
    found (trimSpace q.searchQuery) r = true := by
  unfold findable at h
  unfold found
  split_ifs at h with hsearch
  · rw [hsearch]
    rfl
  · rw [Bool.or_eq_true]
    exact .inr (decide_eq_true h)

/-- Rendered rows of a conversation tell which rows they are. -/
theorem eq_of_toMessage {a b : ChatRow} (ha : a ∈ s.scope kind key) (hb : b ∈ s.scope kind key)
    {content content' : ChatRow → String} {crypto crypto' : String → String}
    (h : (a.mask content crypto).toMessage = (b.mask content' crypto').toMessage) : a = b := by
  obtain ⟨harow, hain⟩ := mem_scope.1 ha
  obtain ⟨hbrow, hbin⟩ := mem_scope.1 hb
  refine s.messages.eq_of_clash harow hbrow (Table.keyClash_of_eq ChatRow.key ?_)
  have hkeys : (a.mask content crypto).key = (b.mask content' crypto').key := by
    unfold ChatRow.inConversation at hain hbin
    rw [Bool.and_eq_true, beq_iff_eq, beq_iff_eq] at hain hbin
    have ha' := congrArg (fun k => k.2.1) (a.key_mask content crypto)
    have hb' := congrArg (fun k => k.2.1) (b.key_mask content' crypto')
    have hcode := congrArg HistoryMessage.userCode h
    have hid := congrArg HistoryMessage.messageID h
    exact Prod.ext hcode (Prod.ext (ha'.trans (hain.2.trans (hbin.2.symm.trans hb'.symm))) hid)
  rwa [ChatRow.key_mask, ChatRow.key_mask] at hkeys

/-- The rows before the cursor on a twin that the query steers to a row. -/
theorem historyView_steer (hs : Ordered s) (hq : queryConversation q = .ok (kind, key))
    (hbefore : q.beforeMessageID ≠ "") {r : ChatRow}
    (hr : s.MayBeCursor kind key q.beforeMessageID r) (others : String)
    (crypto : String → String) :
    (s.mask (steer kind key r (findable q) others) crypto).historyView q =
      .ok (lastPage q ((s.olderThan kind key r.id).map
        (ChatRow.mask (steer kind key r (findable q) others) crypto))) := by
  obtain ⟨c, hc, hid⟩ := cursorRow_steer hs hr (findable_ne_empty q) others crypto
  refine historyView_eq hq ?_
  rw [rowsBefore_of_cursor hbefore hc, hid, olderThan_of_mask (rows_mask s _ _)]

/-- When twins agree, so do the pages before the rows to which the query can be steered. -/
theorem lastPage_steer (hs : Ordered s) (hq : queryConversation q = .ok (kind, key))
    (hbefore : q.beforeMessageID ≠ "")
    (hagree : ∀ s', Twin s s' → s.historyView q = s'.historyView q) {a b : ChatRow}
    (ha : s.MayBeCursor kind key q.beforeMessageID a)
    (hb : s.MayBeCursor kind key q.beforeMessageID b) (text text' : String)
    (crypto crypto' : String → String) :
    lastPage q ((s.olderThan kind key a.id).map
        (ChatRow.mask (steer kind key a (findable q) text) crypto)) =
      lastPage q ((s.olderThan kind key b.id).map
        (ChatRow.mask (steer kind key b (findable q) text') crypto')) := by
  have hview := (hagree _ (twin_mask s (steer kind key a (findable q) text) crypto)).symm.trans
    (hagree _ (twin_mask s (steer kind key b (findable q) text') crypto'))
  rw [historyView_steer hs hq hbefore ha, historyView_steer hs hq hbefore hb] at hview
  exact Except.ok.inj hview

/-- When twins agree, no row between two possible cursors is recalled or found: it would be on the
page before the later one, or an even newer row. -/
theorem gap_of_agree (hs : Ordered s) (hq : queryConversation q = .ok (kind, key))
    (hbefore : q.beforeMessageID ≠ "")
    (hagree : ∀ s', Twin s s' → s.historyView q = s'.historyView q) {a b : ChatRow}
    (ha : s.MayBeCursor kind key q.beforeMessageID a)
    (hb : s.MayBeCursor kind key q.beforeMessageID b) :
    ∀ x ∈ s.scope kind key, a.id ≤ x.id → x.id < b.id →
      x.recalled = false ∧ found (trimSpace q.searchQuery) x = false := by
  intro x hx hax hxb
  by_contra hbad
  have hpages := lastPage_steer hs hq hbefore hagree ha hb (findable q) (findable q) id id
  have hfound : found (trimSpace q.searchQuery)
      (x.mask (steer kind key b (findable q) (findable q)) id) = true := by
    cases hrec : x.recalled with
    | true =>
      refine found_of_findable ?_
      unfold ChatRow.mask steer
      rw [if_pos hrec, if_neg (Nat.ne_of_lt hxb)]
      split_ifs
      · rw [String.toList_append]
        exact (List.suffix_append _ _).isInfix
      · exact List.infix_rfl
    | false =>
      have hkeep : x.mask (steer kind key b (findable q) (findable q)) id = x := by
        unfold ChatRow.mask
        rw [hrec, if_neg Bool.false_ne_true]
      rw [hkeep]
      simpa [hrec] using hbad
  have hshown : x.mask (steer kind key b (findable q) (findable q)) id ∈
      ((s.olderThan kind key b.id).map
        (ChatRow.mask (steer kind key b (findable q) (findable q)) id)).filter
          (found (trimSpace q.searchQuery)) :=
    List.mem_filter.2 ⟨List.mem_map_of_mem (List.mem_filter.2 ⟨hx, by simpa using hxb⟩), hfound⟩
  have hsorted : ((s.olderThan kind key b.id).map
      (ChatRow.mask (steer kind key b (findable q) (findable q)) id)).Pairwise
        fun y z => y.id < z.id := by
    rw [List.pairwise_map]
    simp only [ChatRow.id_mask]
    exact (hs.pairwise.filter _).filter _
  obtain ⟨newest, hnewest, hle⟩ :=
    exists_newest (hsorted.filter _) hshown (pageLimit_pos q.limit)
  -- its message is on the other page too, where all rows are older
  have hmessage : newest.toMessage ∈ (lastPage q ((s.olderThan kind key a.id).map
      (ChatRow.mask (steer kind key a (findable q) (findable q)) id))).1 := by
    rw [hpages]
    exact List.mem_map_of_mem hnewest
  obtain ⟨y', hy', hsame⟩ := List.mem_map.1 hmessage
  have hold := List.mem_filter.1 (List.mem_reverse.1 (List.mem_of_mem_take (List.mem_reverse.1 hy')))
  have hnew :=
    List.mem_filter.1 (List.mem_reverse.1 (List.mem_of_mem_take (List.mem_reverse.1 hnewest)))
  obtain ⟨y, hy, rfl⟩ := List.mem_map.1 hold.1
  obtain ⟨z, hz, rfl⟩ := List.mem_map.1 hnew.1
  obtain ⟨hyscope, hyold⟩ := List.mem_filter.1 hy
  rw [eq_of_toMessage hyscope (List.mem_of_mem_filter hz) hsame, decide_eq_true_eq] at hyold
  rw [ChatRow.id_mask, ChatRow.id_mask] at hle
  omega

/-- When twins agree, the page before a possible cursor needs no recalled row. -/
theorem page_of_agree (hs : Ordered s) (hq : queryConversation q = .ok (kind, key))
    (hbefore : q.beforeMessageID ≠ "")
    (hagree : ∀ s', Twin s s' → s.historyView q = s'.historyView q) {r : ChatRow}
    (hr : s.MayBeCursor kind key q.beforeMessageID r) : Hides (s.olderThan kind key r.id) q := by
  -- no recalled row before it has its message id, so their contents do not move the cursor
  have hother : ∀ x ∈ s.olderThan kind key r.id, x.recalled = true →
      x.messageID ≠ r.messageID := by
    intro x hx hrec hid
    obtain ⟨hscope, hlt⟩ := List.mem_filter.1 hx
    have hlt := of_decide_eq_true hlt
    have hmay := hr.of_recalled hscope (hid.trans hr.2.1) hrec hlt
    have hgap := gap_of_agree hs hq hbefore hagree hmay hr x hscope (Nat.le_refl _) hlt
    rw [hrec] at hgap
    cases hgap.1
  have hmask : ∀ text crypto, (s.olderThan kind key r.id).map
        (ChatRow.mask (steer kind key r (findable q) text) crypto) =
      (s.olderThan kind key r.id).map (ChatRow.mask (fun _ => text) crypto) := by
    refine fun text crypto => List.map_congr_left fun x hx => ?_
    unfold ChatRow.mask
    split_ifs with hrec
    · unfold steer
      rw [if_neg fun h => hother x hx hrec h.2]
    · rfl
  refine hides_of_lastPage fun text text' crypto crypto' => ?_
  rw [← hmask, ← hmask]
  exact lastPage_steer hs hq hbefore hagree hr hr text text' crypto crypto'

/-- Under the condition the row of the cursor does not matter. -/
theorem lastPage_eq_of_cursors (htwin : Twin s s') (hhides : s.HidesCursor q kind key)
    {r r' : ChatRow} (hr : s.MayBeCursor kind key q.beforeMessageID r)
    (hr' : s.MayBeCursor kind key q.beforeMessageID r') :
    lastPage q (s.olderThan kind key r.id) = lastPage q (s'.olderThan kind key r'.id) := by
  have hself : Twin s s := ⟨rfl, rfl, rfl, rfl⟩
  rcases Nat.le_total r.id r'.id with hle | hle
  · rw [htwin.lastPage_eq hle (hhides.gap r r' hr hr')]
    exact lastPage_eq_of_hides (htwin.olderThan kind key r.id) (hhides.page r hr)
  · rw [hself.lastPage_eq hle (hhides.gap r' r hr' hr)]
    exact lastPage_eq_of_hides (htwin.olderThan kind key r'.id) (hhides.page r' hr')

end cursor

/-- A cursor that finds a row finds one on every twin. -/
theorem Twin.exists_cursorRow (h : Twin s s') {kind : ChatKind} {key messageID : String}
    {c : ChatRow} (hc : s.cursorRow kind key messageID = some c) :
    ∃ d, s'.cursorRow kind key messageID = some d := by
  obtain ⟨hmem, hcid, -⟩ := cursorRow_spec hc
  have hredact : c.redact ∈ (s'.scope kind key).map ChatRow.redact := by
    rw [← h.scope kind key]
    exact List.mem_map_of_mem hmem
  obtain ⟨x, hx, heq⟩ := List.mem_map.1 hredact
  have hsame := congrArg ChatRow.messageID heq
  unfold ChatRow.redact at hsame
  rw [ChatRow.messageID_mask, ChatRow.messageID_mask] at hsame
  exact ChatStore.exists_cursorRow hx (hsame.trans hcid)

/-- History pages are the same on all twins exactly when they need no recalled row. -/
theorem historyView_twins_iff (hs : Ordered s) (q : HistoryQuery) :
    (∀ s', Twin s s' → s.historyView q = s'.historyView q) ↔ HidesHistory s q := by
  constructor
  · intro hagree kind key hq
    split_ifs with hbefore
    -- without a cursor the page reads the whole conversation
    · have hrows : ∀ t : ChatStore, t.rowsBefore kind key q.beforeMessageID = t.scope kind key := by
        intro t
        rw [hbefore, rowsBefore_start]
      refine hides_of_lastPage fun text text' crypto crypto' => ?_
      have hview := (hagree _ (twin_mask s (fun _ => text) crypto)).symm.trans
        (hagree _ (twin_mask s (fun _ => text') crypto'))
      rw [historyView_eq hq (hrows _), historyView_eq hq (hrows _),
        scope_of_mask (rows_mask s _ _), scope_of_mask (rows_mask s _ _)] at hview
      exact Except.ok.inj hview
    · exact ⟨fun r hr => page_of_agree hs hq hbefore hagree hr,
        fun a b ha hb => gap_of_agree hs hq hbefore hagree ha hb⟩
  · intro hhides s' htwin
    cases hq : queryConversation q with
    | error e => simp [historyView, loadHistory, hq, bind, Except.bind, Except.map]
    | ok conversation =>
      obtain ⟨kind, key⟩ := conversation
      have hcond := hhides kind key hq
      rw [historyView_eq hq rfl, historyView_eq hq rfl]
      congr 1
      by_cases hbefore : q.beforeMessageID = ""
      · rw [if_pos hbefore] at hcond
        rw [hbefore, rowsBefore_start, rowsBefore_start]
        exact lastPage_eq_of_hides (htwin.scope kind key) hcond
      · rw [if_neg hbefore] at hcond
        have hself : Twin s s := ⟨rfl, rfl, rfl, rfl⟩
        cases hc : s.cursorRow kind key q.beforeMessageID with
        | none =>
          have hc' : s'.cursorRow kind key q.beforeMessageID = none := by
            by_contra hsome
            obtain ⟨c, hc'⟩ := Option.ne_none_iff_exists'.1 hsome
            obtain ⟨d, hd⟩ := htwin.symm.exists_cursorRow hc'
            rw [hc] at hd
            cases hd
          rw [rowsBefore_of_none hbefore hc, rowsBefore_of_none hbefore hc']
        | some c =>
          obtain ⟨r, hr, hid⟩ := hself.mayBeCursor hc
          obtain ⟨d, hd⟩ := htwin.exists_cursorRow hc
          -- both rows are ones that the condition is about, and it makes their pages agree
          obtain ⟨r', hr', hid'⟩ := htwin.mayBeCursor hd
          rw [rowsBefore_of_cursor hbefore hc, rowsBefore_of_cursor hbefore hd, ← hid, ← hid']
          exact lastPage_eq_of_cursors htwin hcond hr hr'

/-! ### Stored messages -/

/-- `GetStoredMessage` takes the last of the rows under the id. -/
theorem getStoredMessage_eq (s : ChatStore) (messageID : String) :
    s.getStoredMessage messageID =
      ((s.messages.rows.filter fun r => r.messageID == messageID).getLast?).elim
        (.error .errNoRows) .ok := by
  unfold getStoredMessage
  rw [List.getLast?_filter]
  cases s.messages.rows.reverse.find? fun r => r.messageID == messageID <;> rfl

/-- Masking rows keeps the place of the last one under an id. -/
theorem getLast?_filter_mask (content : ChatRow → String) (crypto : String → String) (rows : List ChatRow)
    (messageID : String) :
    ((rows.map (ChatRow.mask content crypto)).filter fun r => r.messageID == messageID).getLast? =
      ((rows.filter fun r => r.messageID == messageID).getLast?).map
        (ChatRow.mask content crypto) := by
  rw [List.filter_map, List.getLast?_map]
  simp only [Function.comp_def, ChatRow.messageID_mask]

/-- A stored message is the same on all twins exactly when it is not recalled. -/
theorem storedView_twins_iff (s : ChatStore) (messageID : String) :
    (∀ s', Twin s s' → s.storedView messageID = s'.storedView messageID) ↔
      HidesStored s messageID := by
  constructor
  · intro h r hlast
    by_contra hne
    have hrec : r.recalled = true := by simpa using hne
    have hview := h _ (twin_mask s (fun _ => "") otherCrypto)
    unfold storedView at hview
    rw [getStoredMessage_eq, getStoredMessage_eq, rows_mask, getLast?_filter_mask,
      Option.mem_def.1 hlast] at hview
    have hcrypto := congrArg (fun m => m.message.crypto) (Except.ok.inj hview)
    simp only [ChatRow.toStored, ChatRow.toMessage, ChatRow.mask, hrec, if_true] at hcrypto
    exact otherCrypto_ne r.crypto hcrypto.symm
  · intro hhides s' htwin
    have hlast : ((s.messages.rows.filter fun r => r.messageID == messageID).getLast?).map
          ChatRow.redact =
        ((s'.messages.rows.filter fun r => r.messageID == messageID).getLast?).map
          ChatRow.redact := by
      refine (getLast?_filter_mask _ _ _ messageID).symm.trans
        (Eq.trans ?_ (getLast?_filter_mask _ _ _ messageID))
      exact congrArg (fun rows => (rows.filter fun r => r.messageID == messageID).getLast?)
        htwin.messages
    unfold storedView
    rw [getStoredMessage_eq, getStoredMessage_eq]
    unfold HidesStored at hhides
    generalize (s.messages.rows.filter fun r => r.messageID == messageID).getLast? = a at *
    generalize (s'.messages.rows.filter fun r => r.messageID == messageID).getLast? = b at *
    suffices hab : a = b by rw [hab]
    cases a with
    | none => exact (Option.map_eq_none_iff.1 hlast.symm).symm
    | some r =>
      cases b with
      | none => cases hlast
      | some r' => rw [ChatRow.eq_of_redact (Option.some.inj hlast) (hhides r rfl)]

/-- What a recall should hide shows in no result exactly when no result needs a recalled row. -/
theorem twins_agree_iff (s : ChatStore) (hs : Ordered s) (q : HistoryQuery) (messageID : String) :
    ((∀ s', Twin s s' → s.historyView q = s'.historyView q) ↔ HidesHistory s q) ∧
      ((∀ s', Twin s s' → s.storedView messageID = s'.storedView messageID) ↔
        HidesStored s messageID) :=
  ⟨historyView_twins_iff hs q, storedView_twins_iff s messageID⟩

/-- A chat in the lobby is saved. -/
def posted (s : ChatStore) (userCode messageID content crypto : String) : ChatStore :=
  (s.saveChatMessageIfNew false
    { type := .chat, messageID, username := userCode, userCode, room := "lobby", content, crypto }).2

/-- Alice's message is recalled. -/
def recalledChat (content crypto : String) : ChatStore :=
  let s := posted empty "alice" "m1" content crypto
  (s.markMessageRecalled "m1").toOption.getD s

/-- Later Bob writes, and Carol, whose message has the id of Alice's. -/
def reusedAfterRecall (content : String) : ChatStore :=
  posted (posted (recalledChat content "") "bob22" "m2" "x" "") "carol" "m1" "m" ""

/-- With as many newer messages as a page holds, Alice's content shows nowhere. -/
theorem twins_agree_iff_newest :
    (∀ s', Twin (reusedAfterRecall "secret") s' →
      (reusedAfterRecall "secret").historyView { userCode := "bob22", room := "lobby", limit := 2 } =
        s'.historyView { userCode := "bob22", room := "lobby", limit := 2 }) ∧
    ∀ s', Twin (reusedAfterRecall "secret") s' →
      (reusedAfterRecall "secret").storedView "m1" = s'.storedView "m1" := by
  have hagree := twins_agree_iff (reusedAfterRecall "secret") ⟨by decide +kernel, by decide +kernel⟩
    { userCode := "bob22", room := "lobby", limit := 2 } "m1"
  refine ⟨hagree.1.2 fun kind key hq => ?_, hagree.2.2 (by unfold HidesStored; decide +kernel)⟩
  cases hq
  rw [if_pos rfl]
  exact .inr ⟨by decide +kernel, fun hsearch => absurd rfl hsearch⟩

/-- A search for the original text finds the recalled row, the envelope comes with it, and before the
id that Carol reused the page depends on what Alice wrote. -/
theorem recalled_content_shows :
    (∃ s s', Twin s s' ∧ s.historyView { userCode := "bob", room := "lobby", searchQuery := "secret" } ≠
      s'.historyView { userCode := "bob", room := "lobby", searchQuery := "secret" }) ∧
    (∃ s s', Twin s s' ∧ s.storedView "m1" ≠ s'.storedView "m1") ∧
    ∃ s s', Twin s s' ∧
      s.historyView { userCode := "bob", room := "lobby", beforeMessageID := "m1" } ≠
        s'.historyView { userCode := "bob", room := "lobby", beforeMessageID := "m1" } := by
  refine ⟨⟨recalledChat "secret" "", recalledChat "public" "", ?_, by decide +kernel⟩,
    ⟨recalledChat "" "\x7b\"v\":1\x7d", recalledChat "" "\x7b\"v\":2\x7d", ?_, by decide +kernel⟩,
    reusedAfterRecall "a", reusedAfterRecall "z", ?_, by decide +kernel⟩
  · exact ⟨by decide +kernel, rfl, rfl, rfl⟩
  · exact ⟨by decide +kernel, rfl, rfl, rfl⟩
  · exact ⟨by decide +kernel, rfl, rfl, rfl⟩

end ChatStore

end LanChat
