import LanChat.Lib.Paging
import LanChat.Store.Conversations
import LanChat.Store.RecalledContent

/-!
# Reading a conversation back in pages

A client reads a history from its end: it passes the first message id of a page to get the one
before.  A message id is known to one sender only, so it may be carried by several rows of a
conversation, and the query then goes on from the one with the least content, which may be older or
newer than the row the page begins with.

* `matching`: the rows of a conversation that a search finds;
* `loadPages`: the pages, until there are no older ones;
* `First`: the row of the conversation that comes first under a message id;
* `Resumable`: where a page begins, the first row with its id is between the row and the one before;
* `history_complete_iff`: the pages end and are the matching rows exactly when the store is resumable.
-/

namespace LanChat

open GoStrings EventMachine Paging

namespace ChatStore

/-- The rows of the conversation that match the search, oldest first. -/
def matching (s : ChatStore) (kind : ChatKind) (key search : String) : List ChatRow :=
  (s.scope kind key).filter (found (trimSpace search))

/-- The first message id of every page is passed on, until there are no more rows. -/
def loadPages (s : ChatStore) (q : HistoryQuery) : ℕ → String → Option (List ChatRow)
  | 0, _ => none
  | fuel + 1, before =>
    match s.loadHistory { q with beforeMessageID := before } with
    | .error _ => none
    | .ok page =>
      if page.hasMore then
        match page.rows with
        | [] => none
        | first :: _ =>
          (loadPages s q fuel first.messageID).map fun older => older ++ page.rows
      else some page.rows

/-- Of the rows of the conversation with its message id the row has the least content, and of those
with this content it is the oldest. -/
structure First (s : ChatStore) (kind : ChatKind) (key messageID : String) (r : ChatRow) : Prop where
  row : r ∈ s.scope kind key
  named : r.messageID = messageID
  least : ∀ twin ∈ s.scope kind key, twin.messageID = messageID →
    r.content < twin.content ∨ r.content = twin.content ∧ r.id ≤ twin.id

/-- Where a page begins, the first row with its id is after the matching row before, and not after the
row itself. -/
def Resumable (s : ChatStore) (kind : ChatKind) (key search : String) (limit : ℕ) : Prop :=
  ∀ i previous r, (s.matching kind key search)[i]? = some previous →
    (s.matching kind key search)[i + 1]? = some r →
    limit ∣ (s.matching kind key search).length - (i + 1) →
    ∃ first, s.First kind key r.messageID first ∧ previous.id < first.id ∧ first.id ≤ r.id

variable {s : ChatStore} {q : HistoryQuery} {kind : ChatKind} {key : String}

/-- The matching rows before the cursor. -/
def older (s : ChatStore) (kind : ChatKind) (key search before : String) : List ChatRow :=
  (s.rowsBefore kind key before).filter (found (trimSpace search))

theorem older_start (search : String) : s.older kind key search "" = s.matching kind key search := by
  unfold older
  rw [rowsBefore_start]
  rfl

/-- The rows before a row of the table. -/
theorem older_of_cursor {search before : String} {r : ChatRow} (hbefore : before ≠ "")
    (hcursor : s.cursorRow kind key before = some r) :
    s.older kind key search before = (s.matching kind key search).filter fun x => x.id < r.id := by
  unfold older matching
  rw [rowsBefore_of_cursor hbefore hcursor, ChatStore.olderThan, List.filter_comm]

theorem older_of_none {search before : String} (hbefore : before ≠ "")
    (hcursor : s.cursorRow kind key before = none) : s.older kind key search before = [] := by
  unfold older
  rw [rowsBefore_of_none hbefore hcursor, List.filter_nil]

theorem pairwise_matching (ho : Ordered s) (kind : ChatKind) (key search : String) :
    (s.matching kind key search).Pairwise fun a b => a.id < b.id :=
  (ho.pairwise.filter _).filter _

/-- Being before a row is passed back to older rows. -/
theorem pairwise_before (ho : Ordered s) (kind : ChatKind) (key search : String) (id : ℕ) :
    (s.matching kind key search).Pairwise fun a b =>
      (decide (b.id < id)) = true → (decide (a.id < id)) = true := by
  refine (pairwise_matching ho kind key search).imp fun {a b} hlt hb => ?_
  rw [decide_eq_true_eq] at hb ⊢
  exact Nat.lt_trans hlt hb

/-- The rows before the cursor are a front part of the matching rows. -/
theorem take_older (ho : Ordered s) (kind : ChatKind) (key search before : String) :
    (s.matching kind key search).take (s.older kind key search before).length =
      s.older kind key search before := by
  by_cases hbefore : before = ""
  · rw [hbefore, older_start, List.take_length]
  · cases hcursor : s.cursorRow kind key before with
    | none =>
      rw [older_of_none hbefore hcursor]
      rfl
    | some r =>
      rw [older_of_cursor hbefore hcursor]
      exact take_length_filter (pairwise_before ho kind key search r.id)

theorem length_older_le (ho : Ordered s) (kind : ChatKind) (key search before : String) :
    (s.older kind key search before).length ≤ (s.matching kind key search).length := by
  rw [← take_older ho kind key search before]
  exact List.length_take_le' _ _

/-- A page holds the last rows before the cursor. -/
theorem loadHistory_page (hquery : queryConversation q = .ok (kind, key)) (before : String) :
    s.loadHistory { q with beforeMessageID := before } =
      .ok ⟨(s.older kind key q.searchQuery before).drop
          ((s.older kind key q.searchQuery before).length - pageLimit q.limit),
        decide (pageLimit q.limit < (s.older kind key q.searchQuery before).length)⟩ := by
  have hquery' : queryConversation { q with beforeMessageID := before } = .ok (kind, key) := hquery
  rw [loadHistory, hquery']
  change Except.ok _ = Except.ok _
  congr 2
  rw [List.reverse_take, List.reverse_reverse, List.length_reverse]
  rfl

/-- The cursor that a row gives. -/
def cursor (s : ChatStore) (kind : ChatKind) (key search : String) (r : ChatRow) : ℕ :=
  (s.older kind key search r.messageID).length

/-- The client's loop reads the matching rows back. -/
theorem loadPages_eq (ho : Ordered s) (hquery : queryConversation q = .ok (kind, key)) (fuel : ℕ)
    (before : String) : s.loadPages q fuel before =
      readBack (s.matching kind key q.searchQuery) (s.cursor kind key q.searchQuery)
        (pageLimit q.limit) fuel (s.older kind key q.searchQuery before).length := by
  induction fuel generalizing before with
  | zero => rfl
  | succ fuel ih =>
    have htake := take_older ho kind key q.searchQuery before
    have hle := length_older_le ho kind key q.searchQuery before
    rw [loadPages, loadHistory_page hquery before]
    dsimp only
    by_cases hmore : pageLimit q.limit < (s.older kind key q.searchQuery before).length
    -- the next page goes back from the first row of this one
    · obtain ⟨first, hfirst⟩ := exists_first (pageLimit_pos q.limit) hmore hle
      rw [readBack_more hmore hfirst, htake, if_pos (by simpa using hmore)]
      have hget : (s.older kind key q.searchQuery before)[
          (s.older kind key q.searchQuery before).length - pageLimit q.limit]? = some first := by
        rw [← hfirst]
        conv_lhs => rw [← htake]
        rw [List.getElem?_take_of_lt]
        · rw [htake]
        · rw [htake]
          have := pageLimit_pos q.limit
          omega
      obtain ⟨hlt, hget⟩ := List.getElem?_eq_some_iff.1 hget
      rw [List.drop_eq_getElem_cons hlt, hget]
      dsimp only
      rw [ih]
      rfl
    · rw [readBack_last (Nat.not_lt.1 hmore), htake, if_neg (by simpa using hmore),
        Nat.sub_eq_zero_of_le (Nat.not_lt.1 hmore)]
      rfl

theorem mem_matching {search : String} {r : ChatRow} (hr : r ∈ s.matching kind key search) :
    r ∈ s.scope kind key := List.mem_of_mem_filter hr

/-- The query goes on from the first row with the id. -/
theorem first_iff_cursorRow (ho : Ordered s) {messageID : String} {r : ChatRow} :
    s.First kind key messageID r ↔ s.cursorRow kind key messageID = some r := by
  constructor
  · intro hr
    refine cursorRow_eq_some hr.row hr.named fun u hu huid => ?_
    rw [ChatRow.scopeKey_lt]
    rcases hr.least u hu huid with hless | ⟨hsame, hle⟩
    · exact .inr (.inl hless)
    · rcases hle.lt_or_eq with hlt | hid
      · exact .inr (.inr ⟨hsame, hlt⟩)
      · exact .inl (ho.eq_of_id (mem_scope.1 hu).1 (mem_scope.1 hr.row).1 hid.symm)
  · intro hr
    obtain ⟨hrow, hid, hle⟩ := cursorRow_spec hr
    exact ⟨hrow, hid, fun u hu huid => ChatRow.scopeKey_le.1 (hle u hu huid)⟩

/-- A row is its own cursor when the first row with its id is after the one before it and not after
itself. -/
theorem cursor_eq_iff (hs : Regular s) {search : String} {i : ℕ} {previous r : ChatRow}
    (hprevious : (s.matching kind key search)[i]? = some previous)
    (hget : (s.matching kind key search)[i + 1]? = some r) :
    s.cursor kind key search r = i + 1 ↔
      ∃ first, s.First kind key r.messageID first ∧ previous.id < first.id ∧ first.id ≤ r.id := by
  have hr := mem_matching (List.mem_of_getElem? hget)
  obtain ⟨c, hc⟩ := exists_cursorRow hr rfl
  have hcursor : s.cursor kind key search r =
      ((s.matching kind key search).filter fun x => x.id < c.id).length := by
    unfold cursor
    rw [older_of_cursor (hs.named r (mem_scope.1 hr).1) hc]
  have hbefore := lt_length_filter_iff (pairwise_before hs.ordered kind key search c.id) hprevious
  have hself := lt_length_filter_iff (pairwise_before hs.ordered kind key search c.id) hget
  rw [decide_eq_true_eq] at hbefore hself
  rw [hcursor]
  constructor
  · intro heq
    refine ⟨c, (first_iff_cursorRow hs.ordered).2 hc, hbefore.1 (by omega), ?_⟩
    by_contra hafter
    have := hself.2 (Nat.not_le.1 hafter)
    omega
  · rintro ⟨first, hfirst, hlt, hle⟩
    obtain rfl : first = c :=
      Option.some_injective _ (((first_iff_cursorRow hs.ordered).1 hfirst).symm.trans hc)
    have hin := hbefore.2 hlt
    have hout := mt hself.1 (Nat.not_lt.2 hle)
    omega

theorem nodup_matching (ho : Ordered s) (kind : ChatKind) (key search : String) :
    (s.matching kind key search).Nodup :=
  (pairwise_matching ho kind key search).imp fun {a b} hlt heq => by
    rw [heq] at hlt
    exact Nat.lt_irrefl _ hlt

/-- In a store with what every run keeps, the pages are complete exactly when it is resumable. -/
theorem Regular.loadPages_iff (hs : Regular s) (hquery : queryConversation q = .ok (kind, key)) :
    (∃ fuel, s.loadPages q fuel "" = some (s.matching kind key q.searchQuery)) ↔
      s.Resumable kind key q.searchQuery (pageLimit q.limit) := by
  have hpages : ∀ fuel, s.loadPages q fuel "" =
      readBack (s.matching kind key q.searchQuery) (s.cursor kind key q.searchQuery)
        (pageLimit q.limit) fuel (s.matching kind key q.searchQuery).length := by
    intro fuel
    rw [loadPages_eq hs.ordered hquery, older_start]
  simp only [hpages]
  have hcut : ∀ r ∈ s.matching kind key q.searchQuery, s.cursor kind key q.searchQuery r ≤
      (s.matching kind key q.searchQuery).length :=
    fun r _ => length_older_le hs.ordered kind key q.searchQuery r.messageID
  rw [readBack_eq_iff (pageLimit_pos q.limit) (nodup_matching hs.ordered kind key q.searchQuery)
    hcut]
  constructor
  · intro hall i previous r hprevious hget hdvd
    exact (cursor_eq_iff hs hprevious hget).1 (hall (i + 1) r hget (Nat.succ_pos i) hdvd)
  · intro hall i r hget hpos hdvd
    obtain ⟨j, rfl⟩ := Nat.exists_eq_succ_of_ne_zero (Nat.pos_iff_ne_zero.1 hpos)
    have hj : j < (s.matching kind key q.searchQuery).length :=
      Nat.lt_of_succ_lt (List.getElem?_eq_some_iff.1 hget).1
    have hprevious := List.getElem?_eq_getElem hj
    exact (cursor_eq_iff hs hprevious hget).2 (hall j _ r hprevious hget hdvd)

/-- Paging through a conversation ends and gives every matching row once and in order exactly when,
where a page begins, the first row with its id is between the row and the matching one before. -/
theorem history_complete_iff (ops : List ChatOp) (q : HistoryQuery) (kind : ChatKind) (key : String)
    (hquery : queryConversation q = .ok (kind, key)) :
    let s := run apply empty ops
    (s.matching kind key q.searchQuery).Pairwise (fun a b => a.id < b.id) ∧
    ((∃ fuel, s.loadPages q fuel "" = some (s.matching kind key q.searchQuery)) ↔
      s.Resumable kind key q.searchQuery (pageLimit q.limit)) := by
  intro s
  have hs : Regular s := regular_run ops
  exact ⟨pairwise_matching hs.ordered _ _ _, hs.loadPages_iff hquery⟩

/-- Users write to a room: their codes, the ids of the messages and the contents. -/
def roomChats (posts : List (String × String × String)) : List ChatOp :=
  posts.map fun x =>
    .save false { type := .chat, username := x.1, userCode := x.1, room := "lobby"
                  messageID := x.2.1, content := x.2.2 }

/-- The history of the room, one row a page. -/
def roomQuery : HistoryQuery := { userCode := "alice", room := "lobby", limit := 1 }

theorem history_complete_iff_lobby :
    let s := run apply empty
      (roomChats [("alice", "1", "a"), ("bob22", "2", "b"), ("carol", "3", "c")])
    (s.matching .room "lobby" "").map ChatRow.content = ["a", "b", "c"] ∧
    ((∃ fuel, s.loadPages roomQuery fuel "" = some (s.matching .room "lobby" "")) ↔
      s.Resumable .room "lobby" "" 1) :=
  ⟨by decide +kernel, (history_complete_iff
    (roomChats [("alice", "1", "a"), ("bob22", "2", "b"), ("carol", "3", "c")]) roomQuery .room
      "lobby" rfl).2⟩

/-- When the page before an id has more rows before it, and reading on from it never ends, then
reading on from the id never does. -/
theorem loadPages_eq_none {fuel : ℕ} {before next : String}
    (hpage : (s.loadHistory { q with beforeMessageID := before }).toOption.map
      (fun page => (page.rows.head?.map ChatRow.messageID, page.hasMore)) = some (some next, true))
    (hnext : s.loadPages q fuel next = none) : s.loadPages q (fuel + 1) before = none := by
  rw [loadPages]
  cases hload : s.loadHistory { q with beforeMessageID := before } with
  | error e => rfl
  | ok page =>
    rw [hload] at hpage
    obtain ⟨hhead, hmore⟩ := Prod.mk.inj (Option.some_injective _ hpage)
    dsimp only at hhead hmore ⊢
    rw [if_pos hmore]
    cases hrows : page.rows with
    | nil => rfl
    | cons first rest =>
      rw [hrows] at hhead
      obtain rfl : first.messageID = next := Option.some_injective _ hhead
      dsimp only
      rw [hnext, Option.map_none]

/-- Carol's message has the id of Alice's, and Alice's comes first: the page after Carol's begins
before it.  When the later one comes first, the pages go round. -/
theorem reused_id_loses_rows :
    (let s := run apply empty
      (roomChats [("alice", "1", "a"), ("bob22", "2", "b"), ("carol", "1", "c")])
    (s.matching .room "lobby" "").map ChatRow.content = ["a", "b", "c"] ∧
    (s.loadPages roomQuery 2 "").map (List.map ChatRow.content) = some ["c"] ∧
    ¬ ∃ fuel, s.loadPages roomQuery fuel "" = some (s.matching .room "lobby" "")) ∧
    let s := run apply empty (roomChats
      [("alice", "0", "first"), ("bob22", "1", "zzz"), ("carol", "2", "mid"), ("alice", "1", "aaa")])
    ∀ fuel, s.loadPages roomQuery fuel "" = none := by
  constructor
  · intro s
    refine ⟨by decide +kernel, by decide +kernel, fun hpages => ?_⟩
    have hs : Regular s := regular_run _
    have hresumable : s.Resumable .room "lobby" "" 1 :=
      (hs.loadPages_iff (show queryConversation roomQuery = .ok (.room, "lobby") from rfl)).1 hpages
    obtain ⟨previous, hprevious, hid⟩ := Option.map_eq_some_iff.1
      (show (s.matching .room "lobby" "")[1]?.map ChatRow.id = some 2 by decide +kernel)
    obtain ⟨r, hget, hmessageID⟩ := Option.map_eq_some_iff.1
      (show (s.matching .room "lobby" "")[2]?.map ChatRow.messageID = some "1" by decide +kernel)
    obtain ⟨c, hc, hcid⟩ := Option.map_eq_some_iff.1
      (show (s.cursorRow .room "lobby" "1").map ChatRow.id = some 1 by decide +kernel)
    obtain ⟨first, hfirst, hlt, -⟩ := hresumable 1 previous r hprevious hget (Nat.one_dvd _)
    rw [hmessageID, first_iff_cursorRow hs.ordered, hc] at hfirst
    cases hfirst
    omega
  · intro s fuel
    have hround : ∀ fuel, s.loadPages roomQuery fuel "1" = none ∧
        s.loadPages roomQuery fuel "2" = none := by
      intro fuel
      induction fuel with
      | zero => exact ⟨rfl, rfl⟩
      | succ fuel ih =>
        exact ⟨loadPages_eq_none (by decide +kernel) ih.2,
          loadPages_eq_none (by decide +kernel) ih.1⟩
    cases fuel with
    | zero => rfl
    | succ fuel => exact loadPages_eq_none (by decide +kernel) (hround fuel).1

end ChatStore

end LanChat
