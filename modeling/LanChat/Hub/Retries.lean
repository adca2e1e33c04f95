import LanChat.Hub.Receipts

/-!
# Retries

A sender that got no receipt sends its message again under the same id.  The row of the first
attempt makes the Hub recognise the second one, before and after restarts, so a message under a
given sender, conversation and id goes out once as long as its row is stored.

* `liveKey`: the sender, conversation and id of a chat, private chat or offline message;
* `burden`: how many copies a connection has got or may still get;
* `Trace.retry_idempotent`: at most one copy goes to each connection, every receipt carries the
  state that is stored, and that state only moves from `sent` to `delivered`.
-/

namespace LanChat

namespace Hub

open GoStrings Registry ChatStore EventMachine

/-- Sender, conversation and message id. -/
abbrev MessageKey := String × String × String

/-- The key of a message that goes out live. -/
def liveKey (x : Message) : Option MessageKey :=
  match x.type with
  | .chat => some (asciiLower x.userCode, x.room, x.messageID)
  | .privateChat | .offlineMessage =>
    some (asciiLower x.userCode,
      privateConversationKey (asciiLower x.userCode) (asciiLower x.targetUserCode), x.messageID)
  | _ => none

/-- The types of a live message. -/
def liveTypes : List MessageType := [.chat, .privateChat, .offlineMessage]

theorem liveKey_eq_none {x : Message} (hx : x.type ∉ liveTypes) : liveKey x = none := by
  unfold liveKey
  split
  · rename_i ht
    exact absurd (by rw [ht]; decide) hx
  · rename_i ht
    exact absurd (by rw [ht]; decide) hx
  · rename_i ht
    exact absurd (by rw [ht]; decide) hx
  · rfl

/-- The copies for a connection among messages sent. -/
def copies (key : MessageKey) (d : ClientID) (sent : List (ClientID × Message)) : ℕ :=
  sent.countP fun x => x.1 == d && liveKey x.2 == some key

/-- The copies that the login goroutine of a connection still holds. -/
def replayed (key : MessageKey) (d : ClientID) (r : Registry) : ℕ :=
  (r.client? d).elim 0 fun o => o.replay.countP fun m => liveKey m == some key

/-- The key of a message that waits for its target. -/
def offlineKey (row : OfflineRow) : MessageKey :=
  (asciiLower row.senderCode, privateConversationKey (asciiLower row.senderCode) row.targetCode,
    row.messageID)

/-- The message waits for the user of the connection, or for anyone when the connection does not
exist yet. -/
def awaits (key : MessageKey) (d : ClientID) (h : Hub) : Bool :=
  h.db.chat.offline.rows.any fun row => offlineKey row == key &&
    (h.registry.codeOf d).all fun code => code == row.targetCode

/-- The copies that a connection has got or may still get. -/
def burden (key : MessageKey) (d : ClientID) (h : Hub) : ℕ :=
  copies key d h.registry.sent + replayed key d h.registry + (h.awaits key d).toNat

variable {h k : Hub} {key : MessageKey} {d : ClientID}

/-! ### Copies -/

theorem copies_append (a b : List (ClientID × Message)) :
    copies key d (a ++ b) = copies key d a + copies key d b := List.countP_append ..

theorem copies_eq_zero {l : List (ClientID × Message)} (hl : ∀ x ∈ l, liveKey x.2 ≠ some key) :
    copies key d l = 0 := by
  unfold copies
  rw [List.countP_eq_zero]
  intro x hx hmatch
  simp only [Bool.and_eq_true, beq_iff_eq] at hmatch
  exact hl x hx hmatch.2

theorem copies_of_types {r r' : Registry} (hsent : Emits (fun x => x.2.type ∉ liveTypes) r r') :
    copies key d r'.sent = copies key d r.sent := by
  obtain ⟨out, hout, htypes⟩ := hsent
  have hnone : copies key d out = 0 := by
    refine copies_eq_zero fun x hx => ?_
    rw [liveKey_eq_none (htypes x hx)]
    simp
  rw [hout, copies_append, hnone, Nat.add_zero]

/-- A list of deliveries to different connections has at most one copy for each. -/
theorem copies_le_one {l : List (ClientID × Message)} (hl : (l.map Prod.fst).Nodup) :
    copies key d l ≤ 1 := by
  have hcount : copies key d l ≤ (l.map Prod.fst).count d := by
    rw [List.count, List.countP_map]
    refine List.countP_mono_left fun x _ hmatch => ?_
    simp only [Bool.and_eq_true] at hmatch
    exact hmatch.1
  exact hcount.trans (List.nodup_iff_count_le_one.1 hl d)

/-! ### What the login goroutines hold -/

theorem replayed_of_client {r r' : Registry}
    (hobj : (r'.client? d).map Client.replay = (r.client? d).map Client.replay) :
    replayed key d r' = replayed key d r := by
  have helim : ∀ x : Option Client,
      (x.elim 0 fun o => o.replay.countP fun m => liveKey m == some key) =
        (x.map Client.replay).elim 0 fun l => l.countP fun m => liveKey m == some key :=
    fun x => by cases x <;> rfl
  unfold replayed
  rw [helim, helim, hobj]

theorem replayed_fades {r r' : Registry} (hf : Fades r r') :
    replayed key d r' = replayed key d r := by
  have hkeep : ∀ x : Option Client, (x.map profile).map Client.replay = x.map Client.replay :=
    fun x => by cases x <;> rfl
  refine replayed_of_client ?_
  rw [← hkeep, hf.object d, hkeep]

theorem replayed_modifyClient {r : Registry} {c : ClientID} {f : Client → Client}
    (hf : ∀ o, ((f o).replay.countP fun m => liveKey m == some key) ≤
      o.replay.countP fun m => liveKey m == some key) :
    replayed key d (r.modifyClient c f) ≤ replayed key d r := by
  unfold replayed
  rw [client?_modifyClient]
  split_ifs
  · cases r.client? d with
    | none => exact Nat.le_refl _
    | some o => exact hf o
  · exact Nat.le_refl _

theorem replayed_enqueue (r : Registry) (c : ClientID) (m : Message) :
    replayed key d (r.enqueue c m) = replayed key d r := by
  refine replayed_of_client ?_
  change ((r.modifyClient c fun o => { o with send := o.send ++ [m] }).client? d).map _ = _
  rw [client?_modifyClient]
  split_ifs
  · rw [Option.map_map]
    rfl
  · rfl

/-- A move that sends no offline message leaves nobody with more to replay. -/
theorem replayed_move {r r' : Registry} {walks : Prop} {types : List MessageType}
    (hm : Move walks types r r') (hoffline : .offlineMessage ∉ types) :
    replayed key d r' ≤ replayed key d r := by
  cases hm with
  | deliver c m hm => exact (replayed_fades (fades_deliver c m)).le
  | remove c => exact (replayed_fades (fades_removeClient c)).le
  | close c => exact (replayed_fades (fades_closeSend c)).le
  | go c room hw hc hroom =>
    refine (replayed_of_client ?_).le
    rw [client?_moveTo]
    split_ifs
    · rw [Option.map_map]
      rfl
    · rfl
  | mute c => exact replayed_modifyClient fun _ => Nat.le_refl _
  | pump c => exact replayed_modifyClient fun _ => Nat.le_refl _
  | enroll obj hw hobj hnew hfree =>
    unfold replayed
    rw [client?_enroll]
    split_ifs
    · rw [Option.elim_some, hnew.2]
      exact Nat.zero_le _
    · exact Nat.le_refl _
  | dropRoom room hempty => exact Nat.le_refl _
  | load c stage replay hreplay htypes =>
    refine replayed_modifyClient fun o => ?_
    have hzero : (replay.countP fun m => liveKey m == some key) = 0 := by
      rw [List.countP_eq_zero]
      intro m hm
      -- a pending welcome is not a live message
      have hwelcome : m.type = .mlsGroupWelcome := by
        rcases List.mem_cons.1 (hreplay m hm) with ht | ht
        · exact absurd (ht ▸ htypes m hm) hoffline
        · exact List.mem_singleton.1 ht
      rw [liveKey_eq_none (by rw [hwelcome]; decide)]
      simp
    rw [hzero]
    exact Nat.zero_le _
  | push c obj message rest hc hobj hm =>
    have hrest : replayed key d (r.modifyClient c fun o => { o with replay := rest }) ≤
        replayed key d r := by
      unfold replayed
      rw [client?_modifyClient]
      split_ifs with hcd
      · subst hcd
        rw [hc, Option.map_some, Option.elim_some, Option.elim_some, hobj]
        exact (List.sublist_cons_self message rest).countP_le
      · exact Nat.le_refl _
    rw [replayed_enqueue]
    exact hrest

theorem replayed_moves {r r' : Registry} {walks : Prop} {types : List MessageType}
    (hm : Moves walks types r r') (hoffline : .offlineMessage ∉ types) :
    replayed key d r' ≤ replayed key d r := by
  induction hm with
  | refl => exact Nat.le_refl _
  | tail _ hmove ih => exact (replayed_move hmove hoffline).trans ih

/-! ### Events without an attempt -/

theorem awaits_mono (hrows : ∀ row ∈ k.db.chat.offline.rows, row ∈ h.db.chat.offline.rows)
    (hcode : ∀ code, h.registry.codeOf d = some code → k.registry.codeOf d = some code) :
    (k.awaits key d).toNat ≤ (h.awaits key d).toNat := by
  refine Bool.toNat_le_toNat ?_
  intro hawaits
  obtain ⟨row, hrow, hmatch⟩ := List.any_eq_true.1 hawaits
  refine List.any_eq_true.2 ⟨row, hrows row hrow, ?_⟩
  rw [Bool.and_eq_true] at hmatch ⊢
  refine ⟨hmatch.1, ?_⟩
  cases hd : h.registry.codeOf d with
  | none => rfl
  | some code =>
    rw [hcode code hd] at hmatch
    exact hmatch.2

theorem offlineMessage_not_mem_sends {input : Input} (hreplay : ∀ c, input ≠ .replay c) :
    .offlineMessage ∉ input.sends := by
  cases input with
  | replay c => exact absurd rfl (hreplay c)
  | frame c m limited muted =>
    change MessageType.offlineMessage ∉ .system :: frameTypes m.type
    cases m.type with
    | other name => exact (by decide : MessageType.offlineMessage ∉ [.system, .system, .error])
    | _ => decide
  | _ => simp [Input.sends, adminTypes, historyTypes]

/-- An event that is neither an attempt nor a replay leaves every burden. -/
theorem burden_unpublished (platform : Platform) (hs : Sound h.registry) (e : Event)
    (hquiet : Unpublished h (step platform h e)) (hreplay : ∀ c, e.input ≠ .replay c) :
    burden key d (step platform h e) ≤ burden key d h := by
  have hawaits : ((step platform h e).awaits key d).toNat ≤ (h.awaits key d).toNat :=
    awaits_mono hquiet.offline fun _ hc => codeOf_step platform hs e hc
  have hoffline := offlineMessage_not_mem_sends hreplay
  have hcopies : copies key d (step platform h e).registry.sent = copies key d h.registry.sent := by
    obtain ⟨out, hout, hp⟩ := hquiet.sent
    refine copies_of_types ⟨out, hout, fun x hx hlive => ?_⟩
    have hmem : x ∈ sentBetween h (step platform h e) := (mem_sentBetween_iff hout).2 hx
    have hsends : x.2.type ∈ e.input.sends := type_mem_sends platform hs hmem
    have hpublic := hp x hx
    simp only [liveTypes, publicationTypes, List.mem_cons, List.not_mem_nil, or_false] at hlive hpublic
    rcases hlive with ht | ht | ht
    · exact hpublic (.inl ht)
    · exact hpublic (.inr (.inl ht))
    · exact hoffline (ht ▸ hsends)
  have hreplayed : replayed key d (step platform h e).registry ≤ replayed key d h.registry := by
    cases hlive : e.input.isRestart with
    | false => exact replayed_moves (step_touches platform hs e hlive).moves hoffline
    | true =>
      obtain ⟨input, env⟩ := e
      cases input with
      | restart adminCode => exact Nat.le_refl _
      | _ => cases hlive
  unfold burden
  omega

/-! ### The replay after a login -/

/-- The offline message of a row has the row's key. -/
theorem liveKey_taken (row : OfflineRow) {userCode : String}
    (htarget : row.targetCode = asciiLower userCode) :
    liveKey
      { type := .offlineMessage, username := row.senderUsername, userCode := row.senderCode,
        content := row.content, messageID := row.messageID, createdAt := row.createdAt,
        targetUserCode := userCode } = some (offlineKey row) := by
  unfold liveKey offlineKey
  rw [htarget]

/-- An id waits at most once, so it is taken at most once. -/
theorem countP_taken (key : MessageKey) (s : ChatStore) (userCode : String) :
    ((s.takeOfflineMessages userCode).1.countP fun m => liveKey m == some key) ≤
      (s.offline.rows.any fun row =>
        offlineKey row == key && row.targetCode == asciiLower userCode).toNat := by
  unfold takeOfflineMessages
  dsimp only
  rw [List.countP_map, List.countP_filter]
  have hcongr : (s.offline.rows.countP fun row => ((fun m => liveKey m == some key) ∘ fun r : OfflineRow =>
      ({ type := .offlineMessage, username := r.senderUsername, userCode := r.senderCode,
         content := r.content, messageID := r.messageID, createdAt := r.createdAt,
         targetUserCode := userCode } : Message)) row && row.targetCode == asciiLower userCode) =
      s.offline.rows.countP fun row => offlineKey row == key && row.targetCode == asciiLower userCode := by
    refine List.countP_congr fun row _ => ?_
    simp only [Function.comp_apply, Bool.and_eq_true, beq_iff_eq]
    constructor
    · rintro ⟨hkey, htarget⟩
      rw [liveKey_taken row htarget] at hkey
      exact ⟨Option.some_injective _ hkey, htarget⟩
    · rintro ⟨hkey, htarget⟩
      rw [liveKey_taken row htarget, hkey]
      exact ⟨rfl, htarget⟩
  rw [hcongr]
  by_cases hany : (s.offline.rows.any fun row => offlineKey row == key &&
      row.targetCode == asciiLower userCode) = true
  · rw [hany]
    -- two rows under one key would share their message id
    have hpair : s.offline.rows.Pairwise fun a b => a.messageID ≠ b.messageID := by
      refine s.offline.distinct.imp fun {a b} hclash => ?_
      simpa [Table.keyClash] using hclash.1
    have hfilter := hpair.filter fun row => offlineKey row == key && row.targetCode == asciiLower userCode
    rw [List.countP_eq_length_filter]
    have hsame : ∀ row ∈ s.offline.rows.filter (fun row => offlineKey row == key &&
        row.targetCode == asciiLower userCode), row.messageID = key.2.2 := by
      intro row hrow
      have hmatch := (List.mem_filter.1 hrow).2
      simp only [Bool.and_eq_true, beq_iff_eq] at hmatch
      rw [← hmatch.1]
      rfl
    cases hlist : s.offline.rows.filter (fun row => offlineKey row == key &&
        row.targetCode == asciiLower userCode) with
    | nil => simp
    | cons a tail =>
      cases tail with
      | nil => simp
      | cons b rest =>
        exfalso
        rw [hlist] at hfilter hsame
        refine List.rel_of_pairwise_cons hfilter List.mem_cons_self ?_
        rw [hsame a List.mem_cons_self, hsame b (List.mem_cons_of_mem _ List.mem_cons_self)]
  · rw [List.countP_eq_zero.2 fun row hrow hmatch => hany (List.any_eq_true.2 ⟨row, hrow, hmatch⟩)]
    exact Nat.zero_le _

/-- The Hub once a connection has taken the offline messages of a code. -/
def withTaken (h : Hub) (c : ClientID) (userCode : String) : Hub :=
  { h with
    db := { h.db with chat := (h.db.chat.takeOfflineMessages userCode).2 }
    registry := h.registry.modifyClient c fun o =>
      { o with stage := .welcomes, replay := (h.db.chat.takeOfflineMessages userCode).1 } }

theorem codeOf_withTaken {c : ClientID} {userCode code : String}
    (hd : h.registry.codeOf d = some code) :
    (h.withTaken c userCode).registry.codeOf d = some code :=
  codeOf_modifyClient hd fun _ => rfl

/-- What a connection that takes its offline messages gets was waiting for it. -/
theorem burden_withTaken (hs : Sound h.registry) {c : ClientID} {obj : Client}
    (hobj : h.registry.client? c = some obj) (hempty : obj.replay = []) :
    burden key d (h.withTaken c obj.userCode) ≤ burden key d h := by
  have hcode : obj.normalizedCode = asciiLower obj.userCode :=
    (normalizeUserCode_eq_ok.1 (hs.valid obj (client?_mem hobj)).code).2
  have hsent : copies key d (h.withTaken c obj.userCode).registry.sent =
    copies key d h.registry.sent := rfl
  unfold burden
  by_cases hcd : c = d
  · subst hcd
    have hthis : h.registry.codeOf c = some obj.normalizedCode := by
      unfold codeOf
      rw [hobj]
      rfl
    have hbefore : replayed key c h.registry = 0 := by
      unfold replayed
      rw [hobj, Option.elim_some, hempty]
      rfl
    have hafter : replayed key c (h.withTaken c obj.userCode).registry =
        (h.db.chat.takeOfflineMessages obj.userCode).1.countP fun m => liveKey m == some key := by
      unfold replayed withTaken
      rw [client?_modifyClient, if_pos rfl, hobj]
      rfl
    have hwaited : h.awaits key c = h.db.chat.offline.rows.any fun row =>
        offlineKey row == key && row.targetCode == asciiLower obj.userCode := by
      unfold awaits
      rw [hthis, hcode]
      refine congrArg (List.any h.db.chat.offline.rows) (funext fun row => ?_)
      rw [Option.all_some, Bool.beq_comm (a := asciiLower obj.userCode)]
    have hgone : (h.withTaken c obj.userCode).awaits key c = false := by
      unfold awaits
      rw [List.any_eq_false]
      intro row hrow hmatch
      have hother : (row.targetCode == asciiLower obj.userCode) = false := by
        simpa using (List.mem_filter.1 hrow).2
      rw [codeOf_withTaken hthis, Option.all_some, hcode, Bool.beq_comm (a := asciiLower obj.userCode),
        hother, Bool.and_false] at hmatch
      cases hmatch
    have hcount := countP_taken key h.db.chat obj.userCode
    rw [← hwaited, ← hafter] at hcount
    rw [hgone, hbefore, hsent, Bool.toNat_false]
    omega
  · have hawaits : ((h.withTaken c obj.userCode).awaits key d).toNat ≤ (h.awaits key d).toNat :=
      awaits_mono (fun row hrow => List.mem_of_mem_filter hrow) fun code hc => codeOf_withTaken hc
    have hsame : replayed key d (h.withTaken c obj.userCode).registry =
        replayed key d h.registry := by
      unfold replayed withTaken
      rw [client?_modifyClient, if_neg hcd]
    rw [hsame, hsent]
    omega

/-- The login goroutine only passes on what it holds. -/
theorem burden_replay (hs : Sound h.registry) (env : Env) (c : ClientID) :
    burden key d (h.replay env c) ≤ burden key d h := by
  -- without a change to the offline queue the registry decides
  have hregistry : ∀ {f : Registry → Registry} (types : List MessageType),
      Moves False types h.registry (f h.registry) →
      copies key d (f h.registry).sent + replayed key d (f h.registry) ≤
        copies key d h.registry.sent + replayed key d h.registry →
      burden key d (h.onRegistry f) ≤ burden key d h := by
    intro f types hmoves hle
    have hawaits : ((h.onRegistry f).awaits key d).toNat ≤ (h.awaits key d).toNat :=
      awaits_mono (fun _ hrow => hrow) fun code hc =>
        hmoves.preserves (fun _ _ hmove hcode => hmove.codeOf hcode) hc
    change copies key d (f h.registry).sent + replayed key d (f h.registry) + _ ≤ _
    unfold burden
    omega
  have hquiet : ∀ {f : Registry → Registry} (types : List MessageType),
      Moves False types h.registry (f h.registry) → (∀ t ∈ types, t ∉ liveTypes) →
      burden key d (h.onRegistry f) ≤ burden key d h := by
    intro f types hmoves htypes
    refine hregistry types hmoves (Nat.add_le_add (copies_of_types ?_).le ?_)
    · exact hmoves.emits.mono fun x hx => htypes _ hx
    · exact replayed_moves hmoves fun hmem => htypes _ hmem (by decide)
  unfold replay
  split
  · exact Nat.le_refl _
  rename_i obj hobj
  split
  · rename_i message rest hreplay
    split
    · refine hquiet [.system, .mlsGroupWelcome] ?_ (by decide)
      exact (Move.load _ c .ended [] (by simp) (by simp) (by decide)).moves.trans
        (moves_unregisterClient (by decide) env c)
    split
    · -- the message leaves the goroutine and enters the send queue
      refine hregistry [message.type]
        (Move.push _ c obj message rest hobj hreplay List.mem_cons_self).moves ?_
      rw [replayed_enqueue]
      change copies key d (h.registry.sent ++ [(c, message)]) + _ ≤ _
      rw [copies_append]
      unfold replayed
      rw [client?_modifyClient]
      split_ifs with hcd
      · subst hcd
        rw [hobj, Option.map_some, Option.elim_some, Option.elim_some, hreplay, List.countP_cons]
        have hone : copies key c [(c, message)] =
            if (liveKey message == some key) = true then 1 else 0 := by
          simp [copies, List.countP_cons]
        dsimp only
        omega
      · have hnone : copies key d [(c, message)] = 0 := by simp [copies, hcd]
        omega
    · exact Nat.le_refl _
  · rename_i hempty
    split
    · dsimp only
      split
      · have hload : burden key d (h.onRegistry fun r => r.modifyClient c fun o =>
            { o with stage := .welcomes, replay := [] }) ≤ burden key d h :=
          hquiet [.mlsGroupWelcome]
            (Move.load _ c .welcomes [] (by simp) (by simp) (by decide)).moves (by decide)
        exact hload
      · exact burden_withTaken hs hobj hempty
    · refine hquiet [.mlsGroupWelcome] (Move.load _ c .reading _ ?_ ?_ (by decide)).moves
        (by decide)
      · intro m hm
        split at hm
        · obtain ⟨row, -, rfl⟩ := List.mem_map.1 hm
          simp [replayTypes, welcomeReplay]
        · cases hm
      · intro m hm
        split at hm
        · obtain ⟨row, -, rfl⟩ := List.mem_map.1 hm
          simp [welcomeReplay]
        · cases hm
    · exact Nat.le_refl _
    · exact Nat.le_refl _

/-! ### Attempts -/

theorem copies_sublist {a b : List (ClientID × Message)} (hsub : a.Sublist b) :
    copies key d a ≤ copies key d b := hsub.countP_le

/-- Everything goes to another connection. -/
theorem copies_eq_zero_of_ne {l : List (ClientID × Message)} (hl : ∀ x ∈ l, x.1 ≠ d) :
    copies key d l = 0 := by
  unfold copies
  rw [List.countP_eq_zero]
  intro x hx hmatch
  simp only [Bool.and_eq_true, beq_iff_eq] at hmatch
  exact hl x hx hmatch.1

/-- Copies of one message are added, at most one for each connection. -/
structure Adds (key : MessageKey) (h k : Hub) : Prop where
  other : ∀ key', key' ≠ key → ∀ d, burden key' d k ≤ burden key' d h
  one : ∀ d, burden key d k ≤ burden key d h + 1

/-- An attempt that is not relayed adds nothing. -/
theorem burden_quiet {parts : List Part} {types : List MessageType} (a : Touches parts types h k)
    (hoffline : k.db.chat.offline = h.db.chat.offline) (htypes : ∀ t ∈ types, t ∉ liveTypes) :
    burden key d k ≤ burden key d h := by
  have hawaits : (k.awaits key d).toNat ≤ (h.awaits key d).toNat := by
    refine awaits_mono (fun row hrow => hoffline ▸ hrow) fun code hc => ?_
    exact a.moves.preserves (fun _ _ hmove hcode => hmove.codeOf hcode) hc
  have hcopies : copies key d k.registry.sent = copies key d h.registry.sent :=
    copies_of_types (a.moves.emits.mono fun x hx => htypes _ hx)
  have hreplayed : replayed key d k.registry ≤ replayed key d h.registry :=
    replayed_moves a.moves fun hmem => htypes _ hmem (by decide)
  unfold burden
  omega

/-- What an attempt sends, by lists: at most one copy for each connection. -/
theorem adds_of_sent {parts : List Part} {types : List MessageType} (a : Touches parts types h k)
    (hoffline : k.db.chat.offline = h.db.chat.offline) (htypes : .offlineMessage ∉ types)
    (live rest : List (ClientID × Message))
    (hsent : k.registry.sent = h.registry.sent ++ live ++ rest)
    (hlive : ∀ x ∈ live, liveKey x.2 = some key) (hnodup : (live.map Prod.fst).Nodup)
    (hrest : ∀ x ∈ rest, x.2.type ∉ liveTypes) : Adds key h k := by
  have hawaits : ∀ key' d, (k.awaits key' d).toNat ≤ (h.awaits key' d).toNat := by
    intro key' d
    refine awaits_mono (fun row hrow => hoffline ▸ hrow) fun code hc => ?_
    exact a.moves.preserves (fun _ _ hmove hcode => hmove.codeOf hcode) hc
  have hreplayed : ∀ key' d, replayed key' d k.registry ≤ replayed key' d h.registry :=
    fun _ _ => replayed_moves a.moves htypes
  have hzero : ∀ key' d, copies key' d rest = 0 := by
    intro key' d
    refine copies_eq_zero fun x hx => ?_
    rw [liveKey_eq_none (hrest x hx)]
    simp
  have hcopies : ∀ key' d, copies key' d k.registry.sent =
      copies key' d h.registry.sent + copies key' d live := by
    intro key' d
    rw [hsent, copies_append, copies_append, hzero, Nat.add_zero]
  constructor
  · intro key' hne d
    have hnone : copies key' d live = 0 := by
      refine copies_eq_zero fun x hx hkey => hne ?_
      exact (Option.some_injective _ ((hlive x hx).symm.trans hkey)).symm
    have hc := hcopies key' d
    have ha := hawaits key' d
    have hr := hreplayed key' d
    unfold burden
    omega
  · intro d
    have hone : copies key d live ≤ 1 := copies_le_one hnodup
    have hc := hcopies key d
    have ha := hawaits key d
    have hr := hreplayed key d
    unfold burden
    omega

theorem receipt_not_live (messageID state : String) : (receipt messageID state).type ∉ liveTypes :=
  (by decide : MessageType.deliveryReceipt ∉ liveTypes)

theorem not_live_of_error {x : Message} (hx : x.type = .error) : x.type ∉ liveTypes := by
  rw [hx]
  decide

theorem not_live_of_sublist_receipt {c : ClientID} {messageID state : String} {tracking : Bool}
    {out : List (ClientID × Message)}
    (hout : out.Sublist (if tracking then [(c, receipt messageID state)] else [])) :
    ∀ x ∈ out, x.2.type ∉ liveTypes := by
  intro x hx
  have hmem := hout.subset hx
  cases tracking with
  | true =>
    rw [if_pos rfl] at hmem
    rw [List.mem_singleton.1 hmem]
    exact receipt_not_live messageID state
  | false => simp at hmem

/-- A relayed chat goes once to each member. -/
theorem adds_relayChat (hd : Distinct h.registry) (env : Env) (sender : Option ClientID)
    {room : String} (hroom : room ≠ "") (tracking : Bool) {message : Message}
    (ht : message.type = .chat) (hin : message.room = room) :
    Adds (asciiLower message.userCode, room, message.messageID) h
      (h.relayChat env sender room tracking message) := by
  obtain ⟨live, rest, hrelay⟩ := chatRelay (h := h) env sender room tracking message
  have htouch := touches_relayChat (h := h) env sender room tracking ht
  have hwire : liveKey (wireMessage tracking message) =
      some (asciiLower message.userCode, room, message.messageID) := by
    unfold liveKey wireMessage
    split_ifs
    · rw [ht, hin]
    · dsimp only
      rw [ht, hin]
  have hrest : ∀ x ∈ rest, x.2.type ∉ liveTypes := by
    intro x hx
    cases hrelay.tail with
    | silent hdb hout =>
      rw [hout] at hx
      cases hx
    | sent c htracking hdb hout =>
      rw [List.mem_singleton.1 (hout.subset hx)]
      exact receipt_not_live _ _
    | unmarked hdb hout => exact not_live_of_error (hout x hx)
    | delivered c htracking l hmark hdb hout =>
      rw [List.mem_singleton.1 (hout.subset hx)]
      exact receipt_not_live _ _
  exact adds_of_sent htouch hrelay.offline (by decide) live rest hrelay.sent
    (fun x hx => by rw [hrelay.wire x hx]; exact hwire) (hrelay.nodup hd hroom) hrest

theorem liveKey_private (tracking : Bool) {message : Message} {target : String}
    (ht : message.type = .privateChat) (hto : asciiLower message.targetUserCode = target) :
    liveKey (wireMessage tracking message) = some (asciiLower message.userCode,
      privateConversationKey (asciiLower message.userCode) target, message.messageID) := by
  unfold liveKey wireMessage
  split_ifs
  · rw [ht, hto]
  · dsimp only
    rw [ht, hto]

theorem nodup_pair {c t : ClientID} {x y : Message} (hct : c ≠ t) :
    (([(c, x), (t, y)] : List (ClientID × Message)).map Prod.fst).Nodup := by
  simp [hct]

/-- The echo goes to the sender and the message to the target's session. -/
theorem adds_relayPrivate (env : Env) {c t : ClientID} (obj : Client) {target : String}
    (tracking : Bool) {message : Message} (hc : c ∈ h.registry.clients)
    (htc : t ∈ h.registry.clients) (hct : c ≠ t) (ht : message.type = .privateChat)
    (hto : asciiLower message.targetUserCode = target) :
    Adds (asciiLower message.userCode, privateConversationKey (asciiLower message.userCode) target,
      message.messageID) h (h.relayPrivate env c obj t target tracking message) := by
  have htouch := touches_relayPrivate (h := h) env c obj t target tracking ht
  have hwire := liveKey_private tracking ht hto
  cases privateRelay (h := h) env obj target tracking message hc htc hct with
  | echoFull hspace hdb hsent =>
    refine adds_of_sent htouch (by rw [hdb]) (by decide) [] [] ?_ (by simp) (by simp) (by simp)
    rw [hsent, List.append_nil, List.append_nil]
  | targetFull hspace htfull hdb out hsent hout =>
    refine adds_of_sent htouch (by rw [hdb]) (by decide)
      [(c, wireMessage tracking message)] out ?_ ?_ (by simp)
      (not_live_of_sublist_receipt hout)
    · rw [hsent, List.append_assoc]
      rfl
    · intro x hx
      rw [List.mem_singleton.1 hx]
      exact hwire
  | unmarked hspace htspace hdb out hsent hout =>
    refine adds_of_sent htouch (by rw [hdb]) (by decide)
      [(c, wireMessage tracking message), (t, wireMessage tracking message)] out ?_ ?_
      (nodup_pair hct) fun x hx => not_live_of_error (hout x hx)
    · rw [hsent, List.append_assoc]
      rfl
    · intro x hx
      rcases List.mem_cons.1 hx with rfl | hx
      · exact hwire
      · rw [List.mem_singleton.1 hx]
        exact hwire
  | delivered hspace htspace l hmark hdb out hsent hout =>
    refine adds_of_sent htouch (by rw [hdb, offline_markDelivered hmark]) (by decide)
      [(c, wireMessage tracking message), (t, wireMessage tracking message)] out ?_ ?_
      (nodup_pair hct) (not_live_of_sublist_receipt hout)
    · rw [hsent, List.append_assoc]
      rfl
    · intro x hx
      rcases List.mem_cons.1 hx with rfl | hx
      · exact hwire
      · rw [List.mem_singleton.1 hx]
        exact hwire

/-- The echo goes to the sender, and one copy waits for the target. -/
theorem adds_savePrivateOffline (env : Env) {c : ClientID} {obj : Client} {target : String}
    (tracking : Bool) {message : Message} (hobj : h.registry.client? c = some obj)
    (hne : target ≠ obj.normalizedCode) (ht : message.type = .privateChat)
    (hto : asciiLower message.targetUserCode = target) (hlower : asciiLower target = target)
    (hcontent : validateTextContent "private chat" message.content = .ok ()) :
    Adds (asciiLower message.userCode, privateConversationKey (asciiLower message.userCode) target,
      message.messageID) h (h.savePrivateOffline env c obj target tracking message) := by
  have htouch := touches_savePrivateOffline (h := h) env c obj target tracking ht
  have hwire := liveKey_private tracking ht hto
  have herrors : ∀ {out : List (ClientID × Message)},
      (h.savePrivateOffline env c obj target tracking message).db = h.db →
      (h.savePrivateOffline env c obj target tracking message).registry.sent =
        h.registry.sent ++ out → (∀ x ∈ out, x.2.type = .error) →
      Adds (asciiLower message.userCode, privateConversationKey (asciiLower message.userCode) target,
        message.messageID) h (h.savePrivateOffline env c obj target tracking message) := by
    intro out hdb hsent hout
    refine adds_of_sent htouch (by rw [hdb]) (by decide) [] out ?_ (by simp) (by simp)
      fun x hx => not_live_of_error (hout x hx)
    rw [hsent, List.append_nil]
  cases offlineRelay (h := h) env c obj target tracking hcontent with
  | unknown hknown hdb hrecords out hsent hout => exact herrors hdb hsent hout
  | unsaved hknown htaken hdb hrecords out hsent hout => exact herrors hdb hsent hout
  | queued hknown s hqueued hdb hrecords out hsent hout =>
    generalize h.savePrivateOffline env c obj target tracking message = k at htouch hdb hsent
    have hreplayed : ∀ key' d, replayed key' d k.registry ≤ replayed key' d h.registry :=
      fun _ _ => replayed_moves htouch.moves (by decide)
    have hcode : ∀ {d : ClientID} {code : String}, h.registry.codeOf d = some code →
        k.registry.codeOf d = some code := fun hc =>
      htouch.moves.preserves (fun _ _ hmove hcode => hmove.codeOf hcode) hc
    have hrowkey : offlineKey (offlineRow target message) = (asciiLower message.userCode,
        privateConversationKey (asciiLower message.userCode) target, message.messageID) := by
      unfold offlineKey offlineRow
      rw [hlower]
    rw [← hrowkey] at hwire ⊢
    -- the new row waits for the target alone
    have hawaits : ∀ key' d, key' ≠ offlineKey (offlineRow target message) ∨ d = c →
        (k.awaits key' d).toNat ≤ (h.awaits key' d).toNat := by
      intro key' d hother
      refine Bool.toNat_le_toNat fun hwait => ?_
      obtain ⟨row, hrow, hmatch⟩ := List.any_eq_true.1 hwait
      rw [Bool.and_eq_true, beq_iff_eq] at hmatch
      rw [hdb] at hrow
      rcases hqueued.rows row hrow with hold | rfl
      · refine List.any_eq_true.2 ⟨row, hold, ?_⟩
        rw [Bool.and_eq_true, beq_iff_eq]
        refine ⟨hmatch.1, ?_⟩
        cases hd : h.registry.codeOf d with
        | none => rfl
        | some code =>
          rw [hcode hd] at hmatch
          exact hmatch.2
      · exfalso
        rcases hother with hother | rfl
        · exact hother hmatch.1.symm
        · have hown : h.registry.codeOf d = some obj.normalizedCode := by
            unfold codeOf
            rw [hobj]
            rfl
          rw [hcode hown, Option.all_some, beq_iff_eq] at hmatch
          exact hne (hlower.symm.trans hmatch.2.symm)
    have hcopies : ∀ key' d, copies key' d out ≤
        if d = c ∧ key' = offlineKey (offlineRow target message) then 1 else 0 := by
      intro key' d
      rcases hout with hout | hout
      · rw [copies_eq_zero fun x hx => by rw [liveKey_eq_none (not_live_of_error (hout x hx))]; simp]
        exact Nat.zero_le _
      · refine (copies_sublist hout).trans ?_
        have hrest : copies key' d (if tracking then [(c, receipt message.messageID "sent")] else []) =
            0 := copies_eq_zero fun x hx => by
          rw [liveKey_eq_none (not_live_of_sublist_receipt (List.Sublist.refl _) x hx)]
          simp
        unfold offlineNotices
        rw [copies_append, hrest, Nat.add_zero]
        have hsystem : liveKey
            { type := .system, content := "Private message saved for offline user" } = none := rfl
        unfold copies
        rw [List.countP_cons, List.countP_cons, List.countP_nil, hwire, hsystem]
        by_cases hcd : d = c
        · subst hcd
          by_cases hkey : key' = offlineKey (offlineRow target message)
          · simp [hkey]
          · simp [hkey, Ne.symm hkey]
        · simp [hcd, Ne.symm hcd]
    have htotal : ∀ key' d, copies key' d k.registry.sent =
        copies key' d h.registry.sent + copies key' d out := by
      intro key' d
      rw [hsent, copies_append]
    constructor
    · intro key' hne' d
      have hc := hcopies key' d
      rw [if_neg fun hboth => hne' hboth.2] at hc
      have ha := hawaits key' d (.inl hne')
      have hr := hreplayed key' d
      have ht := htotal key' d
      unfold burden
      omega
    · intro d
      have hc := hcopies (offlineKey (offlineRow target message)) d
      have hr := hreplayed (offlineKey (offlineRow target message)) d
      have ht := htotal (offlineKey (offlineRow target message)) d
      unfold burden
      by_cases hcd : d = c
      · have ha := hawaits (offlineKey (offlineRow target message)) d (.inr hcd)
        rw [if_pos ⟨hcd, rfl⟩] at hc
        omega
      · rw [if_neg fun hboth => hcd hboth.1] at hc
        have ha := Bool.toNat_le (k.awaits (offlineKey (offlineRow target message)) d)
        omega

theorem burden_withChat {s : ChatStore} (hoffline : s.offline = h.db.chat.offline) :
    burden key d (h.withChat s) = burden key d h := by
  have hsame : (h.withChat s).awaits key d = h.awaits key d := by
    unfold awaits
    rw [hoffline]
  unfold burden
  rw [hsame]

/-- A relayed attempt adds copies under its own key. -/
theorem adds_relay (platform : Platform) (hs : Sound h.registry) (hd : Distinct h.registry)
    (hstore : h.offlineStore = true) (env : Env) {a : Attempt} (hv : a.Valid h)
    (hsender : a.sender h ≠ none) {s : ChatStore} (hoffline : s.offline = h.db.chat.offline) :
    Adds (a.key h) h (a.relay platform env (h.withChat s)) := by
  have hadds : Adds (a.key h) (h.withChat s) (a.relay platform env (h.withChat s)) := by
    cases hv with
    | @chat tracking message obj hobj ht hid hcode m hmt hm hcontent hcrypto =>
      obtain ⟨c, hc⟩ := Option.ne_none_iff_exists'.1 hsender
      have hof : h.senderOf message.userCode = some c := hc
      have hactive : h.registry.active? obj.normalizedCode = some c := by
        unfold senderOf at hof
        rw [hcode, hobj.code] at hof
        exact hof
      obtain ⟨-, o, ho, -⟩ := hs.active _ _ hactive
      have hroom : h.senderRoom (h.senderOf message.userCode) ≠ "" := by
        simp only [hof, senderRoom, Option.bind_some, ho]
        exact room_ne_empty (hs.valid o (client?_mem ho)).room
      rw [relay_withChat platform env tracking message s hstore]
      obtain ⟨q, hq, hqt, hqroom, hqcode, hqid⟩ : ∃ q : Message,
          Attempt.stored platform env h (.chat tracking message) = q ∧ q.type = .chat ∧
          q.room = h.senderRoom (h.senderOf message.userCode) ∧ q.userCode = message.userCode ∧
          q.messageID = message.messageID := ⟨_, rfl, ht, rfl, rfl, rfl⟩
      have hkey : Attempt.key h (.chat tracking message) = (asciiLower q.userCode,
          h.senderRoom (h.senderOf message.userCode), q.messageID) := by
        rw [hqcode, hqid]
        rfl
      rw [hq, hkey]
      exact adds_relayChat (h := h.withChat s) hd env _ hroom tracking hqt hqroom
    | @privateChat c obj target tracking message hc hobj hvalid htarget hne ht hid hcode hto
        hcontent hcrypto hstate =>
      have hlower : asciiLower target = target := ((normalizeUserCode_eq_ok.1 htarget).2).symm
      have hkey : Attempt.key h (.privateChat c obj target tracking message) =
          (asciiLower message.userCode, privateConversationKey (asciiLower message.userCode) target,
            message.messageID) := by
        have hown : asciiLower message.userCode = obj.normalizedCode := by
          rw [hcode]
          exact ((normalizeUserCode_eq_ok.1 hvalid.code).2).symm
        rw [hown]
        rfl
      rw [hkey]
      change Adds _ (h.withChat s) ((h.withChat s).routePrivate env c obj target tracking message)
      unfold routePrivate
      split
      · exact adds_savePrivateOffline env tracking hobj hne ht (by rw [hto, hlower]) hlower hcontent
      · rename_i t hactive
        obtain ⟨htc, o, hto', hocode⟩ := hs.active target t hactive
        have hct : c ≠ t := ne_of_active hs hobj hne hactive
        have hspelling : asciiLower (((h.withChat s).registry.client? t).elim message.targetUserCode
            Client.userCode) = target := by
          have hclient : (h.withChat s).registry.client? t = some o := hto'
          rw [hclient, Option.elim_some, ← hocode]
          exact ((normalizeUserCode_eq_ok.1 (hs.valid o (client?_mem hto')).code).2).symm
        obtain ⟨q, hq, hqt, hqto, hqcode, hqid⟩ : ∃ q : Message,
            { message with
              targetUserCode := ((h.withChat s).registry.client? t).elim message.targetUserCode
                Client.userCode } = q ∧ q.type = .privateChat ∧
            asciiLower q.targetUserCode = target ∧ q.userCode = message.userCode ∧
            q.messageID = message.messageID := ⟨_, rfl, ht, hspelling, rfl, rfl⟩
        dsimp only
        rw [hq, ← hqcode, ← hqid]
        exact adds_relayPrivate (h := h.withChat s) env obj tracking hc htc hct hqt hqto
  constructor
  · intro key' hne d
    rw [← burden_withChat hoffline]
    exact hadds.other key' hne d
  · intro d
    rw [← burden_withChat hoffline]
    exact hadds.one d

/-- An attempt adds copies only when its row is new. -/
theorem burden_outcome {platform : Platform} {env : Env} (hs : Sound h.registry)
    (hd : Distinct h.registry) (hstore : h.offlineStore = true) {a : Attempt} (hv : a.Valid h)
    (ho : Outcome platform env h a k) :
    (∀ key d, burden key d k ≤ burden key d h) ∨
      (Adds (a.key h) h k ∧ (∀ row ∈ h.db.chat.messages.rows, row.key ≠ a.key h) ∧
        ∃ row ∈ k.db.chat.messages.rows, row.key = a.key h) := by
  cases ho with
  | unstored hopen =>
    rw [hstore] at hopen
    cases hopen
  | refused _ hk =>
    refine .inl fun key d => burden_quiet hk ?_ (by decide)
    have hsame : k.db.chat = h.db.chat := hk.same .chat (by decide)
    rw [hsame]
  | retried _ row hrow hkey hk =>
    left
    intro key d
    have htouch : Touches [] [.deliveryReceipt, .error] h k := by
      rw [hk]
      unfold answerRetry
      split
      · exact Touches.refl h
      split
      · exact Touches.refl h
      split
      · exact touches_deliverError (by decide) _ _ _ _
      · exact touches_tell (t := .deliveryReceipt) rfl (by decide)
    have hsame : k.db.chat = h.db.chat := htouch.same .chat (by decide)
    exact burden_quiet htouch (by rw [hsame]) (by decide)
  | unpruned _ hfails hprune s hsender hsaved hk =>
    left
    intro key d
    have hsame : k.db.chat = s := hk.same .chat (by decide)
    rw [← burden_withChat hsaved.offline]
    exact burden_quiet hk (by rw [hsame]) (by decide)
  | relayed _ hfails hprune s hsender hsaved hk =>
    have hkey : (a.row platform env h).key = a.key h := key_row
    refine .inr ⟨?_, fun row hrow => ?_, ?_⟩
    · rw [hk]
      exact adds_relay platform hs hd hstore env hv hsender hsaved.offline
    · rw [← hkey]
      exact hsaved.fresh row hrow
    · obtain ⟨row, hrow, hfix⟩ :=
        (marks_relay platform (h := h.withChat s) hs env (hv.congr rfl)).forth _ hsaved.mem
      rw [← hk] at hrow
      exact ⟨row, hrow, (ChatRow.fixed_key hfix).trans hkey⟩

/-! ### Receipts and states -/

/-- Who gets a receipt for a relayed attempt reads the state of its row. -/
theorem receipt_relay (platform : Platform) (hs : Sound h.registry) (hstore : h.offlineStore = true)
    (env : Env) {a : Attempt} (hv : a.Valid h) (hsender : a.sender h ≠ none) {row : ChatRow}
    (hrow : row ∈ h.db.chat.messages.rows) (hkey : row.key = a.key h)
    (hkind : row.kind = (a.identity h).kind) (hstate : row.deliveryState = "sent")
    {x : ClientID × Message} (hx : x ∈ sentBetween h (a.relay platform env h))
    (hxt : x.2.type = .deliveryReceipt) :
    ∃ row' ∈ (a.relay platform env h).db.chat.messages.rows, row'.key = a.key h ∧
      x.2 = receipt a.message.messageID row'.deliveryState := by
  have hident := identity_of_check (checkChatMessage_stored platform env hs hv hsender)
  have hsent : ∀ {k : Hub}, k.db = h.db → x.2 = receipt a.message.messageID "sent" →
      ∃ row' ∈ k.db.chat.messages.rows, row'.key = a.key h ∧
        x.2 = receipt a.message.messageID row'.deliveryState := by
    intro k hdb hreceipt
    rw [hdb]
    exact ⟨row, hrow, hkey, by rw [hstate, hreceipt]⟩
  have hmarked : ∀ {k l : Hub} {message : Message}, h.markDelivered env message = some l →
      chatMessageIdentity message = .ok (a.identity h) →
      message.messageID = a.message.messageID → k.db = l.db →
      x.2 = receipt a.message.messageID "delivered" →
      ∃ row' ∈ k.db.chat.messages.rows, row'.key = a.key h ∧
        x.2 = receipt a.message.messageID row'.deliveryState := by
    intro k l message hmark hid hmid hdb hreceipt
    obtain ⟨row', hrow', hkey', hdelivered⟩ := delivered_markDelivered hstore hid hmark hrow hkind
      (by rw [hmid]; exact hkey)
    rw [hdb]
    exact ⟨row', hrow', hkey'.trans hkey, by rw [hdelivered, hreceipt]⟩
  cases hv with
  | @chat tracking message obj hobj ht hid hcode m hmt hm hcontent hcrypto =>
    have hrelay : Attempt.relay platform env h (.chat tracking message) =
        h.relayChat env (h.senderOf message.userCode) (h.senderRoom (h.senderOf message.userCode))
          tracking (Attempt.stored platform env h (.chat tracking message)) := by
      have hwith := relay_withChat platform env tracking message h.db.chat hstore
      exact hwith
    rw [hrelay] at hx ⊢
    obtain ⟨live, rest, hout⟩ := chatRelay (h := h) env (h.senderOf message.userCode)
      (h.senderRoom (h.senderOf message.userCode)) tracking
      (Attempt.stored platform env h (.chat tracking message))
    have hmem := (mem_sentBetween_iff (by rw [hout.sent, List.append_assoc])).1 hx
    rcases List.mem_append.1 hmem with hlive | hrest
    · exfalso
      have hwire := (wireMessage_fields tracking
        (Attempt.stored platform env h (.chat tracking message))).1
      rw [← hout.wire x hlive, hxt] at hwire
      exact absurd (hwire.trans ht) (by decide)
    · cases hout.tail with
      | silent hdb hnone =>
        rw [hnone] at hrest
        cases hrest
      | sent c htracking hdb hsub =>
        refine hsent hdb ?_
        rw [List.mem_singleton.1 (hsub.subset hrest)]
        rfl
      | unmarked hdb herr =>
        rw [herr x hrest] at hxt
        cases hxt
      | delivered c htracking l hmark hdb hsub =>
        refine hmarked hmark hident rfl hdb ?_
        rw [List.mem_singleton.1 (hsub.subset hrest)]
        rfl
  | @privateChat c obj target tracking message hc hobj hvalid htarget hne ht hid hcode hto hcontent
      hcrypto hstate' =>
    have hnotified : ∀ {state : String} {out : List (ClientID × Message)},
        out.Sublist (if tracking then [(c, receipt message.messageID state)] else []) → x ∈ out →
        x.2 = receipt message.messageID state := by
      intro state out hsub hmem
      have hin := hsub.subset hmem
      cases tracking with
      | true =>
        rw [if_pos rfl] at hin
        rw [List.mem_singleton.1 hin]
      | false => simp at hin
    change x ∈ sentBetween h (h.routePrivate env c obj target tracking message) at hx
    change ∃ row' ∈ (h.routePrivate env c obj target tracking message).db.chat.messages.rows, _
    unfold routePrivate at hx ⊢
    split at hx
    · cases offlineRelay (h := h) env c obj target tracking hcontent with
      | unknown hknown hdb hrecords out hout herr =>
        rw [herr x ((mem_sentBetween_iff hout).1 hx)] at hxt
        cases hxt
      | unsaved hknown htaken hdb hrecords out hout herr =>
        rw [herr x ((mem_sentBetween_iff hout).1 hx)] at hxt
        cases hxt
      | queued hknown s hqueued hdb hrecords out hout hnotices =>
        have hmem := (mem_sentBetween_iff hout).1 hx
        rcases hnotices with herr | hsub
        · rw [herr x hmem] at hxt
          cases hxt
        refine ⟨row, ?_, hkey, ?_⟩
        · rw [hdb]
          change row ∈ s.messages.rows
          rw [hqueued.messages]
          exact hrow
        rcases List.mem_append.1 (hsub.subset hmem) with hnotice | hnotice
        · exfalso
          rcases List.mem_cons.1 hnotice with rfl | hnotice
          · rw [(wireMessage_fields tracking message).1, ht] at hxt
            cases hxt
          · rw [List.mem_singleton.1 hnotice] at hxt
            cases hxt
        · rw [hstate]
          exact hnotified (List.Sublist.refl _) hnotice
    · rename_i t hactive
      obtain ⟨htc, o, hto', hocode⟩ := hs.active target t hactive
      have hct : c ≠ t := ne_of_active hs hobj hne hactive
      have hspelling : normalizeUserCode ((h.registry.client? t).elim message.targetUserCode
          Client.userCode) = .ok target := by
        rw [hto', Option.elim_some, ← hocode]
        exact (hs.valid o (client?_mem hto')).code
      obtain ⟨q, hq, hqt, hqto, hqcode, hqid, hqcontent, hqcrypto⟩ : ∃ q : Message,
          { message with
            targetUserCode := (h.registry.client? t).elim message.targetUserCode
              Client.userCode } = q ∧ q.type = .privateChat ∧
          normalizeUserCode q.targetUserCode = .ok target ∧ q.userCode = message.userCode ∧
          q.messageID = message.messageID ∧ q.content = message.content ∧
          q.crypto = message.crypto := ⟨_, rfl, ht, hspelling, rfl, rfl, rfl, rfl⟩
      dsimp only at hx ⊢
      rw [hq] at hx ⊢
      have hnotlive : ∀ d, x ≠ (d, wireMessage tracking q) := by
        rintro d rfl
        rw [(wireMessage_fields tracking q).1, hqt] at hxt
        cases hxt
      cases privateRelay (h := h) env obj target tracking q hc htc hct with
      | echoFull hspace hdb hout => exact absurd hx (not_mem_sentBetween hout)
      | targetFull hspace htfull hdb out hout hsub =>
        rcases List.mem_cons.1 ((mem_sentBetween_iff hout).1 hx) with heq | hmem
        · exact absurd heq (hnotlive c)
        · rw [hqid] at hsub
          exact hsent hdb (hnotified hsub hmem)
      | unmarked hspace htspace hdb out hout herr =>
        rcases List.mem_cons.1 ((mem_sentBetween_iff hout).1 hx) with heq | hmem
        · exact absurd heq (hnotlive c)
        rcases List.mem_cons.1 hmem with heq | hmem
        · exact absurd heq (hnotlive t)
        · rw [herr x hmem] at hxt
          cases hxt
      | delivered hspace htspace l hmark hdb out hout hsub =>
        rcases List.mem_cons.1 ((mem_sentBetween_iff hout).1 hx) with heq | hmem
        · exact absurd heq (hnotlive c)
        rcases List.mem_cons.1 hmem with heq | hmem
        · exact absurd heq (hnotlive t)
        · rw [hqid] at hsub
          have hqident := identity_of_check (checkChatMessage_private (p := { q with isPrivate := true })
            hvalid hqt (by rw [hqid]; exact hid) (hqcode.trans hcode) hqto
            (by rw [hqcontent]; exact hcontent) (hqcrypto.trans hcrypto))
          exact hmarked hmark hqident hqid hdb (hnotified hsub hmem)

/-- The states a row can be in. -/
def DeliveryState (state : String) : Prop := state = "sent" ∨ state = "delivered"

/-- A row was stored before, in the same state or in an earlier one, or it is new. -/
def Advances (s : ChatStore) (row : ChatRow) : Prop :=
  (∃ base ∈ s.messages.rows, row.key = base.key ∧
    (row.deliveryState = base.deliveryState ∨ row.deliveryState = "delivered")) ∨
  ((∀ base ∈ s.messages.rows, base.key ≠ row.key) ∧ DeliveryState row.deliveryState)

theorem Marks.advances {s s' : ChatStore} (hmarks : Marks s s') {row : ChatRow}
    (hrow : row ∈ s'.messages.rows) : Advances s row := by
  obtain ⟨base, hbase, hfix, hstate⟩ := hmarks.back row hrow
  exact .inl ⟨base, hbase, ChatRow.fixed_key hfix, hstate⟩

/-- The row of an attempt starts in state `sent`. -/
theorem state_row (platform : Platform) (env : Env) {a : Attempt} (hv : a.Valid h) :
    (a.row platform env h).deliveryState = "sent" := by
  cases hv with
  | chat => rfl
  | @privateChat c obj target tracking message hc hobj hvalid htarget hne ht hid hcode hto hcontent
      hcrypto hstate =>
    change (if message.deliveryState = "" then "sent" else message.deliveryState) = "sent"
    rw [hstate]
    rfl

theorem Saved.advances {s s' : ChatStore} {new row : ChatRow} (hsaved : Saved s s' new)
    (hstate : new.deliveryState = "sent") (hrow : row ∈ s'.messages.rows) : Advances s row := by
  rcases hsaved.rows row hrow with hold | rfl
  · exact .inl ⟨row, hold, rfl, .inl rfl⟩
  · exact .inr ⟨hsaved.fresh, .inl hstate⟩

theorem advances_outcome {platform : Platform} {env : Env} (hs : Sound h.registry)
    (hstore : h.offlineStore = true) {a : Attempt} (hv : a.Valid h)
    (ho : Outcome platform env h a k) {row : ChatRow} (hrow : row ∈ k.db.chat.messages.rows) :
    Advances h.db.chat row := by
  have hsame : ∀ {s : ChatStore}, k.db.chat = s → row ∈ s.messages.rows := by
    intro s hs
    rwa [hs] at hrow
  cases ho with
  | unstored hopen =>
    rw [hstore] at hopen
    cases hopen
  | refused _ hk => exact .inl ⟨row, hsame (hk.same .chat (by decide)), rfl, .inl rfl⟩
  | retried _ stored hstored hkey hk =>
    refine .inl ⟨row, ?_, rfl, .inl rfl⟩
    rwa [hk, chat_answerRetry] at hrow
  | unpruned _ hfails hprune s hsender hsaved hk =>
    exact hsaved.advances (state_row platform env hv) (hsame (hk.same .chat (by decide)))
  | relayed _ hfails hprune s hsender hsaved hk =>
    have hmarks := marks_relay platform (h := h.withChat s) hs env (hv.congr rfl)
    rw [hk] at hrow
    obtain ⟨mid, hmid, hfix, hstate⟩ := hmarks.back row hrow
    have hkey := ChatRow.fixed_key hfix
    rcases hsaved.advances (state_row platform env hv) hmid with
      ⟨base, hbase, hbkey, hbstate⟩ | ⟨hfresh, hmstate⟩
    · refine .inl ⟨base, hbase, hkey.trans hbkey, ?_⟩
      rcases hstate with hstate | hstate
      · rw [hstate]
        exact hbstate
      · exact .inr hstate
    · refine .inr ⟨fun b hb => by rw [hkey]; exact hfresh b hb, ?_⟩
      rcases hstate with hstate | hstate
      · rw [hstate]
        exact hmstate
      · exact .inr hstate

theorem advances_step (platform : Platform) (hs : Sound h.registry) (hstore : h.offlineStore = true)
    (e : Event) {row : ChatRow} (hrow : row ∈ (step platform h e).db.chat.messages.rows) :
    Advances h.db.chat row := by
  rcases step_outcome platform hs e with ⟨-, hquiet⟩ | ⟨a, n, ha, hv, ho⟩
  · obtain ⟨base, hbase, hfix, hstate⟩ := hquiet.rows row hrow
    exact .inl ⟨base, hbase, ChatRow.fixed_key hfix, .inl hstate⟩
  · exact advances_outcome (h := h.counted n) hs hstore (hv.congr rfl) ho hrow

/-- Every receipt is for the attempt of its event and carries the stored state. -/
theorem receipt_step (platform : Platform) (hs : Sound h.registry) (hstore : h.offlineStore = true)
    (e : Event) {x : ClientID × Message} (hx : x ∈ sentBetween h (step platform h e))
    (hxt : x.2.type = .deliveryReceipt) :
    ∃ a, attempt? platform h e = some a ∧
      ∃ row ∈ (step platform h e).db.chat.messages.rows, row.key = a.key h ∧
        x.2 = receipt a.message.messageID row.deliveryState := by
  have herror : ∀ {k l : Hub}, Touches [] [.error] k l → x ∈ sentBetween k l → False := by
    intro k l htouch hmem
    have htype := List.mem_singleton.1 (mem_sentBetween htouch.moves.emits hmem)
    rw [hxt] at htype
    cases htype
  rcases step_outcome platform hs e with ⟨-, hquiet⟩ | ⟨a, n, ha, hv, ho⟩
  · exfalso
    exact mem_sentBetween hquiet.sent hx (by rw [hxt]; decide)
  refine ⟨a, ha, ?_⟩
  have hv' : a.Valid (h.counted n) := hv.congr rfl
  cases ho with
  | unstored hopen =>
    rw [show (h.counted n).offlineStore = true from hstore] at hopen
    cases hopen
  | refused _ hk => exact (herror hk hx).elim
  | unpruned _ hfails hprune s hsender hsaved hk => exact (herror hk hx).elim
  | retried _ row hrow hkey hk =>
    rw [hk] at hx ⊢
    rcases sent_answerRetry (h := h.counted n) hx with
      hbad | ⟨htracking, hsender, stored, hstored, hreceipt⟩
    · rw [hbad] at hxt
      cases hxt
    have hident := identity_of_check (checkChatMessage_stored platform e.env (h := h.counted n) hs hv'
      (by rw [hsender]; simp))
    obtain ⟨hmem, -, hskey⟩ := getStoredMessageForMessage_ok hident hstored
    have hid : (a.stored platform e.env (h.counted n)).messageID = a.message.messageID := by
      cases a <;> rfl
    rw [hid] at hreceipt hskey
    refine ⟨stored, ?_, hskey, hreceipt⟩
    rw [chat_answerRetry]
    exact hmem
  | relayed _ hfails hprune s hsender hsaved hk =>
    rw [hk] at hx ⊢
    exact receipt_relay platform (h := (h.counted n).withChat s) hs hstore e.env (hv.congr rfl)
      hsender hsaved.mem key_row rfl (state_row platform e.env hv') hx hxt

/-! ### Runs -/

/-- A row is stored under the key. -/
def Stored (h : Hub) (key : MessageKey) : Prop :=
  ∃ row ∈ h.db.chat.messages.rows, row.key = key

instance (h : Hub) (key : MessageKey) : Decidable (h.Stored key) :=
  inferInstanceAs (Decidable (∃ row ∈ h.db.chat.messages.rows, row.key = key))

/-- Nobody has more than one copy, and nobody has one before the row is there. -/
structure Single (key : MessageKey) (h : Hub) : Prop where
  one : ∀ d, burden key d h ≤ 1
  none : ¬ h.Stored key → ∀ d, burden key d h = 0

theorem single_start (adminCode : String) (offlineStore : Bool) :
    Single key (start adminCode offlineStore) :=
  ⟨fun _ => Nat.zero_le _, fun _ _ => rfl⟩

theorem Single.of_le (hi : Single key h) (hkept : h.Stored key → k.Stored key)
    (hle : ∀ d, burden key d k ≤ burden key d h) : Single key k := by
  constructor
  · intro d
    exact (hle d).trans (hi.one d)
  · intro hfree d
    exact Nat.le_zero.1 ((hle d).trans_eq (hi.none (fun hstored => hfree (hkept hstored)) d))

/-- Every event leaves all burdens, or it makes an attempt whose row is new, and adds copies of it. -/
theorem burden_step (platform : Platform) (hs : Sound h.registry) (hd : Distinct h.registry)
    (hstore : h.offlineStore = true) (e : Event) :
    (∀ key d, burden key d (step platform h e) ≤ burden key d h) ∨
      ∃ a, attempt? platform h e = some a ∧ a.Valid h ∧ Adds (a.key h) h (step platform h e) ∧
        (∀ row ∈ h.db.chat.messages.rows, row.key ≠ a.key h) ∧
        ∃ row ∈ (step platform h e).db.chat.messages.rows, row.key = a.key h := by
  rcases step_outcome platform hs e with ⟨-, hquiet⟩ | ⟨a, n, ha, hv, ho⟩
  · refine .inl fun key d => ?_
    by_cases hreplay : ∃ c, e.input = .replay c
    · obtain ⟨c, hinput⟩ := hreplay
      simp only [step, hinput]
      split
      · exact burden_replay hs e.env c
      · exact Nat.le_refl _
    · exact burden_unpublished platform hs e hquiet fun c hc => hreplay ⟨c, hc⟩
  rcases burden_outcome (h := h.counted n) hs hd hstore (hv.congr rfl) ho with hle | hnew
  · exact .inl hle
  · have hkey : a.key (h.counted n) = a.key h := by cases a <;> rfl
    rw [hkey] at hnew
    exact .inr ⟨a, ha, hv, ⟨hnew.1.other, hnew.1.one⟩, hnew.2⟩

theorem single_step (platform : Platform) (hs : Sound h.registry) (hd : Distinct h.registry)
    (hstore : h.offlineStore = true) (e : Event) (hi : Single key h)
    (hkept : h.Stored key → (step platform h e).Stored key) : Single key (step platform h e) := by
  rcases burden_step platform hs hd hstore e with hle | ⟨a, -, -, hadds, hfresh, hnew⟩
  · exact hi.of_le hkept fun d => hle key d
  by_cases hkey : key = a.key h
  · have hfree : ¬ h.Stored key := by
      rintro ⟨row, hrow, hk⟩
      exact hfresh row hrow (hk.trans hkey)
    constructor
    · intro d
      have hzero := hi.none hfree d
      have hone : burden key d (step platform h e) ≤ burden key d h + 1 := by
        rw [hkey]
        exact hadds.one d
      omega
    · intro hnone
      obtain ⟨row, hrow, hk⟩ := hnew
      exact absurd ⟨row, hrow, hk.trans hkey.symm⟩ hnone
  · exact hi.of_le hkept fun d => hadds.other key hkey d

namespace Trace

variable {r : Trace} {n : ℕ}

/-- The row under the key, once stored, stays. -/
def Unpruned (r : Trace) (key : MessageKey) : Prop :=
  ∀ n < r.events.length, (r.hub n).Stored key → (r.hub (n + 1)).Stored key

/-- The message under the key goes out once, however often it is sent. -/
structure Idempotent (r : Trace) (key : MessageKey) : Prop where
  /-- No connection is sent a second copy. -/
  once : ∀ n ≤ r.events.length, ∀ d, copies key d (r.hub n).registry.sent ≤ 1
  /-- A receipt is for the attempt of its event, and carries the state that is then stored. -/
  receipts : ∀ n (hn : n < r.events.length) d x,
    (d, x) ∈ sentBetween (r.hub n) (r.hub (n + 1)) → x.type = .deliveryReceipt →
    ∃ a, attempt? r.platform (r.hub n) r.events[n] = some a ∧
      x.messageID = a.message.messageID ∧
      (a.key (r.hub n) = key → ∃ row ∈ (r.hub (n + 1)).db.chat.messages.rows, row.key = key ∧
        x = receipt row.messageID row.deliveryState)
  /-- The stored state stays, or moves from `sent` to `delivered`. -/
  states : ∀ n < r.events.length, ∀ row ∈ (r.hub n).db.chat.messages.rows,
    ∀ row' ∈ (r.hub (n + 1)).db.chat.messages.rows, row.key = key → row'.key = key →
    row'.deliveryState = row.deliveryState ∨
      (row.deliveryState = "sent" ∧ row'.deliveryState = "delivered")

theorem offlineStore_hub (hstore : r.offlineStore = true) (n : ℕ) :
    (r.hub n).offlineStore = true :=
  (offlineStore_run r.platform r.adminCode r.offlineStore _).trans hstore

theorem single_hub (hstore : r.offlineStore = true) {key : MessageKey} (hkept : r.Unpruned key)
    (hn : n ≤ r.events.length) : Single key (r.hub n) := by
  induction n with
  | zero => exact single_start r.adminCode r.offlineStore
  | succ n ih =>
    have hlt : n < r.events.length := hn
    have hstay := hkept n hlt
    rw [hub_succ hlt] at hstay ⊢
    exact single_step r.platform (sound_hub n) (distinct_run _ _ _ _) (offlineStore_hub hstore n)
      r.events[n] (ih hlt.le) hstay

theorem deliveryState_hub (hstore : r.offlineStore = true) (hn : n ≤ r.events.length) :
    ∀ row ∈ (r.hub n).db.chat.messages.rows, DeliveryState row.deliveryState := by
  induction n with
  | zero =>
    intro row hrow
    cases hrow
  | succ n ih =>
    intro row hrow
    have hlt : n < r.events.length := hn
    rw [hub_succ hlt] at hrow
    rcases advances_step r.platform (sound_hub n) (offlineStore_hub hstore n) _ hrow with
      ⟨base, hbase, -, hsame | hdelivered⟩ | ⟨-, hstate⟩
    · rw [hsame]
      exact ih hlt.le base hbase
    · exact .inr hdelivered
    · exact hstate

/-- A message whose row stays goes out at most once to each connection, across retries, restarts
and changes of presence, and its receipts follow its stored state. -/
theorem retry_idempotent (r : Trace) (hstore : r.offlineStore = true) (key : MessageKey)
    (hkept : r.Unpruned key) : r.Idempotent key := by
  constructor
  · intro n hn d
    have hone := (single_hub hstore hkept hn).one d
    unfold burden at hone
    omega
  · intro n hn d x hx hxt
    rw [hub_succ hn] at hx ⊢
    obtain ⟨a, ha, row, hrow, hkey, hreceipt⟩ := receipt_step r.platform (sound_hub n)
      (offlineStore_hub hstore n) _ hx hxt
    have hx2 : x = receipt a.message.messageID row.deliveryState := hreceipt
    refine ⟨a, ha, by rw [hx2]; rfl, fun hsame => ⟨row, hrow, hkey.trans hsame, ?_⟩⟩
    rw [hx2, (key_eq_iff.1 hkey).2.2]
  · intro n hn row hrow row' hrow' hkey hkey'
    rw [hub_succ hn] at hrow'
    rcases advances_step r.platform (sound_hub n) (offlineStore_hub hstore n) _ hrow' with
      ⟨base, hbase, hbkey, hstate⟩ | ⟨hfresh, -⟩
    · -- the table has one row under the key
      have hsame : base = row := Table.eq_of_clash _ hbase hrow
        (Table.keyClash_of_eq _ (hbkey.symm.trans (hkey'.trans hkey.symm)))
      rw [hsame] at hstate
      rcases hstate with hstate | hstate
      · exact .inl hstate
      rcases deliveryState_hub hstore hn.le row hrow with hsent | hdelivered
      · exact .inr ⟨hsent, hstate⟩
      · exact .inl (hstate.trans hdelivered.symm)
    · exact absurd (hkey.trans hkey'.symm) (hfresh row hrow)

/-- Alice writes to Bob, who is away; the server restarts, Alice sends her message again and Bob
logs in. -/
def retriedAfterRestart : Trace where
  platform := samplePlatform
  adminCode := ""
  offlineStore := true
  events := [⟨.login "Bob" "bob", {}⟩, ⟨.unregister 0, {}⟩] ++ sessionEvents 1 "Alice" "alice" ++
    [frameEvent 1 (noteTo "bob"), ⟨.restart "", {}⟩] ++ sessionEvents 2 "Alice" "alice" ++
    [frameEvent 2 (noteTo "bob")] ++ sessionEvents 3 "Bob" "bob"

/-- Alice gets the receipt of the stored message, and Bob gets one copy. -/
theorem retry_idempotent_retriedAfterRestart :
    (2, receipt "m1" "sent") ∈
        sentBetween (retriedAfterRestart.hub 10) (retriedAfterRestart.hub 11) ∧
      copies ("alice", "alice:bob", "m1") 3 (retriedAfterRestart.hub 14).registry.sent = 1 ∧
      retriedAfterRestart.Idempotent ("alice", "alice:bob", "m1") := by
  have hkept : ∀ n < 14, (retriedAfterRestart.hub n).Stored ("alice", "alice:bob", "m1") →
      (retriedAfterRestart.hub (n + 1)).Stored ("alice", "alice:bob", "m1") := by decide +kernel
  exact ⟨by decide +kernel, by decide +kernel, retry_idempotent _ rfl _ hkept⟩

end Trace

end Hub

end LanChat
