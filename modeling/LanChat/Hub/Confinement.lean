import LanChat.Hub.Consistent
import LanChat.Hub.Places
import LanChat.Hub.Publication

/-!
# Where a chat goes, whoever still sends it

The read pump of a connection that was kicked, taken over or dropped goes on until its socket is
closed, and the Hub looks the sender up by its code.  So a chat is a message with a user code and
nothing more, and it belongs to whichever session is active under that code when the Hub gets to it.

* `distinct_run`: member lists have no duplicates in any reachable state, not even those that hold a
  client that is gone;
* `chat_confined`: a chat goes, at most once each, to connected clients in the room of that session,
  and is stored under that room; without such a session nothing happens.
-/

namespace LanChat

namespace Registry

variable {r r' : Registry} {walks : Prop} {types : List MessageType}

/-! ### Member lists -/

/-- No member list has a duplicate. -/
def Distinct (r : Registry) : Prop := ∀ room, (r.members room).Nodup

theorem Distinct.of_sub (hd : Distinct r)
    (h : ∀ room, (r'.members room).Sublist (r.members room)) : Distinct r' :=
  fun room => (h room).nodup (hd room)

theorem Distinct.removeFromRoom (hd : Distinct r) (c : ClientID) :
    Distinct (r.removeFromRoom c) := by
  cases hc : r.client? c with
  | none =>
    unfold Registry.removeFromRoom
    rw [hc]
    exact hd
  | some obj =>
    by_cases hroom : obj.room = ""
    · simp only [Registry.removeFromRoom, hc, if_pos hroom]
      exact hd
    · intro x
      rw [members_removeFromRoom hc hroom]
      split_ifs
      · exact (hd x).filter _
      · exact hd x

theorem Distinct.removeClient (hd : Distinct r) (c : ClientID) : Distinct (r.removeClient c) := by
  unfold Registry.removeClient
  split
  · exact hd
  · rename_i obj _
    have hleft : Distinct (({ r with clients := r.clients.filter (· ≠ c) } :
        Registry).removeFromRoom c) :=
      Distinct.removeFromRoom (r := { r with clients := r.clients.filter (· ≠ c) }) hd c
    intro room
    rw [members_releaseCode]
    exact hleft room

theorem Distinct.addToRoom (hd : Distinct r) (c : ClientID) (room : String) :
    Distinct (r.addToRoom c room) := by
  intro x
  rw [members_addToRoom]
  split_ifs
  · exact (hd room).insert
  · exact hd x

theorem Move.distinct (h : Move walks types r r') (hd : Distinct r) : Distinct r' := by
  cases h with
  | deliver c m hm =>
    unfold Registry.deliver
    split_ifs
    · exact hd
    · exact hd.removeClient c
    · exact hd
  | remove c => exact hd.removeClient c
  | close c => exact hd
  | go c room hw hc hroom => exact Distinct.addToRoom (hd.removeFromRoom c) c room
  | mute c => exact hd
  | pump c => exact hd
  | enroll obj =>
    intro room
    rw [members_enroll]
    split_ifs
    · exact (hd obj.room).insert
    · exact hd room
  | dropRoom room hempty =>
    refine hd.of_sub fun x => ?_
    unfold members
    by_cases hx : x = room
    · subst hx
      rw [AList.lookup_erase]
      exact List.nil_sublist _
    · rw [AList.lookup_erase_ne hx]
  | load c stage replay => exact hd
  | push c obj message rest hc hobj hm => exact hd

end Registry

namespace Hub

open GoStrings Registry ChatStore

variable {h k : Hub}

theorem distinct_step (platform : Platform) (h : Hub) (e : Event)
    (hi : Sound h.registry ∧ Distinct h.registry) :
    Sound (step platform h e).registry ∧ Distinct (step platform h e).registry := by
  refine ⟨sound_step platform h e hi.1, ?_⟩
  cases hlive : e.input.isRestart with
  | false =>
    exact (step_touches platform hi.1 e hlive).moves.preserves
      (fun _ _ hmove hd => hmove.distinct hd) hi.2
  | true =>
    obtain ⟨input, env⟩ := e
    cases input with
    | restart adminCode => exact fun room => List.nodup_nil
    | _ => cases hlive

/-- In every run the member lists have no duplicates. -/
theorem distinct_start (adminCode : String) (offlineStore : Bool) :
    Distinct (start adminCode offlineStore).registry := fun _ => List.nodup_nil

theorem distinct_run (platform : Platform) (adminCode : String) (offlineStore : Bool)
    (es : List Event) : Distinct (after platform adminCode offlineStore es).registry :=
  (EventMachine.run_invariant (step platform) (distinct_step platform)
    ⟨sound_start adminCode offlineStore, distinct_start adminCode offlineStore⟩ es).2

theorem offlineStore_step (platform : Platform) (hs : Sound h.registry) (e : Event) :
    (step platform h e).offlineStore = h.offlineStore := by
  cases hlive : e.input.isRestart with
  | false =>
    refine ((step_touches platform hs e hlive).same .config ?_).2
    cases hinput : e.input with
    | restart adminCode =>
      rw [hinput] at hlive
      cases hlive
    | frame c m limited muted =>
      change Part.config ∉ frameParts m.type
      cases m.type <;> simp [frameParts, chatParts]
    | _ => simp [Input.writes]
  | true =>
    obtain ⟨input, env⟩ := e
    cases input with
    | restart adminCode => rfl
    | _ => cases hlive

/-- In every run the Hub has its store or not as it was started. -/
theorem offlineStore_run (platform : Platform) (adminCode : String) (offlineStore : Bool)
    (es : List Event) : (after platform adminCode offlineStore es).offlineStore = offlineStore := by
  have hinv := EventMachine.run_invariant (step platform)
    (I := fun h => Sound h.registry ∧ h.offlineStore = offlineStore)
    (fun h e hi => ⟨sound_step platform h e hi.1, (offlineStore_step platform hi.1 e).trans hi.2⟩)
    (s := start adminCode offlineStore) ⟨sound_start adminCode offlineStore, rfl⟩ es
  exact hinv.2

/-! ### Once each -/

/-- The chats among messages that went to a client. -/
def chatsTo (d : ClientID) (l : List (ClientID × Message)) : List (ClientID × Message) :=
  l.filter fun x => x.1 == d && x.2.type == .chat

/-- Deliveries to several clients log each of them at most once, in order. -/
theorem sent_deliverToPeers (sender : Option ClientID) (m : Message) (l : List ClientID)
    (r : Registry) : ∃ out, (deliverToPeers r sender m l).1.sent = r.sent ++ out ∧
      (out.map Prod.fst).Sublist l := by
  induction l generalizing r with
  | nil => exact ⟨[], by simp [deliverToPeers], List.Sublist.refl _⟩
  | cons c l ih =>
    obtain ⟨out, hout, hsub⟩ := ih (r.deliver c m).1
    have hfirst : (r.deliver c m).1.sent = r.sent ++ [(c, m)] ∨
        (r.deliver c m).1.sent = r.sent := by
      unfold Registry.deliver
      split_ifs
      · exact .inl rfl
      · exact .inr (sent_removeClient c)
      · exact .inr rfl
    rcases hfirst with hfirst | hfirst
    · refine ⟨(c, m) :: out, ?_, hsub.cons_cons c⟩
      change (deliverToPeers (r.deliver c m).1 sender m l).1.sent = _
      rw [hout, hfirst, List.append_assoc]
      rfl
    · refine ⟨out, ?_, hsub.cons c⟩
      change (deliverToPeers (r.deliver c m).1 sender m l).1.sent = _
      rw [hout, hfirst]

/-- A list of deliveries to different clients has at most one chat for each. -/
theorem length_chatsTo {out : List (ClientID × Message)} (hnodup : (out.map Prod.fst).Nodup)
    (d : ClientID) : (chatsTo d out).length ≤ 1 := by
  have hcount : (chatsTo d out).length ≤ (out.map Prod.fst).count d := by
    rw [List.count, List.countP_map, List.countP_eq_length_filter]
    unfold chatsTo
    refine (List.monotone_filter_right out ?_).length_le
    intro x hx
    simp only [Bool.and_eq_true] at hx
    exact hx.1
  exact hcount.trans (List.nodup_iff_count_le_one.1 hnodup d)

/-- Between two states each client gets at most one chat. -/
def Once (r r' : Registry) : Prop :=
  ∃ out, r'.sent = r.sent ++ out ∧ ∀ d, (chatsTo d out).length ≤ 1

theorem Once.refl (r : Registry) : Once r r := ⟨[], by simp, fun _ => Nat.zero_le _⟩

/-- Messages of other types do not count. -/
theorem Once.then_quiet {r r' r'' : Registry} {types : List MessageType} (ho : Once r r')
    (hm : Emits (fun x => x.2.type ∈ types) r' r'') (hchat : .chat ∉ types) : Once r r'' := by
  obtain ⟨out, hout, hone⟩ := ho
  obtain ⟨l, hl, htypes⟩ := hm
  have hnone : ∀ d, chatsTo d l = [] := by
    intro d
    unfold chatsTo
    rw [List.filter_eq_nil_iff]
    intro x hx hmatch
    simp only [Bool.and_eq_true, beq_iff_eq] at hmatch
    exact hchat (hmatch.2 ▸ htypes x hx)
  refine ⟨out ++ l, by rw [hl, hout, List.append_assoc], fun d => ?_⟩
  have hsplit : chatsTo d (out ++ l) = chatsTo d out ++ chatsTo d l := List.filter_append ..
  rw [hsplit, hnone, List.append_nil]
  exact hone d

theorem Once.sentBetween (ho : Once h.registry k.registry) (d : ClientID) :
    (chatsTo d (sentBetween h k)).length ≤ 1 := by
  obtain ⟨out, hout, hone⟩ := ho
  unfold Hub.sentBetween
  rw [hout, List.drop_left]
  exact hone d

theorem once_of_types {types : List MessageType} (hm : Moves False types h.registry k.registry)
    (hchat : .chat ∉ types) : Once h.registry k.registry :=
  (Once.refl _).then_quiet hm.emits hchat

theorem once_relayChat (hd : Distinct h.registry) (env : Env) (sender : Option ClientID)
    {room : String} (hroom : room ≠ "") (tracking : Bool) (message : Message) :
    Once h.registry (h.relayChat env sender room tracking message).registry := by
  have hpeers : Once h.registry (deliverToPeers h.registry sender (wireMessage tracking message)
      (env.visit (h.registry.roomClients room))).1 := by
    obtain ⟨out, hout, hsub⟩ := sent_deliverToPeers sender (wireMessage tracking message)
      (env.visit (h.registry.roomClients room)) h.registry
    refine ⟨out, hout, fun d => length_chatsTo (hsub.nodup (nodup_visit ?_)) d⟩
    unfold roomClients
    rw [if_neg hroom]
    exact hd room
  unfold relayChat
  dsimp only
  rw [registry_recordMessage]
  generalize deliverToPeers _ _ _ _ = delivered at hpeers ⊢
  have htold : ∀ {k l : Hub} {types : List MessageType}, k.registry = delivered.1 →
      Touches [] types k l → .chat ∉ types → Once h.registry l.registry := by
    intro k l types hk htouch hchat
    refine hpeers.then_quiet ?_ hchat
    rw [← hk]
    exact htouch.moves.emits
  split
  · exact hpeers
  split
  · exact hpeers
  split
  · exact htold rfl (touches_tell (t := .deliveryReceipt) rfl List.mem_cons_self)
      (by decide : MessageType.chat ∉ [.deliveryReceipt])
  split
  · exact htold rfl (touches_deliverError List.mem_cons_self _ _ _ _)
      (by decide : MessageType.chat ∉ [.error])
  · rename_i k hmark
    have hkept : k.registry = delivered.1 := registry_markDelivered hmark
    exact htold hkept (touches_tell (t := .deliveryReceipt) rfl List.mem_cons_self)
      (by decide : MessageType.chat ∉ [.deliveryReceipt])

theorem once_answerRetry (env : Env) (sender : Option ClientID) (tracking : Bool)
    (message : Message) :
    Once h.registry (h.answerRetry env sender tracking message).registry := by
  unfold answerRetry
  split
  · exact Once.refl _
  split
  · exact Once.refl _
  split
  · exact once_of_types (moves_deliverError List.mem_cons_self _ _ _ _)
      (by decide : MessageType.chat ∉ [.error])
  · exact once_of_types (moves_tell List.mem_cons_self)
      (by decide : MessageType.chat ∉ [.deliveryReceipt])

theorem once_publishChat (platform : Platform) (hd : Distinct h.registry) (env : Env)
    (tracking : Bool) {message : Message}
    (hroom : h.senderRoom (h.senderOf message.userCode) ≠ "") :
    Once h.registry (h.publishChat platform env tracking message).registry := by
  unfold publishChat
  dsimp only
  split
  · exact once_relayChat hd env _ hroom tracking _
  split
  · rename_i k hsave
    rw [← registry_saveChatMessage hsave]
    split
    · exact once_of_types (moves_deliverError List.mem_cons_self _ _ _ _)
        (by decide : MessageType.chat ∉ [.error])
    · exact Once.refl _
  · rename_i k hsave
    rw [← registry_saveChatMessage hsave]
    exact once_answerRetry env _ tracking _
  · rename_i k hsave
    have hreg := registry_saveChatMessage hsave
    rw [← hreg]
    exact once_relayChat (by rw [hreg]; exact hd) env _ hroom tracking _

/-! ### The sender's session -/

@[simp] theorem senderOf_assignMessageID (messageID userCode : String) :
    (h.assignMessageID messageID).2.senderOf userCode = h.senderOf userCode := by
  simp only [senderOf, registry_assignMessageID]

@[simp] theorem senderRoom_assignMessageID (messageID : String) (sender : Option ClientID) :
    (h.assignMessageID messageID).2.senderRoom sender = h.senderRoom sender := by
  simp only [senderRoom, registry_assignMessageID]

@[simp] theorem offlineStore_assignMessageID (messageID : String) :
    (h.assignMessageID messageID).2.offlineStore = h.offlineStore := by
  unfold assignMessageID
  split <;> rfl

/-- A chat under a code that no session holds changes nothing. -/
theorem publishChat_of_inactive (platform : Platform) (env : Env) (tracking : Bool)
    {message : Message} {code : String} (ht : message.type = .chat)
    (hcode : normalizeUserCode message.userCode = .ok code)
    (hinactive : h.registry.active? code = none) (hstore : h.offlineStore = true) :
    h.publishChat platform env tracking message = h := by
  have hsender : h.senderOf message.userCode = none := by
    unfold senderOf
    rw [hcode]
    exact hinactive
  have hlower : h.registry.active? (asciiLower message.userCode) = none := by
    rw [← (normalizeUserCode_eq_ok.1 hcode).2]
    exact hinactive
  unfold publishChat
  rw [hsender, hstore]
  obtain ⟨e, hsave⟩ : ∃ e, h.saveChatMessage env { message with
      room := h.senderRoom none, createdAt := platform.rfc3339 env.now, deliveryState := "sent" } =
      (.error e, h) := saveChatMessage_of_no_room ht rfl
  simp only [Bool.not_true, Bool.false_eq_true, if_false]
  rw [hsave]
  dsimp only
  rw [hlower]

/-- A new row of the chat is in the sender's room. -/
theorem room_of_new_row (platform : Platform) (env : Env) {message : Message}
    (ht : message.type = .chat) {row : ChatRow}
    (hrow : row ∈ (h.broadcastMessage platform env message).db.chat.messages.rows) :
    (∃ base ∈ h.db.chat.messages.rows, base.id = row.id) ∨
      row.room = h.senderRoom (h.senderOf message.userCode) := by
  have hgrow : Grows (ChatOf h message.userCode) (fun _ => True) h.db.chat
      (h.broadcastMessage platform env message).db.chat := grows_broadcastMessage platform env ht
  obtain ⟨base, hbase, hfix, -⟩ := hgrow.origin row hrow
  rcases hbase with hbase | ⟨p, i, hpost, -, heq, -⟩
  · exact .inl ⟨base, hbase, (ChatRow.fixed_id hfix).symm⟩
  · right
    have hroom : row.room = base.room := by simpa [ChatRow.fixed] using congrArg ChatRow.room hfix
    rw [hroom, heq]
    exact hpost.2.2

/-- With a store, a chat under a valid code goes at most once each to connected clients in the room
of the session that is active under the code, and its row is in that room; without such a session
nothing is stored and nothing is sent. -/
theorem chat_confined (platform : Platform) (adminCode : String) (events : List Event) (env : Env)
    (message : Message) (ht : message.type = .chat) {code : String}
    (hcode : normalizeUserCode message.userCode = .ok code) :
    let h := after platform adminCode true events
    let k := h.broadcastMessage platform env message
    match h.registry.active? code with
    | none => k.db = h.db ∧ sentBetween h k = []
    | some c => ∃ obj, h.registry.client? c = some obj ∧
        (∀ d x, (d, x) ∈ sentBetween h k → x.type = .chat →
          d ∈ h.registry.clients ∧ ∃ o, h.registry.client? d = some o ∧ o.room = obj.room) ∧
        (∀ d, (chatsTo d (sentBetween h k)).length ≤ 1) ∧
        ∀ row ∈ k.db.chat.messages.rows,
          (∃ base ∈ h.db.chat.messages.rows, base.id = row.id) ∨ row.room = obj.room := by
  intro h k
  have hs : Sound h.registry := sound_run platform adminCode true events
  have hd : Distinct h.registry := distinct_run platform adminCode true events
  have hstore : h.offlineStore = true := offlineStore_run platform adminCode true events
  have hk : k = (h.assignMessageID message.messageID).2.publishChat platform env
      (deliveryTracking message.messageID)
      { message with messageID := (h.assignMessageID message.messageID).1 } := rfl
  split
  · rename_i hinactive
    have hquiet : k = (h.assignMessageID message.messageID).2 := by
      rw [hk]
      exact publishChat_of_inactive platform env _ ht hcode
        (by rw [registry_assignMessageID]; exact hinactive)
        (by rw [offlineStore_assignMessageID]; exact hstore)
    constructor
    · rw [hquiet]
      unfold assignMessageID
      split <;> rfl
    · unfold sentBetween
      rw [hquiet, registry_assignMessageID, List.drop_length]
  · rename_i c hactive
    obtain ⟨hc, obj, hobj, -⟩ := hs.active code c hactive
    have hsender : h.senderOf message.userCode = some c := by
      unfold senderOf
      rw [hcode]
      exact hactive
    have hroom : h.senderRoom (h.senderOf message.userCode) = obj.room := by
      unfold senderRoom
      rw [hsender, Option.bind_some, hobj]
    have hne : obj.room ≠ "" := room_ne_empty (hs.valid obj (client?_mem hobj)).room
    have hassigned : (h.assignMessageID message.messageID).2.senderRoom
        ((h.assignMessageID message.messageID).2.senderOf message.userCode) = obj.room := by
      rw [senderOf_assignMessageID, senderRoom_assignMessageID, hroom]
    refine ⟨obj, hobj, ?_, ?_, ?_⟩
    · intro d x hx hxt
      have hstay : ChatsStay obj.room h.registry k.registry := by
        have hpublish : ChatsStay _ (h.assignMessageID message.messageID).2.registry k.registry :=
          chatsStay_publishChat platform env _ (by rw [hassigned]; exact hne)
        rw [hassigned, registry_assignMessageID] at hpublish
        exact hpublish
      obtain ⟨hd, hmem⟩ := mem_sentBetween hstay hx hxt
      obtain ⟨o, ho, -, -⟩ := hs.online d hd
      exact ⟨hd, o, ho, hs.one_room d hd o ho _ hmem⟩
    · intro d
      refine Once.sentBetween ?_ d
      rw [hk, ← registry_assignMessageID (h := h) message.messageID]
      exact once_publishChat platform (by rw [registry_assignMessageID]; exact hd) env _
        (by rw [hassigned]; exact hne)
    · intro row hrow
      rw [← hroom]
      exact room_of_new_row platform env ht hrow

/-- Alice has left, with Bob in the lobby. -/
def aliceGone : List Event :=
  sessionEvents 0 "Alice" "alice" ++ sessionEvents 1 "Bob" "bob" ++ [⟨.unregister 0, {}⟩]

/-- A chat that Alice's read pump still hands in. -/
def lateChat : Message :=
  { type := .chat, username := "Alice", userCode := "alice", content := "x" }

/-- Bob gets nothing from Alice once she is gone. -/
theorem chat_confined_gone :
    let h := after samplePlatform "" true aliceGone
    let k := h.broadcastMessage samplePlatform {} lateChat
    h.registry.isConnected 1 = true ∧ k.db = h.db ∧ sentBetween h k = [] := by
  have hcode : normalizeUserCode lateChat.userCode = .ok "alice" := rfl
  have hgone : (after samplePlatform "" true aliceGone).registry.active? "alice" = none := by
    decide +kernel
  have hconfined := chat_confined samplePlatform "" aliceGone {} lateChat rfl hcode
  dsimp only at hconfined
  rw [hgone] at hconfined
  exact ⟨by decide +kernel, hconfined⟩

end Hub

end LanChat
