import LanChat.Hub.Retries

/-!
# What a sender can put into the copies of its chat (`server-go/client.go`, `server-go/hub.go`)

`readPump` writes the name and the code of the sender into a chat, `broadcastMessage` its room, its
time and its delivery state.  Everything else goes out as it came in.

* `Controlled`: the fields that a receiver takes from the server;
* `peers`: the other members of the room that get a copy;
* `toOthers_chat`: the copies that a chat leads to;
* `relayed_fields_agree_iff`: when two chats that differ in other fields only look the same.
-/

namespace LanChat

namespace Hub

open GoStrings Registry ChatStore EventMachine

variable {h k : Hub}

/-- The fields of a chat that a receiver takes from the server. -/
structure Controlled where
  username : String
  userCode : String
  room : String
  isPrivate : Bool
  isAdmin : Bool
  recalled : Bool
  targetUserCode : String
  deliveryState : String
  messages : List HistoryMessage
  deriving DecidableEq, Repr

/-- Those fields of a message. -/
def controlled (m : Message) : Controlled :=
  ⟨m.username, m.userCode, m.room, m.isPrivate, m.isAdmin, m.recalled, m.targetUserCode,
    m.deliveryState, m.messages⟩

/-- What the other clients see of what is sent between two states. -/
def toOthers (h k : Hub) (c : ClientID) : List (ClientID × Controlled) :=
  ((sentBetween h k).filter fun x => x.1 != c).map fun x => (x.1, controlled x.2)

/-- A chat that `readPump` takes from a registered client: the client reads, and the chat is valid;
neither the rate limiter nor a mute stops it. -/
structure TakesChat (h : Hub) (c : ClientID) (obj : Client) (m : Message) : Prop where
  client : h.registry.client? c = some obj
  connected : c ∈ h.registry.clients
  reading : obj.stage = .reading ∧ obj.replay = []
  chat : m.type = .chat
  valid : validateMessage m = .ok ()

/-- The chat as `broadcastMessage` gets it, with its id. -/
def signed (h : Hub) (obj : Client) (m : Message) : Message :=
  { m with
    username := obj.username
    userCode := obj.userCode
    messageID := (h.assignMessageID m.messageID).1 }

/-- The other members of a room that are connected and have a free place. -/
def peers (h : Hub) (env : Env) (c : ClientID) (room : String) : List ClientID :=
  (env.visit (h.registry.roomClients room)).filter fun d =>
    h.registry.isConnected d && h.registry.hasSpace d && d != c

/-! ### The frame -/

variable {c : ClientID} {obj : Client} {m m' : Message}

theorem TakesChat.command (ht : TakesChat h c obj m) :
    m.commandID.utf8ByteSize ≤ maxCommandIDSize := by
  have hvalid := ht.valid
  unfold validateMessage at hvalid
  by_contra hsize
  rw [if_pos (Nat.not_le.1 hsize)] at hvalid
  cases hvalid

theorem TakesChat.active (hs : Sound h.registry) (ht : TakesChat h c obj m) :
    h.registry.active? obj.normalizedCode = some c := by
  obtain ⟨o, ho, hactive, -⟩ := hs.online c ht.connected
  obtain rfl := Option.some_injective _ (ht.client.symm.trans ho)
  exact hactive

/-- The frame is published under its id. -/
theorem TakesChat.step_eq (platform : Platform) (env : Env) (hs : Sound h.registry)
    (ht : TakesChat h c obj m) : step platform h ⟨.frame c m false false, env⟩ =
      (h.assignMessageID m.messageID).2.publishChat platform env (deliveryTracking m.messageID)
        (h.signed obj m) := by
  have halive : h.alive c = true := by
    unfold alive
    simpa using ⟨hs.booted c ht.connected, client?_lt ht.client⟩
  have hopen : (!(h.alive c && obj.stage == .reading && obj.replay.isEmpty)) = false := by
    simp [halive, ht.reading.1, ht.reading.2]
  have hvalid : (validateMessage m).isOk = true := isOk_iff.2 ht.valid
  simp only [step, readPump, ht.client, hopen]
  rw [if_neg (by simp), if_neg (Nat.not_lt.2 ht.command), if_neg (by simp)]
  simp only [dispatch, validated, hvalid, broadcastMessage, signed, ht.chat]
  rfl

/-! ### Deliveries -/

theorem isConnected_deliver_of_ne {r : Registry} {d : ClientID} {p : Message} (hcd : c ≠ d) :
    (r.deliver c p).1.isConnected d = r.isConnected d := by
  rw [Bool.eq_iff_iff, isConnected_iff, isConnected_iff]
  refine ⟨fun hd => ?_, mem_clients_deliver_of_ne hcd⟩
  unfold Registry.deliver at hd
  split_ifs at hd
  · exact hd
  · change d ∈ (r.removeClient c).clients at hd
    cases hc : r.client? c with
    | none =>
      simp only [Registry.removeClient, hc] at hd
      exact hd
    | some obj =>
      rw [clients_removeClient hc] at hd
      exact List.mem_of_mem_filter hd
  · exact hd

/-- Every connected client of the list with a free place gets the message, in order. -/
theorem sent_deliverToPeers_eq (sender : Option ClientID) (p : Message) {l : List ClientID}
    (hl : l.Nodup) (r : Registry) : (deliverToPeers r sender p l).1.sent =
      r.sent ++ (l.filter fun d => r.isConnected d && r.hasSpace d).map fun d => (d, p) := by
  induction l generalizing r with
  | nil => simp [deliverToPeers]
  | cons d l ih =>
    obtain ⟨hd, hl⟩ := List.nodup_cons.1 hl
    have hrest : (l.filter fun x => (r.deliver d p).1.isConnected x && (r.deliver d p).1.hasSpace x) =
        l.filter fun x => r.isConnected x && r.hasSpace x := by
      refine List.filter_congr fun x hx => ?_
      have hne : d ≠ x := by
        rintro rfl
        exact hd hx
      rw [hasSpace_deliver_of_ne hne, isConnected_deliver_of_ne hne]
    change (deliverToPeers (r.deliver d p).1 sender p l).1.sent = _
    rw [ih hl, hrest]
    unfold Registry.deliver
    by_cases hconnected : r.isConnected d = true
    · by_cases hspace : r.hasSpace d = true
      · rw [if_pos hconnected, if_pos hspace, List.filter_cons_of_pos (by simp [hconnected, hspace]),
          List.map_cons]
        exact List.append_assoc _ _ _
      · rw [if_pos hconnected, if_neg hspace, List.filter_cons_of_neg (by simp [hspace])]
        exact congrArg (· ++ _) (sent_removeClient d)
    · rw [if_neg hconnected, List.filter_cons_of_neg (by simp [hconnected])]

/-- What follows the copies of a chat goes to its sender. -/
theorem sent_relayChat (env : Env) (sender : Option ClientID) (room : String) (tracking : Bool)
    (p : Message) : ∃ notices,
      (h.relayChat env sender room tracking p).registry.sent =
        (deliverToPeers h.registry sender (wireMessage tracking p)
          (env.visit (h.registry.roomClients room))).1.sent ++ notices ∧
      ∀ x ∈ notices, sender = some x.1 := by
  have htell : ∀ (r : Registry) (d : ClientID) (q : Message), sender = some d →
      ∃ notices, (r.tell d q).sent = r.sent ++ notices ∧ ∀ x ∈ notices, sender = some x.1 := by
    intro r d q hd
    obtain ⟨out, hout, hsub⟩ := sent_tell r d q
    refine ⟨out, hout, fun x hx => ?_⟩
    rw [List.mem_singleton.1 (hsub.subset hx)]
    exact hd
  unfold relayChat
  dsimp only
  rw [registry_recordMessage]
  split
  · exact ⟨[], (List.append_nil _).symm, by simp⟩
  rename_i d
  split
  · exact ⟨[], (List.append_nil _).symm, by simp⟩
  split
  · exact htell _ d _ rfl
  split
  · exact htell _ d _ rfl
  · rename_i hmark
    obtain ⟨notices, hsent, hto⟩ := htell
      (deliverToPeers h.registry (some d) (wireMessage tracking p)
        (env.visit (h.registry.roomClients room))).1 d (receipt p.messageID "delivered") rfl
    refine ⟨notices, ?_, hto⟩
    rw [← hsent]
    exact congrArg (fun r => (Registry.tell r d (receipt p.messageID "delivered")).sent)
      (registry_markDelivered hmark)

/-- What goes to the sender alone is not seen by the others. -/
theorem toOthers_of_sender {out : List (ClientID × Message)}
    (hsent : k.registry.sent = h.registry.sent ++ out) (hout : ∀ x ∈ out, x.1 = c) :
    toOthers h k c = [] := by
  have hnone : (out.filter fun x => x.1 != c) = [] := by
    rw [List.filter_eq_nil_iff]
    intro x hx
    simp [hout x hx]
  unfold toOthers sentBetween
  rw [hsent, List.drop_left, hnone]
  rfl

/-- The attempt of a chat. -/
def chatAttempt (h : Hub) (obj : Client) (m : Message) : Attempt :=
  .chat (deliveryTracking m.messageID) (h.signed obj m)

/-- The copies of a chat. -/
theorem toOthers_relayChat (hd : Distinct h.registry) (env : Env) {room : String} (hroom : room ≠ "")
    (tracking : Bool) (p : Message) :
    toOthers h (h.relayChat env (some c) room tracking p) c =
      (h.peers env c room).map fun d => (d, controlled (wireMessage tracking p)) := by
  obtain ⟨notices, hsent, hto⟩ := sent_relayChat (h := h) env (some c) room tracking p
  have hnodup : (env.visit (h.registry.roomClients room)).Nodup := by
    refine nodup_visit ?_
    rw [roomClients, if_neg hroom]
    exact hd room
  have hnone : (notices.filter fun x => x.1 != c) = [] := by
    rw [List.filter_eq_nil_iff]
    intro x hx
    simp [Option.some_injective _ (hto x hx)]
  unfold toOthers sentBetween
  rw [hsent, sent_deliverToPeers_eq _ _ hnodup, List.append_assoc, List.drop_left, List.filter_append,
    hnone, List.append_nil, List.filter_map, List.map_map]
  unfold peers
  rw [List.filter_filter]
  congr 1
  refine List.filter_congr fun d _ => ?_
  exact Bool.and_comm _ _

theorem toOthers_congr {l : Hub} (hreg : l.registry = h.registry) : toOthers l k c = toOthers h k c := by
  unfold toOthers sentBetween
  rw [hreg]

theorem toOthers_deliverError {l : Hub} (hreg : l.registry = h.registry) (content messageID : String) :
    toOthers h (l.deliverError c content messageID) c = [] := by
  obtain ⟨out, hsent, hsub⟩ := sent_tell l.registry c { type := .error, messageID, content }
  rw [← toOthers_congr hreg]
  refine toOthers_of_sender hsent fun x hx => ?_
  rw [List.mem_singleton.1 (hsub.subset hx)]

theorem toOthers_answerRetry (env : Env) (tracking : Bool) (p : Message) :
    toOthers h (h.answerRetry env (some c) tracking p) c = [] := by
  unfold answerRetry
  dsimp only
  split
  · exact toOthers_of_sender (List.append_nil _).symm (by simp)
  split
  · exact toOthers_deliverError rfl _ _
  · rename_i row _
    obtain ⟨out, hsent, hsub⟩ := sent_tell h.registry c (receipt p.messageID row.deliveryState)
    refine toOthers_of_sender hsent fun x hx => ?_
    rw [List.mem_singleton.1 (hsub.subset hx)]

/-- What the others see of a chat from a session: a copy each, when the store takes it as new. -/
theorem toOthers_publishChat (platform : Platform) (env : Env) (hs : Sound h.registry)
    (hd : Distinct h.registry) (hstore : h.offlineStore = true) (hc : c ∈ h.registry.clients)
    (hobj : h.registry.client? c = some obj) {tracking : Bool} {p : Message}
    (hv : (Attempt.chat tracking p).Valid h) (hcode : p.userCode = obj.userCode) :
    toOthers h (h.publishChat platform env tracking p) c =
      if h.isNew env (.chat tracking p) && !env.fails .pruneChatMessages then
        (h.peers env c obj.room).map fun d => (d, controlled (wireMessage tracking
          (storedChat platform env obj.room p)))
      else [] := by
  have hvalid := hs.valid obj (client?_mem hobj)
  obtain ⟨o, ho, hactive, -⟩ := hs.online c hc
  obtain rfl := Option.some_injective _ (hobj.symm.trans ho)
  have hsender : h.senderOf p.userCode = some c := senderOf_of_active (hcode ▸ hvalid.code) hactive
  have hroom : h.senderRoom (h.senderOf p.userCode) = obj.room := by
    rw [hcode]
    exact senderRoom_of_online hs hc hobj
  have hlower : h.registry.active? (asciiLower p.userCode) = some c := by
    rw [hcode, ← (normalizeUserCode_eq_ok.1 hvalid.code).2]
    exact hactive
  have hstored : Attempt.stored platform env h (.chat tracking p) =
      storedChat platform env (h.senderRoom (h.senderOf p.userCode)) p := rfl
  have hsave := saveChatMessage_outcome platform env hs hv
  rw [publishChat_stored platform env tracking p hstore hstored]
  rcases hsave with ⟨hwhy, x, hsave⟩ | ⟨⟨row, hrow, hkey⟩, hsave⟩ | ⟨hfails, -, s, hsaved, hsave⟩
  · have hfails : env.fails .saveChatMessage = true := by
      refine hwhy.resolve_right fun hnone => ?_
      cases hsender.symm.trans hnone
    rw [hsave, if_neg (by simp [isNew, hfails])]
    dsimp only
    rw [hlower]
    exact toOthers_deliverError rfl _ _
  · have hold : h.isNew env (.chat tracking p) = false := by
      have hany : (h.db.chat.messages.rows.any fun row =>
          row.key == (Attempt.chat tracking p).key h) = true :=
        List.any_eq_true.2 ⟨row, hrow, beq_iff_eq.2 hkey⟩
      unfold isNew
      rw [hany, Bool.not_true, Bool.and_false]
    rw [hsave, if_neg (by simp [hold])]
    dsimp only
    rw [hsender]
    exact toOthers_answerRetry env tracking _
  · have hnew := isNew_of_saved hstore hfails hsaved
    rcases hsave with ⟨hprune, x, hsave⟩ | ⟨hprune, hsave⟩
    · rw [hsave, if_neg (by simp [hprune])]
      dsimp only
      rw [hlower]
      exact toOthers_deliverError rfl _ _
    · rw [hsave, if_pos (by simp [hnew, hprune])]
      dsimp only
      rw [hstored, hroom, hsender]
      have hname : obj.room ≠ "" := room_ne_empty hvalid.room
      exact toOthers_relayChat (h := h.withChat s) hd env hname tracking _

/-- What the others see of a chat that `readPump` takes. -/
theorem toOthers_chat (platform : Platform) (env : Env) (hs : Sound h.registry)
    (hd : Distinct h.registry) (hstore : h.offlineStore = true) (ht : TakesChat h c obj m) :
    toOthers h (step platform h ⟨.frame c m false false, env⟩) c =
      if h.isNew env (h.chatAttempt obj m) && !env.fails .pruneChatMessages then
        (h.peers env c obj.room).map fun d => (d, controlled (wireMessage
          (deliveryTracking m.messageID) (storedChat platform env obj.room (h.signed obj m))))
      else [] := by
  have hobj := hs.valid obj (client?_mem ht.client)
  have hv : (h.chatAttempt obj m).Valid h :=
    .chat obj hobj ht.chat (assignMessageID_ne_empty _) rfl m ht.chat ht.valid rfl rfl
  have hreg : (h.assignMessageID m.messageID).2.registry = h.registry :=
    registry_assignMessageID m.messageID
  have hopen : (h.assignMessageID m.messageID).2.offlineStore = true := by
    rw [offlineStore_assignMessageID, hstore]
  have hnew : (h.assignMessageID m.messageID).2.isNew env (h.chatAttempt obj m) =
      h.isNew env (h.chatAttempt obj m) := by
    unfold isNew chatAttempt Attempt.key Attempt.identity
    simp only [offlineStore_assignMessageID, senderRoom_assignMessageID, chat_assignMessageID,
      senderOf_assignMessageID]
  have hpeers : (h.assignMessageID m.messageID).2.peers env c obj.room = h.peers env c obj.room := by
    unfold peers
    rw [hreg]
  rw [ht.step_eq platform env hs, ← hnew, ← hpeers, ← toOthers_congr hreg]
  exact toOthers_publishChat platform env (hreg ▸ hs) (hreg ▸ hd) hopen (hreg ▸ ht.connected)
    (hreg ▸ ht.client) (hv.congr hreg) rfl

/-! ### Two chats -/

/-- The chats agree on the controlled fields that go out as they came in. -/
structure AgreeOnRelayed (m m' : Message) : Prop where
  isPrivate : m.isPrivate = m'.isPrivate
  isAdmin : m.isAdmin = m'.isAdmin
  recalled : m.recalled = m'.recalled
  targetUserCode : m.targetUserCode = m'.targetUserCode
  messages : m.messages = m'.messages

/-- A chat of the client leads to a copy: the store takes it as new, and another connected member of
the room has a free place. -/
structure LeadsToCopy (h : Hub) (env : Env) (c : ClientID) (obj : Client) (m : Message) : Prop where
  isNew : h.isNew env (h.chatAttempt obj m) = true
  pruned : env.fails .pruneChatMessages = false
  peer : ∃ d ∈ h.registry.roomClients obj.room, d ∈ h.registry.clients ∧
    h.registry.hasSpace d = true ∧ d ≠ c

theorem peers_ne_nil_iff {env : Env} {room : String} : h.peers env c room ≠ [] ↔
    ∃ d ∈ h.registry.roomClients room, d ∈ h.registry.clients ∧ h.registry.hasSpace d = true ∧
      d ≠ c := by
  have hmem : ∀ d, d ∈ h.peers env c room ↔ d ∈ h.registry.roomClients room ∧
      d ∈ h.registry.clients ∧ h.registry.hasSpace d = true ∧ d ≠ c := by
    intro d
    simp only [peers, List.mem_filter, mem_visit, Bool.and_eq_true, isConnected_iff, bne_iff_ne,
      and_assoc]
  constructor
  · intro hne
    obtain ⟨d, hd⟩ := List.exists_mem_of_ne_nil _ hne
    exact ⟨d, (hmem d).1 hd⟩
  · rintro ⟨d, hd⟩
    exact List.ne_nil_of_mem ((hmem d).2 hd)

/-- The name, the code, the room and the delivery state are those of the server. -/
theorem controlled_copy_eq_iff (platform : Platform) (env : Env) (tracking : Bool) (room : String) :
    controlled (wireMessage tracking (storedChat platform env room (h.signed obj m))) =
        controlled (wireMessage tracking (storedChat platform env room (h.signed obj m'))) ↔
      AgreeOnRelayed m m' := by
  constructor
  · intro heq
    cases tracking with
    | true =>
      simp only [wireMessage, if_true, controlled, storedChat, signed, Controlled.mk.injEq] at heq
      exact ⟨heq.2.2.2.1, heq.2.2.2.2.1, heq.2.2.2.2.2.1, heq.2.2.2.2.2.2.1, heq.2.2.2.2.2.2.2.2⟩
    | false =>
      simp only [wireMessage, Bool.false_eq_true, if_false, controlled, storedChat, signed,
        Controlled.mk.injEq] at heq
      exact ⟨heq.2.2.2.1, heq.2.2.2.2.1, heq.2.2.2.2.2.1, heq.2.2.2.2.2.2.1, heq.2.2.2.2.2.2.2.2⟩
  · rintro ⟨hprivate, hadmin, hrecalled, htarget, hmessages⟩
    cases tracking with
    | true =>
      simp only [wireMessage, if_true, controlled, storedChat, signed, hprivate, hadmin, hrecalled,
        htarget, hmessages]
    | false =>
      simp only [wireMessage, Bool.false_eq_true, if_false, controlled, storedChat, signed, hprivate,
        hadmin, hrecalled, htarget, hmessages]

/-- In every reachable state with a store two chats of a client under one id, whatever else is in
them, look the same to the others exactly when they lead to no copy or agree on what is relayed as it
came in. -/
theorem relayed_fields_agree_iff (platform : Platform) (adminCode : String) (es : List Event)
    (env : Env) {c : ClientID} {obj : Client} {m m' : Message}
    (ht : TakesChat (after platform adminCode true es) c obj m)
    (ht' : TakesChat (after platform adminCode true es) c obj m')
    (hid : m.messageID = m'.messageID) :
    toOthers (after platform adminCode true es)
        (after platform adminCode true (es ++ [⟨.frame c m false false, env⟩])) c =
      toOthers (after platform adminCode true es)
        (after platform adminCode true (es ++ [⟨.frame c m' false false, env⟩])) c ↔
      (LeadsToCopy (after platform adminCode true es) env c obj m → AgreeOnRelayed m m') := by
  have hs := sound_run platform adminCode true es
  have hd := distinct_run platform adminCode true es
  have hstore := offlineStore_run platform adminCode true es
  rw [after_concat, after_concat]
  generalize after platform adminCode true es = h at *
  rw [toOthers_chat platform env hs hd hstore ht, toOthers_chat platform env hs hd hstore ht']
  have hattempt : h.isNew env (h.chatAttempt obj m') = h.isNew env (h.chatAttempt obj m) := by
    unfold isNew chatAttempt Attempt.key Attempt.identity Attempt.message signed
    rw [hid]
  rw [hattempt, ← hid]
  by_cases hnew : (h.isNew env (h.chatAttempt obj m) && !env.fails .pruneChatMessages) = true
  · rw [if_pos hnew, if_pos hnew]
    rw [Bool.and_eq_true, Bool.not_eq_true'] at hnew
    constructor
    · rintro heq ⟨-, -, hpeer⟩
      obtain ⟨d, hd⟩ := List.exists_mem_of_ne_nil _ (peers_ne_nil_iff.2 hpeer)
      have hsame := List.map_inj_left.1 heq d hd
      exact (controlled_copy_eq_iff platform env _ obj.room).1 (Prod.mk.inj hsame).2
    · intro hagree
      refine List.map_congr_left fun d hd => ?_
      have hpeer := peers_ne_nil_iff.1 (List.ne_nil_of_mem hd)
      rw [(controlled_copy_eq_iff platform env _ obj.room).2 (hagree ⟨hnew.1, hnew.2, hpeer⟩)]
  · rw [if_neg hnew, if_neg hnew]
    refine iff_of_true rfl fun hleads => absurd ?_ hnew
    rw [hleads.isNew, hleads.pruned]
    rfl

/-- Alice and Bob are in the lobby. -/
def aliceAndBob : List Event := sessionEvents 0 "Alice" "alice" ++ sessionEvents 1 "Bob" "bob"

/-- Alice's client takes a chat. -/
theorem takesChat_alice {m : Message} (hm : m.type = .chat) (hvalid : validateMessage m = .ok ()) :
    TakesChat (after samplePlatform "" true aliceAndBob) 0
      (aliceAfter aliceAndBob 0 (by decide +kernel)) m where
  client := (Option.some_get (by decide +kernel)).symm
  connected := by decide +kernel
  reading := by decide +kernel
  chat := hm
  valid := hvalid

/-- Alice says that she is Bob, in another room, and that her chat has been delivered. -/
def boastingChat : Message :=
  { plainChat with username := "Bob", userCode := "bob", room := "den", deliveryState := "delivered" }

theorem relayed_fields_agree_boasting :
    toOthers (after samplePlatform "" true aliceAndBob)
        (after samplePlatform "" true (aliceAndBob ++ [⟨.frame 0 plainChat false false, {}⟩])) 0 =
      toOthers (after samplePlatform "" true aliceAndBob)
        (after samplePlatform "" true (aliceAndBob ++ [⟨.frame 0 boastingChat false false, {}⟩])) 0 := by
  have hplain := takesChat_alice (m := plainChat) rfl (by decide)
  have hboasting := takesChat_alice (m := boastingChat) rfl (by decide)
  have hagree : AgreeOnRelayed plainChat boastingChat := ⟨rfl, rfl, rfl, rfl, rfl⟩
  exact (relayed_fields_agree_iff samplePlatform "" aliceAndBob {} hplain hboasting rfl).2
    fun _ => hagree

/-- Alice says that she is an administrator. -/
def adminChat : Message := { plainChat with isAdmin := true }

theorem forged_is_admin_is_relayed :
    ¬ ∀ (platform : Platform) (adminCode : String) (es : List Event) (env : Env) (c : ClientID)
      (obj : Client) (m m' : Message), TakesChat (after platform adminCode true es) c obj m →
        TakesChat (after platform adminCode true es) c obj m' → m.messageID = m'.messageID →
          m.content = m'.content → m.crypto = m'.crypto →
            toOthers (after platform adminCode true es)
                (after platform adminCode true (es ++ [⟨.frame c m false false, env⟩])) c =
              toOthers (after platform adminCode true es)
                (after platform adminCode true (es ++ [⟨.frame c m' false false, env⟩])) c := by
  intro hclaim
  have hplain := takesChat_alice (m := plainChat) rfl (by decide)
  have hadmin := takesChat_alice (m := adminChat) rfl (by decide)
  have hsame := hclaim samplePlatform "" aliceAndBob {} 0 _ plainChat adminChat hplain hadmin
    rfl rfl rfl
  revert hsame
  decide +kernel

end Hub

end LanChat
