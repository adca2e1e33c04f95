import LanChat.Client.ServerFrames
import LanChat.Hub.Queues
import LanChat.Lib.Base64

/-!
# Opaque payloads of the server in the client

The server checks that an MLS payload is base64 before it stores or relays it; the client checks
again what it receives.

* `isBase64Loop`: the loop of the client's check, which `isBase64` is;
* `base64_agreement`: the two checks disagree exactly on texts with line breaks;
* `QueuesReadable`: no message that waits for a client carries a payload that the client rejects,
  in runs where no request has hidden a line break in its payload.
-/

namespace LanChat

open GoStrings

namespace Client

/-! ### Two checks of one text -/

/-- `is_base64`, with its loop. -/
def isBase64Loop (value : String) : Bool :=
  if value.isEmpty || value.utf8ByteSize % 4 != 0 then false
  else Base64.scan value.utf8ByteSize 0 0 value.toList

/-- A character that Go's decoder skips. -/
def isLineBreak (c : Char) : Bool := c == '\n' || c == '\r'

/-- A base64 text with a line break in it. -/
def HidesLineBreak (value : String) : Prop :=
  (∃ c ∈ value.toList, isLineBreak c = true) ∧
    Base64.Text (value.toList.filter fun c => !isLineBreak c)

variable {value : String}

theorem utf8ByteSize_of_base64 (h : ∀ c ∈ value.toList, GoStrings.isBase64 c = true ∨ c = '=') :
    value.utf8ByteSize = value.toList.length := by
  refine utf8ByteSize_of_utf8Size fun c hc => ?_
  rcases h c hc with hbody | rfl
  · exact utf8Size_of_base64 hbody
  · rfl

/-- The client accepts the base64 texts, the empty one apart. -/
theorem isBase64Loop_iff :
    isBase64Loop value = true ↔ value ≠ "" ∧ Base64.Text value.toList := by
  unfold isBase64Loop
  by_cases hempty : value = ""
  · subst hempty
    simp
  rw [Bool.ite_eq_true_distrib]
  simp only [Bool.or_eq_true, String.isEmpty_iff, hempty, false_or, bne_iff_ne, ne_eq,
    not_false_eq_true, true_and, Bool.false_eq_true, if_false_left, not_not]
  constructor
  · rintro ⟨hmod, hscan⟩
    have hsize := utf8ByteSize_of_base64 (Base64.scan_mem hscan)
    exact ⟨(Base64.scan_iff (by rw [hsize, Nat.zero_add])).1 hscan, hsize ▸ hmod⟩
  · rintro ⟨hshape, hlen⟩
    have hsize := utf8ByteSize_of_base64 fun _ hc => hshape.mem hc
    exact ⟨hsize ▸ hlen, (Base64.scan_iff (by rw [hsize, Nat.zero_add])).2 hshape⟩

theorem alphabet_eq : (fun c : Char => ('A' ≤ c && c ≤ 'Z') || ('a' ≤ c && c ≤ 'z') ||
    ('0' ≤ c && c ≤ '9') || c == '+' || c == '/') = GoStrings.isBase64 := by
  funext c
  unfold GoStrings.isBase64 isAlnum
  rw [Bool.or_comm (decide ('A' ≤ c) && decide (c ≤ 'Z'))]

/-- The check by parts has the same outcome. -/
theorem isBase64_eq_loop (value : String) : isBase64 value = isBase64Loop value := by
  rw [Bool.eq_iff_iff, isBase64Loop_iff]
  unfold isBase64
  rw [alphabet_eq]
  simp only [Bool.and_eq_true, Bool.not_eq_true', String.isEmpty_eq_false_iff, beq_iff_eq,
    List.all_eq_true, decide_eq_true_eq, and_assoc]
  constructor
  · rintro ⟨hne, hmod, hbody, hpad, hlen⟩
    have hshape := Base64.shape_iff_parts.2 ⟨hbody, hpad, hlen⟩
    exact ⟨hne, hshape, utf8ByteSize_of_base64 (fun _ hc => hshape.mem hc) ▸ hmod⟩
  · rintro ⟨hne, hshape, hmod⟩
    have hsize := utf8ByteSize_of_base64 fun _ hc => hshape.mem hc
    exact ⟨hne, hsize ▸ hmod, Base64.shape_iff_parts.1 hshape⟩

/-- The server accepts what is base64 once its line breaks are gone. -/
theorem validateOpaqueMLS_iff (label : String) (hne : value ≠ "")
    (hsize : value.utf8ByteSize ≤ maxMessageSize) :
    validateOpaqueMLS label value = .ok () ↔
      Base64.Text (value.toList.filter fun c => !isLineBreak c) := by
  unfold validateOpaqueMLS
  rw [if_neg hne, if_neg (by omega), ← Base64.quanta_iff]
  unfold base64Decodes
  constructor
  · intro h
    split at h
    · assumption
    · cases h
  · intro h
    exact if_pos h

/-- The client's texts have no line breaks. -/
theorem not_isLineBreak_of_text (h : Base64.Text value.toList) :
    ∀ c ∈ value.toList, isLineBreak c = false := by
  intro c hc
  rw [Bool.eq_false_iff]
  intro hbreak
  unfold isLineBreak at hbreak
  rw [Bool.or_eq_true, beq_iff_eq, beq_iff_eq] at hbreak
  rcases h.1.mem hc with hbody | rfl
  · rcases hbreak with rfl | rfl
    · revert hbody
      decide
    · revert hbody
      decide
  · revert hbreak
    decide

/-- The two checks agree on a text unless a line break hides in it. -/
theorem base64_agreement (label : String) (hne : value ≠ "")
    (hsize : value.utf8ByteSize ≤ maxMessageSize) :
    (validateOpaqueMLS label value = .ok () ↔ isBase64Loop value = true) ↔
      ¬ HidesLineBreak value := by
  rw [validateOpaqueMLS_iff label hne hsize, isBase64Loop_iff]
  by_cases hbreak : ∃ c ∈ value.toList, isLineBreak c = true
  · have hclient : ¬ Base64.Text value.toList := by
      intro htext
      obtain ⟨c, hc, hb⟩ := hbreak
      rw [not_isLineBreak_of_text htext c hc] at hb
      cases hb
    simp [HidesLineBreak, hbreak, hclient]
  · have hfilter : value.toList.filter (fun c => !isLineBreak c) = value.toList := by
      rw [List.filter_eq_self]
      intro c hc
      by_contra hb
      exact hbreak ⟨c, hc, by simpa using hb⟩
    rw [hfilter]
    simp [HidesLineBreak, hbreak, hne]

/-! ### One message -/

/-- The payload that the last checks of the client are about. -/
def opaquePayload (m : LanChat.Message) : String :=
  match m.type with
  | .mlsKeyPackagePublish | .mlsKeyPackageFetch => m.keyPackage
  | .mlsGroupCommit => m.commit
  | .mlsGroupProposal => m.proposal
  | .mlsGroupWelcome => m.welcome
  | _ => ""

/-- The types of messages that have one. -/
def opaqueTypes : List MessageType :=
  [.mlsKeyPackagePublish, .mlsKeyPackageFetch, .mlsGroupCommit, .mlsGroupProposal, .mlsGroupWelcome]

/-- A message of these types has no other part that needs a look, and its payload is absent or
passes the check. -/
structure Readable (m : LanChat.Message) : Prop where
  crypto : m.crypto = ""
  messages : m.messages = []
  receivedIndexes : m.receivedIndexes = []
  receivedBitmap : m.receivedBitmap = ""
  payload : opaquePayload m = "" ∨ isBase64 (opaquePayload m) = true

/-- The last checks let it through. -/
theorem checkBase64_received {m : LanChat.Message} (ht : m.type ∈ opaqueTypes)
    (read : String → Json) (dump : Json → String)
    (hm : opaquePayload m = "" ∨ isBase64 (opaquePayload m) = true) :
    checkBase64 (received read dump m) = .ok (received read dump m) := by
  have hcheck : ∀ (field : String × String), (field.1 = "" ∨ isBase64 field.1 = true) →
      base64Field (received read dump m) = some field →
        checkBase64 (received read dump m) = .ok (received read dump m) := by
    intro field h hfield
    unfold checkBase64
    rw [hfield]
    refine if_neg ?_
    rintro ⟨hne, hfalse⟩
    rw [hfalse] at h
    exact h.elim hne Bool.false_ne_true
  have htype : (received read dump m).type = m.type.name := rfl
  unfold opaquePayload at hm
  simp only [opaqueTypes, List.mem_cons, List.not_mem_nil, or_false] at ht
  unfold base64Field at hcheck
  rw [htype] at hcheck
  rcases ht with ht | ht | ht | ht | ht
  all_goals
    rw [ht] at hm hcheck
    exact hcheck _ hm rfl

/-- The client reads it. -/
theorem receiveMessage_readable {m : LanChat.Message} (ht : m.type ∈ opaqueTypes) (hm : Readable m)
    {parse : String → Except String Json} {dump : Json → String}
    (hparse : parse m.json.render = .ok m.json) :
    ∃ x, receiveMessage parse dump m.marshal = .ok x := by
  refine ⟨received (fun _ => .null) dump m, ?_⟩
  unfold receiveMessage
  rw [Message.marshal_eq_render hm.crypto hm.messages, hparse,
    Message.json_eq_value hm.crypto hm.messages fun _ => .null]
  dsimp only
  rw [readMessage_value _ _ (.inl hm.crypto) hm.receivedIndexes hm.receivedBitmap]
  exact checkBase64_received ht _ _ hm.payload

/-! ### What the server stores -/

/-- The requests with a payload. -/
def opaqueRequests : List MessageType :=
  [.mlsKeyPackagePublish, .mlsGroupCommit, .mlsGroupProposal, .mlsGroupWelcome]

/-- `validateMessage` has checked the payload of a request. -/
theorem opaque_of_valid {m : LanChat.Message} (ht : m.type ∈ opaqueRequests)
    (hvalid : validateMessage m = .ok ()) :
    ∃ label, validateOpaqueMLS label (opaquePayload m) = .ok () := by
  have hfail : ∀ (text : String) (rest : Except GoError Unit),
      (fail text >>= fun _ => rest) ≠ .ok () := by
    intro text rest hok
    obtain ⟨_, hf, -⟩ := bind_eq_ok.1 hok
    cases hf
  unfold validateMessage at hvalid
  unfold opaquePayload
  simp only [opaqueRequests, List.mem_cons, List.not_mem_nil, or_false] at ht
  split at hvalid
  · cases hvalid
  rcases ht with ht | ht | ht | ht
  all_goals
    rw [ht] at hvalid ⊢
    dsimp only at hvalid ⊢
  · exact ⟨_, hvalid⟩
  · simp only [bind_eq_ok] at hvalid
    obtain ⟨_, -, _, -, hvalid⟩ := hvalid
    split at hvalid
    · exact absurd hvalid (hfail _ _)
    · exact ⟨_, hvalid⟩
  · obtain ⟨_, -, hvalid⟩ := bind_eq_ok.1 hvalid
    split at hvalid
    · exact absurd hvalid (hfail _ _)
    obtain ⟨_, -, hvalid⟩ := bind_eq_ok.1 hvalid
    split at hvalid
    · exact absurd hvalid (hfail _ _)
    split at hvalid
    · obtain ⟨_, -, hvalid⟩ := bind_eq_ok.1 hvalid
      exact ⟨_, hvalid⟩
    · exact ⟨_, hvalid⟩
  · simp only [bind_eq_ok] at hvalid
    obtain ⟨_, -, _, -, _, -, hvalid⟩ := hvalid
    exact ⟨_, hvalid⟩

/-- What the server has checked the client accepts, unless a line break hides in it. -/
theorem isBase64_of_valid {m : LanChat.Message} (ht : m.type ∈ opaqueRequests)
    (hvalid : validateMessage m = .ok ()) (hplain : ¬ HidesLineBreak (opaquePayload m)) :
    isBase64 (opaquePayload m) = true := by
  obtain ⟨label, hopaque⟩ := opaque_of_valid ht hvalid
  have hshape := hopaque
  unfold validateOpaqueMLS at hshape
  split at hshape
  · cases hshape
  rename_i hne
  split at hshape
  · cases hshape
  rename_i hsize
  rw [isBase64_eq_loop]
  exact ((base64_agreement label hne (not_lt.1 hsize)).2 hplain).1 hopaque

end Client

namespace MlsStore

variable {s s' : MlsStore}

/-- The client accepts every stored key package and welcome. -/
structure Readable (s : MlsStore) : Prop where
  keyPackage : ∀ {code row}, s.keyPackages.lookup MlsKeyPackage.userCode code = some row →
    Client.isBase64 row.keyPackage = true
  welcome : ∀ {g n u w}, s.welcome? g n u = some w → Client.isBase64 w.welcome = true

theorem readable_empty : Readable empty := by
  constructor
  · intro code row h
    cases h
  · intro g n u w h
    cases h

theorem Readable.congr (hs : Readable s) (hk : s'.keyPackages = s.keyPackages)
    (hw : s'.welcomes = s.welcomes) : Readable s' := by
  constructor
  · intro code row hrow
    rw [hk] at hrow
    exact hs.keyPackage hrow
  · intro g n u w h
    rw [welcome?_congr hw] at h
    exact hs.welcome h

theorem Readable.of_storesWelcome {room : String} {x : MlsWelcome} (hs : Readable s)
    (h : StoresWelcome s s' room x) (hx : Client.isBase64 x.welcome = true) : Readable s' := by
  constructor
  · intro code row hrow
    rw [h.keyPackages] at hrow
    exact hs.keyPackage hrow
  · intro g n u w hw
    rcases h.row hw with hold | ⟨-, rfl⟩
    · exact hs.welcome hold
    · exact hx

theorem Readable.of_acceptsWelcome {x : MlsWelcome} (hs : Readable s)
    (h : AcceptsWelcome s s' x) : Readable s' := by
  constructor
  · intro code row hrow
    rw [h.keyPackages] at hrow
    exact hs.keyPackage hrow
  · intro g n u w hw
    rw [h.welcome] at hw
    split_ifs at hw with hkey
    · cases hw
      have hx := hs.welcome h.stored
      exact hx
    · exact hs.welcome hw

theorem Readable.publish {code keyPackage : String} (hs : Readable s)
    (h : s.publishMLSKeyPackage code keyPackage = .ok s')
    (hx : Client.isBase64 keyPackage = true) : Readable s' := by
  simp only [publishMLSKeyPackage, bind_eq_ok] at h
  obtain ⟨user, -, _, -, h⟩ := h
  cases h
  constructor
  · intro code row hrow
    dsimp only at hrow
    rw [Table.lookup_upsert (f := fun r : MlsKeyPackage => { r with keyPackage })
      (fun _ _ => Table.keyClash_of_eq _) _ _ (fun _ => rfl)
      (fun a b h => by simpa [Table.keyClash] using h)] at hrow
    split_ifs at hrow with hkey
    · obtain rfl := Option.some.inj hrow
      cases s.keyPackages.lookup MlsKeyPackage.userCode code with
      | none => exact hx
      | some old => exact hx
    · exact hs.keyPackage hrow
  · exact hs.welcome

end MlsStore

namespace Hub

open EventMachine Registry MlsStore Client

variable {h : Hub}

/-- The client reads every message that waits for it, and accepts every payload that is stored. -/
structure Readable (h : Hub) : Prop where
  queues : Holds (fun _ m => m.type ∈ opaqueTypes → Client.Readable m) h.registry
  store : h.db.mls.Readable

theorem not_opaque_error {P : Prop} (ht : MessageType.error ∈ opaqueTypes) : P :=
  absurd ht (by decide)

theorem Readable.deliverError (hh : h.Readable) (c : ClientID) (text commandID : String) :
    (h.deliverError c text "" commandID).Readable :=
  ⟨hh.queues.deliver not_opaque_error, hh.store⟩

/-- A part of a session that leaves the MLS tables alone and sends no payload. -/
theorem Readable.of_touches {k : Hub} {parts : List Part} {types : List MessageType}
    (hh : h.Readable) (ht : Touches parts types h k) (hp : .mls ∉ parts)
    (htypes : ∀ t ∈ types, t ∉ opaqueTypes) : k.Readable := by
  have hstore : k.db.mls = h.db.mls := ht.same .mls hp
  refine ⟨ht.moves.holds (fun _ m hm hopaque => absurd hopaque (htypes _ hm)) hh.queues, ?_⟩
  rw [hstore]
  exact hh.store

/-! ### The handlers -/

section Handlers

variable (hh : h.Readable) (env : Env) (c : ClientID)

include hh

theorem readable_handleMLSKeyPackagePublish {keyPackage : String}
    (hx : Client.isBase64 keyPackage = true) (commandID : String) :
    (h.handleMLSKeyPackagePublish env c keyPackage commandID).Readable := by
  unfold handleMLSKeyPackagePublish
  split
  · exact hh
  split
  · exact hh.deliverError c _ _
  split
  · exact hh.deliverError c _ _
  · rename_i mls hcall
    exact ⟨hh.queues.deliver fun _ => ⟨rfl, rfl, rfl, rfl, .inl rfl⟩,
      hh.store.publish (call_eq_ok.1 hcall).2 hx⟩

theorem readable_handleMLSKeyPackageFetch (targetCode room commandID : String) :
    (h.handleMLSKeyPackageFetch env c targetCode room commandID).Readable := by
  unfold handleMLSKeyPackageFetch
  split
  · exact hh
  split
  · exact hh.deliverError c _ _
  split
  · exact hh.deliverError c _ _
  rename_i obj _ _ _ target _
  dsimp only
  generalize (if room = "" ∧ target ≠ obj.normalizedCode then obj.room else room) = asked
  split
  · exact hh.deliverError c _ _
  split
  · exact hh.deliverError c _ _
  · rename_i keyPackage hcall
    have hfetch := (call_eq_ok.1 hcall).2
    unfold fetchMLSKeyPackage at hfetch
    obtain ⟨code, -, hfetch⟩ := bind_eq_ok.1 hfetch
    split at hfetch
    · rename_i row hrow
      cases hfetch
      exact ⟨hh.queues.deliver fun _ => ⟨rfl, rfl, rfl, rfl, .inr (hh.store.keyPackage hrow)⟩,
        hh.store⟩
    · cases hfetch

theorem readable_handleMLSGroupCommit {q : CommitRequest} (hx : Client.isBase64 q.commit = true) :
    (h.handleMLSGroupCommit env c q).Readable := by
  have hrelay : ∀ room, Client.Readable (commitRelay q room) :=
    fun _ => ⟨rfl, rfl, rfl, rfl, .inr hx⟩
  have hack : ∀ room inserted, Client.Readable (commitAck q room inserted) :=
    fun _ _ => ⟨rfl, rfl, rfl, rfl, .inl rfl⟩
  unfold handleMLSGroupCommit
  split
  · exact hh
  split
  · exact hh.deliverError c _ _
  split
  · unfold commitForMember
    dsimp only
    split
    · exact hh.deliverError c _ _
    rename_i inserted membership mls hcall
    refine ⟨Holds.deliver (Holds.tellMembers hh.queues fun _ _ => hrelay _) fun _ => hack _ _, ?_⟩
    rcases saveMLSCommitForMember_ok (call_eq_ok.1 hcall).2 with
      ⟨_, -, ⟨-, rfl, -⟩ | ⟨-, p, -, hq⟩⟩
    · exact hh.store
    · exact hh.store.congr hq.logs.keyPackages hq.logs.welcomes
  · unfold commitLegacy
    dsimp only
    split
    · exact hh.deliverError c _ _
    split
    · exact hh.deliverError c _ _
    rename_i inserted mls hcall
    refine ⟨Holds.deliver ?_ fun _ => hack _ _, ?_⟩
    · split
      · exact Holds.tellRoom hh.queues fun _ _ => hrelay _
      · exact hh.queues
    · rcases saveMLSCommit_ok (call_eq_ok.1 hcall).2 with ⟨-, rfl, -⟩ | ⟨-, -, hq⟩
      · exact hh.store
      · exact hh.store.congr hq.keyPackages hq.welcomes

theorem readable_handleMLSGroupProposal (platform : Platform) {q : ProposalRequest}
    (hx : Client.isBase64 q.proposal = true) :
    (h.handleMLSGroupProposal platform env c q).Readable := by
  have hrelay : ∀ room target action, Client.Readable (proposalRelay q room target action) :=
    fun _ _ _ => ⟨rfl, rfl, rfl, rfl, .inr hx⟩
  have hack : ∀ room inserted, Client.Readable (proposalAck q room inserted) :=
    fun _ _ => ⟨rfl, rfl, rfl, rfl, .inl rfl⟩
  unfold handleMLSGroupProposal
  split
  · exact hh
  split
  · exact hh.deliverError c _ _
  split
  · unfold proposeForMember
    dsimp only
    split
    · exact hh.deliverError c _ _
    split
    · exact hh.deliverError c _ _
    split
    · exact hh.deliverError c _ _
    rename_i inserted membership mls hcall
    refine ⟨Holds.deliver (Holds.tellMembers hh.queues fun _ _ => hrelay _ _ _)
      fun _ => hack _ _, ?_⟩
    rcases saveMLSProposalForMember_ok (call_eq_ok.1 hcall).2 with
      ⟨_, _, _, -, -, -, ⟨-, rfl⟩ | ⟨-, p, -, -, -, -, -, -, -, hq⟩⟩
    · exact hh.store
    · exact hh.store.congr hq.stores.keyPackages hq.stores.welcomes
  · unfold proposeLegacy
    dsimp only
    split
    · exact hh.deliverError c _ _
    split
    · exact hh.deliverError c _ _
    rename_i inserted mls hcall
    refine ⟨Holds.deliver ?_ fun _ => hack _ _, ?_⟩
    · split
      · exact Holds.tellRoom hh.queues fun _ _ => hrelay _ _ _
      · exact hh.queues
    · rcases saveMLSProposal_ok (call_eq_ok.1 hcall).2 with ⟨-, rfl⟩ | ⟨-, -, hq⟩
      · exact hh.store
      · exact hh.store.congr hq.keyPackages hq.welcomes

theorem readable_handleMLSGroupWelcome (platform : Platform) {q : WelcomeRequest}
    (hx : Client.isBase64 q.welcome = true) :
    (h.handleMLSGroupWelcome platform env c q).Readable := by
  unfold handleMLSGroupWelcome
  split
  · exact hh
  split
  · exact hh.deliverError c _ _
  split
  · exact hh.deliverError c _ _
  split
  · unfold welcomeForMember
    dsimp only
    split
    · exact hh.deliverError c _ _
    split
    · exact hh.deliverError c _ _
    rename_i inserted mls hcall
    refine ⟨Holds.deliver (Holds.tellCode hh.queues fun _ _ => ⟨rfl, rfl, rfl, rfl, .inr hx⟩)
      fun _ => ⟨rfl, rfl, rfl, rfl, .inl rfl⟩, ?_⟩
    rcases saveMLSWelcomeForMember_ok (call_eq_ok.1 hcall).2 with
      ⟨-, rfl⟩ | ⟨-, _, _, _, _, -, -, hq⟩
    · exact hh.store
    · exact hh.store.of_storesWelcome hq.stores hx
  · unfold welcomeLegacy
    dsimp only
    split
    · exact hh.deliverError c _ _
    split
    · exact hh.deliverError c _ _
    rename_i inserted mls hcall
    refine ⟨Holds.deliver (Holds.tellCode hh.queues fun _ _ => ⟨rfl, rfl, rfl, rfl, .inr hx⟩)
      fun _ => ⟨rfl, rfl, rfl, rfl, .inl rfl⟩, ?_⟩
    rcases saveMLSWelcome_ok (call_eq_ok.1 hcall).2 with ⟨-, rfl⟩ | ⟨-, _, -, hq⟩
    · exact hh.store
    · exact hh.store.of_storesWelcome hq hx

theorem readable_handleMLSGroupWelcomeAccept (q : AcceptRequest) :
    (h.handleMLSGroupWelcomeAccept env c q).Readable := by
  have hquiet : MessageType.mlsGroupWelcomeAccept ∉ opaqueTypes := by decide
  unfold handleMLSGroupWelcomeAccept
  split
  · exact hh
  split
  · exact hh.deliverError c _ _
  dsimp only
  split
  · exact hh.deliverError c _ _
  split
  · exact hh.deliverError c _ _
  split
  · exact hh.deliverError c _ _
  rename_i accepted mls hcall
  refine ⟨Holds.deliver hh.queues fun ht => absurd ht hquiet, ?_⟩
  rcases acceptMLSWelcomeForMember_ok (call_eq_ok.1 hcall).2 with
    ⟨-, rfl⟩ | ⟨-, w, -, -, -, -, -, hq⟩
  · exact hh.store
  · exact hh.store.of_acceptsWelcome hq

end Handlers

/-! ### Every event -/

/-- The server lets an MLS request through whose payload hides a line break. -/
def PassesLineBreak (e : Event) : Prop :=
  ∃ c m limited muted, e.input = .frame c m limited muted ∧ m.type ∈ opaqueRequests ∧
    validateMessage m = .ok () ∧ HidesLineBreak (opaquePayload m)

theorem readable_dispatch (platform : Platform) (hs : Sound h.registry) (hh : h.Readable)
    (env : Env) {c : ClientID} {obj : Client} {m : Message}
    (hplain : m.type ∈ opaqueRequests → validateMessage m = .ok () →
      Client.isBase64 (opaquePayload m) = true) (muted : Bool) :
    (h.dispatch platform env c obj m muted).Readable := by
  have hvalidated : ∀ (handle : Hub → Hub),
      (validateMessage m = .ok () → (handle h).Readable) →
        (h.validated c m "" m.commandID handle).Readable := by
    intro handle hhandle
    rcases validated_cases c m "" m.commandID handle with hq | ⟨hvalid, hv⟩
    · exact hh.of_touches hq (by simp) (by decide)
    · rw [hv]
      exact hhandle hvalid
  have htouch := touches_dispatch platform hs env c obj m muted
  have hpayload : ∀ t, m.type = t → t ∈ opaqueRequests → validateMessage m = .ok () →
      Client.isBase64 (opaquePayload m) = true := fun t ht hmem => hplain (ht ▸ hmem)
  unfold opaquePayload at hpayload
  unfold dispatch at htouch ⊢
  cases ht : m.type with
  | mlsKeyPackagePublish =>
    refine hvalidated _ fun hvalid => readable_handleMLSKeyPackagePublish hh env c ?_ _
    simpa [ht] using hpayload _ ht (by decide) hvalid
  | mlsKeyPackageFetch =>
    exact hvalidated _ fun _ => readable_handleMLSKeyPackageFetch hh env c _ _ _
  | mlsGroupCommit =>
    refine hvalidated _ fun hvalid => readable_handleMLSGroupCommit hh env c ?_
    simpa [ht] using hpayload _ ht (by decide) hvalid
  | mlsGroupProposal =>
    refine hvalidated _ fun hvalid => readable_handleMLSGroupProposal hh env c platform ?_
    simpa [ht] using hpayload _ ht (by decide) hvalid
  | mlsGroupWelcome =>
    refine hvalidated _ fun hvalid => readable_handleMLSGroupWelcome hh env c platform ?_
    simpa [ht] using hpayload _ ht (by decide) hvalid
  | mlsGroupWelcomeAccept =>
    exact hvalidated _ fun _ => readable_handleMLSGroupWelcomeAccept hh env c _
  | other name =>
    rw [ht] at htouch
    have hquiet : ∀ t ∈ [MessageType.system, .error], t ∉ opaqueTypes := by decide
    exact hh.of_touches htouch List.not_mem_nil hquiet
  | _ =>
    rw [ht] at htouch
    exact hh.of_touches htouch (by decide) (by decide)

theorem readable_replay (hs : Sound h.registry) (hh : h.Readable) (env : Env) (c : ClientID) :
    (h.replay env c).Readable := by
  constructor
  · refine holds_replay env c hh.queues (fun m hm ht => ?_) ?_ ?_
    · rw [hm] at ht
      exact absurd ht (by decide)
    · intro obj _ _ _ _ m hm ht
      obtain ⟨row, -, rfl⟩ := List.mem_map.1 hm
      have hquiet : MessageType.offlineMessage ∉ opaqueTypes := by decide
      exact absurd ht hquiet
    · intro code welcomes hpending p hp _
      obtain ⟨e, u, w, hw, hpayload⟩ := pendingMLSWelcomes_row hpending hp
      have hx := hh.store.welcome hw
      rw [hpayload] at hx
      exact ⟨rfl, rfl, rfl, rfl, .inr hx⟩
  · have hstore : (h.replay env c).db.mls = h.db.mls :=
      (touches_replay hs env c).same .mls (by decide)
    rw [hstore]
    exact hh.store

/-- Every event keeps the queues readable unless a line break passes. -/
theorem readable_step (platform : Platform) (hs : Sound h.registry) (e : Event)
    (hplain : ¬ PassesLineBreak e) (hh : h.Readable) : (step platform h e).Readable := by
  cases hinput : e.input with
  | frame c m limited muted =>
    have heq : step platform h e = h.readPump platform e.env c m limited muted := by
      simp only [step, hinput]
    rw [heq]
    rcases readPump_cases platform e.env c m limited muted with hq | ⟨obj, hobj, hd⟩
    · exact hh.of_touches hq (by decide) (by decide)
    · rw [hd]
      refine readable_dispatch platform hs hh e.env (fun ht hvalid => ?_) muted
      refine isBase64_of_valid ht hvalid fun hbreak => hplain ?_
      exact ⟨c, m, limited, muted, hinput, ht, hvalid, hbreak⟩
  | replay c =>
    simp only [step, hinput]
    split
    · exact readable_replay hs hh e.env c
    · exact hh
  | restart adminCode =>
    simp only [step, hinput]
    exact ⟨hh.queues.of_objects fun _ => rfl, hh.store⟩
  | _ =>
    have htouch := step_touches platform hs e (by rw [hinput]; rfl)
    rw [hinput] at htouch
    exact hh.of_touches htouch (by simp only [Input.writes]; decide)
      (by simp only [Input.sends]; decide)

/-- The client reads each message that waits for it and whose payload it checks. -/
def ClientsRead (h : Hub) : Prop :=
  ∀ c obj, h.registry.client? c = some obj → ∀ m ∈ obj.send, m.type ∈ opaqueTypes →
    ∀ (parse : String → Except String Json) (dump : Json → String),
      parse m.json.render = .ok m.json → ∃ x, receiveMessage parse dump m.marshal = .ok x

/-- The server accepts the payloads that the client accepts, line breaks apart; and when no request
has passed with a line break in its payload, the client reads what the server sends. -/
theorem base64_acceptance (platform : Platform) (adminCode : String) (offlineStore : Bool)
    (es : List Event) (hplain : ∀ e ∈ es, ¬ PassesLineBreak e) :
    (∀ label value, value ≠ "" → value.utf8ByteSize ≤ maxMessageSize →
      ((validateOpaqueMLS label value = .ok () ↔ isBase64Loop value = true) ↔
        ¬ HidesLineBreak value)) ∧
      ClientsRead (after platform adminCode offlineStore es) := by
  refine ⟨fun label value => base64_agreement label, ?_⟩
  intro c obj hobj m hm ht parse dump hparse
  have hrun : Sound (after platform adminCode offlineStore es).registry ∧
      (after platform adminCode offlineStore es).Readable := by
    refine run_invariant_along (step platform) (P := fun _ e => ¬ PassesLineBreak e)
      (I := fun h => Sound h.registry ∧ h.Readable) ?_ ?_ ?_
    · rintro h e hpass ⟨hs, hh⟩
      exact ⟨sound_step platform h e hs, readable_step platform hs e hpass hh⟩
    · refine ⟨sound_start adminCode offlineStore, ?_, readable_empty⟩
      intro c obj hobj
      cases hobj
    · exact along_of_forall hplain
  exact receiveMessage_readable ht (hrun.2.queues c obj hobj m (List.mem_append_left _ hm) ht)
    hparse

/-- Alice and Bob are in the lobby; Alice publishes a key package and Bob asks for it. -/
def fetchesKeyPackage (keyPackage : String) : List Event :=
  sessionEvents 0 "Alice" "alice" ++ sessionEvents 1 "Bob" "bob" ++
    [frameEvent 0 { type := .mlsKeyPackagePublish, keyPackage },
      frameEvent 1 { type := .mlsKeyPackageFetch, targetUserCode := "alice" }]

/-- What Bob gets. -/
def keyPackageReply (keyPackage : String) : Message :=
  { type := .mlsKeyPackageFetch, targetUserCode := "alice", keyPackage, room := defaultRoomName }

theorem exists_waiting {r : Registry} {c : ClientID} {m : Message}
    (h : (r.client? c).any (fun o => o.send.contains m) = true) :
    ∃ obj, r.client? c = some obj ∧ m ∈ obj.send := by
  obtain ⟨obj, hobj, hm⟩ := (Option.any_eq_true _ _).1 h
  exact ⟨obj, hobj, List.contains_iff_mem.1 hm⟩

theorem base64_acceptance_plain :
    ((validateOpaqueMLS "key package" "a2V5cGFja2FnZQ==" = .ok () ↔
      isBase64Loop "a2V5cGFja2FnZQ==" = true) ↔ ¬ HidesLineBreak "a2V5cGFja2FnZQ==") ∧
    ∃ x, receiveMessage (fun _ => .ok (keyPackageReply "a2V5cGFja2FnZQ==").json) Json.render
      (keyPackageReply "a2V5cGFja2FnZQ==").marshal = .ok x := by
  have hplain : ∀ e ∈ fetchesKeyPackage "a2V5cGFja2FnZQ==", ¬ PassesLineBreak e := by
    rintro e he ⟨c, m, limited, muted, hinput, ht, -, ⟨x, hx, hbreak⟩, -⟩
    have hpayload : opaquePayload m = "a2V5cGFja2FnZQ==" := by
      simp only [fetchesKeyPackage, sessionEvents, frameEvent, List.cons_append, List.nil_append,
        List.mem_cons, List.not_mem_nil, or_false] at he
      rcases he with rfl | rfl | rfl | rfl | rfl | rfl | rfl | rfl <;> cases hinput
      · rfl
      · revert ht
        decide
    rw [hpayload] at hx
    have hnone : "a2V5cGFja2FnZQ==".toList.all (fun y => !isLineBreak y) = true := by decide
    have hline := List.all_eq_true.1 hnone x hx
    rw [hbreak] at hline
    cases hline
  obtain ⟨hagree, hread⟩ := base64_acceptance samplePlatform "" true _ hplain
  obtain ⟨obj, hobj, hm⟩ := exists_waiting (r := (after samplePlatform "" true
    (fetchesKeyPackage "a2V5cGFja2FnZQ==")).registry) (c := 1)
      (m := keyPackageReply "a2V5cGFja2FnZQ==") (by decide +kernel)
  exact ⟨hagree _ _ (by decide) (by decide), hread 1 obj hobj _ hm (by decide) _ _ rfl⟩

/-- A key package with a line break passes the server and is refused by the client that gets it. -/
theorem lineBreak_refused :
    (¬ ∀ label value, value ≠ "" → value.utf8ByteSize ≤ maxMessageSize →
      (validateOpaqueMLS label value = .ok () ↔ isBase64Loop value = true)) ∧
    ¬ ∀ (platform : Platform) (adminCode : String) (offlineStore : Bool) (es : List Event),
      ClientsRead (after platform adminCode offlineStore es) := by
  constructor
  · intro hagree
    have haccepted := (hagree "key package" "a2V5
cGs=" (by decide) (by decide)).1 (by decide +kernel)
    have hrefused : isBase64Loop "a2V5
cGs=" = false := by decide +kernel
    rw [hrefused] at haccepted
    cases haccepted
  · intro hread
    obtain ⟨obj, hobj, hm⟩ := exists_waiting (r := (after samplePlatform "" true
      (fetchesKeyPackage "a2V5
cGs=")).registry) (c := 1)
        (m := keyPackageReply "a2V5
cGs=") (by decide +kernel)
    obtain ⟨x, hx⟩ := hread samplePlatform "" true _ 1 obj hobj _ hm (by decide)
      (fun _ => .ok (keyPackageReply "a2V5
cGs=").json) Json.render rfl
    have hjson := Message.json_eq_value (m := keyPackageReply "a2V5
cGs=") rfl rfl fun _ => .null
    have hvalue : readMessage Json.render (keyPackageReply "a2V5
cGs=").json =
        checkBase64 (received (fun _ => .null) Json.render (keyPackageReply "a2V5
cGs=")) := by
      rw [hjson]
      exact readMessage_value _ _ (.inl rfl) rfl rfl
    have hrefused : checkBase64 (received (fun _ => .null) Json.render
        (keyPackageReply "a2V5
cGs=")) = .error "key_package is not base64" := by
      unfold checkBase64
      have hloop : isBase64 "a2V5
cGs=" = false := by decide +kernel
      simp [base64Field, received, keyPackageReply, MessageType.name, hloop]
    have hx' : readMessage Json.render (keyPackageReply "a2V5
cGs=").json = .ok x := hx
    rw [hvalue, hrefused] at hx'
    cases hx'

end Hub

end LanChat
