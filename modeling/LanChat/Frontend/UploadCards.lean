import LanChat.Lib.Regex
import LanChat.Lib.Run
import Mathlib.Algebra.BigOperators.Group.Finset.Basic
import Mathlib.Algebra.Order.BigOperators.Group.Finset
import Mathlib.Algebra.Order.Ring.Int
import Mathlib.Algebra.Ring.CharZero
import Mathlib.Tactic.Ring

/-!
# Upload cards (`frontend/src/bridge/attachmentEvents.ts`)

A card above the composer shows how far an upload has come.  It learns it from the events of the
bridge, whose ids carry the command of the upload and a suffix
(`frontend/src/state/useAttachmentUploads.ts`).

* `normalizeChunkEnvelope`: the card of an event;
* `reduceAttachmentEvent`: what an event changes;
* `Counts`: what every card keeps, in any run;
* `Honest`: the events name chunks that the file has;
* `counts_run`, `progress_run`: what a card shows.

The numbers of the bridge are integers of at most 53 bits.  A map of the source is an object, in
which `map[event.id]` also finds the members that every object inherits; the runs here have no event
for one of these names (`OwnKey`).
-/

namespace LanChat.UploadCards

open EventMachine Regex

/-! ### The state -/

/-- `AttachmentUploadPhase`. -/
inductive AttachmentUploadPhase
  | choosing
  | uploading
  | resuming
  | finalizing
  | completed
  | failed
  deriving DecidableEq, Repr

/-- A number of chunks: an integer, or what is left of a division by zero. -/
inductive ChunkCount
  | finite (n : ℤ)
  | infinite
  deriving DecidableEq, Repr

/-- `AttachmentUploadState`. -/
structure AttachmentUploadState where
  phase : AttachmentUploadPhase
  room : Option String := none
  attachmentId : Option String := none
  uploadId : Option String := none
  chunkSize : Option ℤ := none
  totalChunks : Option ChunkCount := none
  logicalSize : Option ℤ := none
  receivedBytes : Option ℤ := none
  startedAt : Option ℤ := none
  lastProgressAt : Option ℤ := none
  initialReceivedBytes : Option ℤ := none
  receivedChunks : ℕ
  receivedIndexes : List ℤ
  lastChunkIndex : ℤ
  expiresAt : Option String := none
  error : Option (String × String) := none

/-- `AttachmentUploadMap`: the cards by their commands. -/
abbrev AttachmentUploadMap := String → Option AttachmentUploadState

/-- `AttachmentEventPayload`. -/
inductive AttachmentEventPayload
  | init (attachmentId uploadId : String) (chunkSize chunkIndex : ℤ) (receivedIndexes : List ℤ)
      (expiresAt : String) (logicalSize : Option ℤ)
  | chunk (chunkIndex : ℤ)
  | resume (receivedIndexes : List ℤ)
  | commit
  | manifest
  | error (code message : String)
  deriving DecidableEq, Repr

/-- `AttachmentEvent`. -/
structure AttachmentEvent where
  id : String
  payload : AttachmentEventPayload
  deriving DecidableEq, Repr

/-! ### Events -/

/-- `Math.ceil(logicalSize / chunkSize)`; a positive number divided by zero is infinite. -/
def ceilDiv (logicalSize chunkSize : ℤ) : ChunkCount :=
  if chunkSize = 0 then .infinite else .finite (-((-logicalSize).fdiv chunkSize))

/-- `receivedChunks >= totalChunks`. -/
def ChunkCount.reachedBy (receivedChunks : ℕ) : ChunkCount → Bool
  | finite n => decide (n ≤ receivedChunks)
  | infinite => false

/-- The bytes of a chunk. -/
def chunkBytes (chunkSize logicalSize index : ℤ) : ℤ :=
  max 0 (min chunkSize (logicalSize - index * chunkSize))

/-- `beginAttachmentUpload`. -/
def beginAttachmentUpload (map : AttachmentUploadMap) (commandId room : String) :
    AttachmentUploadMap :=
  Function.update map commandId (some
    { phase := .choosing, receivedChunks := 0, receivedIndexes := [], lastChunkIndex := -1
      room := some room })

/-- `dismissAttachmentUpload`. -/
def dismissAttachmentUpload (map : AttachmentUploadMap) (commandId : String) :
    AttachmentUploadMap :=
  Function.update map commandId none

/-- `withTotalChunks`. -/
def withTotalChunks (state : AttachmentUploadState) (chunkSize : ℤ) (logicalSize : Option ℤ) :
    AttachmentUploadState :=
  match logicalSize with
  | none => state
  | some size =>
    if size ≤ 0 then state
    else
      let totalChunks := ceilDiv size chunkSize
      let receivedBytes := (state.receivedIndexes.map (chunkBytes chunkSize size)).sum
      { state with
        logicalSize := some size
        totalChunks := some totalChunks
        receivedBytes := some receivedBytes
        initialReceivedBytes := some receivedBytes
        phase :=
          if totalChunks.reachedBy state.receivedChunks then .finalizing else state.phase }

/-- The card of an `attachment.init`. -/
def initCard (room : Option String) (attachmentId uploadId : String) (chunkSize chunkIndex : ℤ)
    (received : List ℤ) (expiresAt : String) (logicalSize : Option ℤ) (now : ℤ) :
    AttachmentUploadState :=
  let receivedIndexes := received.eraseDups
  withTotalChunks
    { phase := if receivedIndexes.length > 0 then .resuming else .uploading
      attachmentId := some attachmentId, uploadId := some uploadId, chunkSize := some chunkSize
      receivedChunks := receivedIndexes.length, receivedIndexes
      startedAt := some now, lastProgressAt := some now, lastChunkIndex := chunkIndex
      expiresAt := some expiresAt, room }
    chunkSize logicalSize

/-- The card after an `attachment.chunk` that it has not counted. -/
def advance (current : AttachmentUploadState) (chunkIndex now : ℤ) : AttachmentUploadState :=
  let receivedIndexes := current.receivedIndexes ++ [chunkIndex]
  let size := current.chunkSize.getD 0
  -- without a size of the file the rest of it is infinite
  let bytes := match current.logicalSize with
    | some logicalSize => chunkBytes size logicalSize chunkIndex
    | none => max 0 size
  { current with
    phase :=
      if current.totalChunks.any (ChunkCount.reachedBy receivedIndexes.length) then .finalizing
      else .uploading
    receivedChunks := receivedIndexes.length
    receivedIndexes
    lastChunkIndex := chunkIndex
    lastProgressAt := some now
    receivedBytes := some (current.receivedBytes.getD 0 + bytes) }

/-- The card after an `attachment.resume`. -/
def resumeCard (current : AttachmentUploadState) (received : List ℤ) (now : ℤ) :
    AttachmentUploadState :=
  let receivedIndexes := received.eraseDups
  withTotalChunks
    { current with
      phase := .resuming
      receivedChunks := receivedIndexes.length
      receivedIndexes
      startedAt := some now
      lastProgressAt := some now }
    (current.chunkSize.getD 0) current.logicalSize

/-- What a payload makes of a card; `none` where the card stays as it is. -/
def reduceCard (current : Option AttachmentUploadState) (payload : AttachmentEventPayload)
    (now : ℤ) : Option AttachmentUploadState :=
  match payload with
  | .init attachmentId uploadId chunkSize chunkIndex received expiresAt logicalSize =>
    some (initCard (current.bind AttachmentUploadState.room) attachmentId uploadId chunkSize
      chunkIndex received expiresAt logicalSize now)
  | .chunk chunkIndex =>
    match current with
    | none => none
    | some card =>
      if card.phase = .failed then none
      else if chunkIndex ∈ card.receivedIndexes then none
      else some (advance card chunkIndex now)
  | .resume received =>
    match current with
    | none => none
    | some card => if card.phase = .failed then none else some (resumeCard card received now)
  | .commit =>
    match current with
    | none => none
    | some card => if card.phase = .failed then none else some { card with phase := .completed }
  | .manifest => none
  | .error code message =>
    match current with
    | none => none
    | some card =>
      if card.phase = .failed then none
      else some { card with phase := .failed, error := some (code, message) }

/-- `reduceAttachmentEvent`. -/
def reduceAttachmentEvent (map : AttachmentUploadMap) (event : AttachmentEvent) (now : ℤ) :
    AttachmentUploadMap :=
  match reduceCard (map event.id) event.payload now with
  | some card => Function.update map event.id (some card)
  | none => map

/-! ### Ids -/

/-- A text of an expression. -/
def lit (s : String) : Regex Char := s.toList.foldr (fun c r => .seq (.char (· == c)) r) .empty

/-- The expression `-(?:chunk-\d+|commit)$`. -/
def suffixPattern : Regex Char :=
  .seq (lit "-") (.seq (.alt (.seq (lit "chunk-") (plus (.char Char.isDigit))) (lit "commit"))
    (.assert fun _ right => right.isNone))

/-- The id without its suffix. -/
def normalizeId (id : String) : String :=
  match exec id.toList [suffixPattern] 0 with
  | some m => String.ofList (id.toList.take (id.toList.length - (m.stop - m.index)))
  | none => id

/-- `normalizeChunkEnvelope`. -/
def normalizeChunkEnvelope (event : AttachmentEvent) : AttachmentEvent :=
  { event with id := normalizeId event.id }

/-- A suffix of an id. -/
def Suffix (s : List Char) : Prop :=
  (∃ digits, digits ≠ [] ∧ (∀ c ∈ digits, c.isDigit = true) ∧ s = "-chunk-".toList ++ digits) ∨
    s = "-commit".toList

variable {text s t : List Char} {i j : ℕ}

theorem matches_lit {w : String} : Matches text (lit w) i j ↔
    j = i + w.toList.length ∧ w.toList <+: text.drop i := by
  unfold lit
  induction w.toList generalizing i with
  | nil => simp [Matches]
  | cons c cs ih =>
    simp only [List.foldr_cons, Matches, ih, beq_iff_eq, List.length_cons]
    constructor
    · rintro ⟨k, ⟨⟨a, ha, rfl⟩, rfl⟩, rfl, hprefix⟩
      obtain ⟨hlt, hget⟩ := List.getElem?_eq_some_iff.1 ha
      refine ⟨by omega, ?_⟩
      rw [List.drop_eq_getElem_cons hlt, hget]
      exact (List.prefix_cons_inj _).2 hprefix
    · rintro ⟨rfl, hprefix⟩
      have hlt : i < text.length := by
        have hle := hprefix.length_le
        rw [List.length_cons, List.length_drop] at hle
        omega
      rw [List.drop_eq_getElem_cons hlt, List.cons_prefix_cons] at hprefix
      exact ⟨i + 1, ⟨⟨c, by rw [List.getElem?_eq_getElem hlt, hprefix.1], rfl⟩, rfl⟩, by omega,
        hprefix.2⟩

theorem matches_digits : Matches text (.star (.char Char.isDigit)) i j ↔
    ∃ digits, (∀ c ∈ digits, c.isDigit = true) ∧ digits <+: text.drop i ∧
      j = i + digits.length := by
  constructor
  · intro h
    change Relation.ReflTransGen _ i j at h
    induction h using Relation.ReflTransGen.head_induction_on with
    | refl => exact ⟨[], by simp⟩
    | @head i k hik _ ih =>
      obtain ⟨-, ⟨c, hc, hdigit⟩, rfl⟩ := hik
      obtain ⟨digits, hdigits, hprefix, rfl⟩ := ih
      obtain ⟨hlt, hget⟩ := List.getElem?_eq_some_iff.1 hc
      refine ⟨c :: digits, List.forall_mem_cons.2 ⟨hdigit, hdigits⟩, ?_, ?_⟩
      · rw [List.drop_eq_getElem_cons hlt, hget]
        exact (List.prefix_cons_inj _).2 hprefix
      · rw [List.length_cons]
        omega
  · rintro ⟨digits, hdigits, hprefix, rfl⟩
    change Relation.ReflTransGen _ i _
    induction digits generalizing i with
    | nil => exact .refl
    | cons c digits ih =>
      obtain ⟨hc, hdigits⟩ := List.forall_mem_cons.1 hdigits
      have hlt : i < text.length := by
        have hle := hprefix.length_le
        rw [List.length_cons, List.length_drop] at hle
        omega
      rw [List.drop_eq_getElem_cons hlt, List.cons_prefix_cons] at hprefix
      have hstep : Matches text (.char Char.isDigit) i (i + 1) :=
        ⟨⟨c, by rw [List.getElem?_eq_getElem hlt, hprefix.1], hc⟩, rfl⟩
      rw [List.length_cons, show i + (digits.length + 1) = i + 1 + digits.length by omega]
      exact .head ⟨by omega, hstep⟩ (ih hdigits hprefix.2)

theorem drop_eq_append {w : List Char} (h : w <+: text.drop i) :
    text.drop i = w ++ text.drop (i + w.length) := by
  obtain ⟨rest, hrest⟩ := h
  rw [← List.drop_drop, ← hrest, List.drop_left]

/-- The expression matches exactly the suffixes. -/
theorem suffix_of_matches (h : Matches text suffixPattern i j) :
    j = text.length ∧ Suffix (text.drop i) := by
  obtain ⟨k, hlit, l, hbody, hend, hjl⟩ := h
  rw [hjl]
  obtain ⟨rfl, hdash⟩ := matches_lit.1 hlit
  have hlen : i + "-".toList.length ≤ text.length := by
    have hle := hdash.length_le
    rw [List.length_drop] at hle
    have hpos : "-".toList.length = 1 := rfl
    omega
  have hle := Matches.le_length hbody hlen
  have hstop : text.length ≤ l := List.getElem?_eq_none_iff.1 (Option.isNone_iff_eq_none.1 hend)
  have hrest : text.drop l = [] := List.drop_eq_nil_of_le hstop
  refine ⟨by omega, ?_⟩
  rw [drop_eq_append hdash]
  rcases hbody with ⟨k, hchunk, n, ⟨⟨c, hc, hdigit⟩, rfl⟩, hstar⟩ | hcommit
  · obtain ⟨rfl, hprefix⟩ := matches_lit.1 hchunk
    obtain ⟨digits, hdigits, hmore, rfl⟩ := matches_digits.1 hstar
    obtain ⟨hlt, hget⟩ := List.getElem?_eq_some_iff.1 hc
    refine .inl ⟨c :: digits, by simp, List.forall_mem_cons.2 ⟨hdigit, hdigits⟩, ?_⟩
    rw [drop_eq_append hprefix, List.drop_eq_getElem_cons hlt, hget, drop_eq_append hmore, hrest,
      List.append_nil]
    rfl
  · obtain ⟨rfl, hprefix⟩ := matches_lit.1 hcommit
    rw [drop_eq_append hprefix, hrest, List.append_nil]
    exact .inr rfl

theorem matches_of_suffix (hi : i ≤ text.length) (h : Suffix (text.drop i)) :
    ∃ j, Matches text suffixPattern i j := by
  have hlen : text.length = i + (text.drop i).length := by
    rw [List.length_drop]
    omega
  have hend : ∀ l, l = text.length → (text[l]?).isNone = true := by
    rintro l rfl
    rw [List.getElem?_eq_none_iff.2 le_rfl]
    rfl
  rcases h with ⟨digits, hne, hdigits, heq⟩ | heq
  · obtain ⟨c, digits, rfl⟩ := List.exists_cons_of_ne_nil hne
    obtain ⟨hc, hdigits⟩ := List.forall_mem_cons.1 hdigits
    have hdrop : ∀ n, text.drop (i + n) = ("-chunk-".toList ++ c :: digits).drop n := by
      intro n
      rw [← List.drop_drop, heq]
    have hchar : text[i + 7]? = some c := by
      rw [← List.head?_drop, hdrop 7]
      rfl
    -- the dash, then `chunk-`, one digit and the others
    refine ⟨i + 8 + digits.length, i + 1, matches_lit.2 ⟨rfl, ?_⟩, i + 8 + digits.length,
      .inl ⟨i + 7, matches_lit.2 ⟨rfl, ?_⟩, i + 8, ⟨⟨c, hchar, hc⟩, rfl⟩,
        matches_digits.2 ⟨digits, hdigits, ?_, rfl⟩⟩, hend _ ?_, rfl⟩
    · rw [heq]
      exact ⟨_, rfl⟩
    · rw [hdrop 1]
      exact ⟨_, rfl⟩
    · rw [hdrop 8]
      exact List.prefix_rfl
    · rw [hlen, heq]
      simp
      omega
  · have hdrop : ∀ n, text.drop (i + n) = "-commit".toList.drop n := by
      intro n
      rw [← List.drop_drop, heq]
    refine ⟨i + 7, i + 1, matches_lit.2 ⟨rfl, ?_⟩, i + 7, .inr (matches_lit.2 ⟨rfl, ?_⟩),
      hend _ ?_, rfl⟩
    · rw [heq]
      exact ⟨_, rfl⟩
    · rw [hdrop 1]
      exact List.prefix_rfl
    · rw [hlen, heq]
      rfl

/-- A suffix has no shorter one at its end. -/
theorem Suffix.eq_of_isSuffix (hs : Suffix s) (ht : Suffix t) (hts : t <:+ s) : t = s := by
  obtain ⟨rest, rfl⟩ : ∃ rest, t = '-' :: 'c' :: rest := by
    rcases ht with ⟨digits, -, -, rfl⟩ | rfl
    · exact ⟨"hunk-".toList ++ digits, rfl⟩
    · exact ⟨"ommit".toList, rfl⟩
  rcases hs with ⟨digits, hne, hdigits, rfl⟩ | rfl
  · have hnot : ¬ '-' :: 'c' :: rest <:+ digits := fun h =>
      absurd (hdigits _ (h.subset List.mem_cons_self)) (by decide)
    have hdash : '-' :: 'c' :: rest ≠ '-' :: digits := by
      intro h
      have hc := hdigits 'c' ((List.cons.inj h).2 ▸ List.mem_cons_self)
      exact absurd hc (by decide)
    change '-' :: 'c' :: rest <:+ '-' :: 'c' :: 'h' :: 'u' :: 'n' :: 'k' :: '-' :: digits at hts
    simpa [List.suffix_cons_iff, hnot, hdash] using hts
  · change '-' :: 'c' :: rest <:+ ['-', 'c', 'o', 'm', 'm', 'i', 't'] at hts
    simpa [List.suffix_cons_iff] using hts

/-- What the search finds is a suffix. -/
theorem suffix_of_exec {m : Found} (h : exec text [suffixPattern] 0 = some m) :
    m.stop = text.length ∧ Suffix (text.drop m.index) := by
  obtain ⟨r, hr, hmatch⟩ := (Found.spec h).found
  obtain ⟨hgroup, hr⟩ := List.getElem?_eq_some_iff.1 hr
  rw [List.length_singleton, Nat.lt_one_iff] at hgroup
  obtain rfl : suffixPattern = r := by simpa [hgroup] using hr
  exact suffix_of_matches hmatch

/-- An id loses the suffix at its end. -/
theorem normalizeId_append {c s : String} (hs : Suffix s.toList) : normalizeId (c ++ s) = c := by
  have htext : (c ++ s).toList = c.toList ++ s.toList := String.toList_append
  unfold normalizeId
  cases hexec : exec (c ++ s).toList [suffixPattern] 0 with
  | none =>
    have hle : c.toList.length ≤ (c ++ s).toList.length := by
      rw [htext, List.length_append]
      omega
    obtain ⟨j, hmatch⟩ := matches_of_suffix hle (by rwa [htext, List.drop_left])
    have hnone := List.findSome?_eq_none_iff.1 hexec c.toList.length
      (List.mem_range'_1.2 (by omega))
    exact absurd hmatch (matchAt_eq_none hnone _ List.mem_cons_self)
  | some m =>
    obtain ⟨hstop, hsuffix⟩ := suffix_of_exec hexec
    have hdrop : (c ++ s).toList.drop m.index = s.toList := by
      have hend : s.toList <:+ (c ++ s).toList := htext ▸ List.suffix_append _ _
      rcases List.suffix_or_suffix_of_suffix (List.drop_suffix m.index _) hend with h | h
      · exact hs.eq_of_isSuffix hsuffix h
      · exact (hsuffix.eq_of_isSuffix hs h).symm
    have hlength : (c ++ s).toList.length - m.index = s.toList.length := by
      rw [← List.length_drop, hdrop]
    dsimp only
    rw [hstop, hlength, htext, List.length_append, Nat.add_sub_cancel, List.take_left,
      String.ofList_toList]

/-- An id without a suffix stays. -/
theorem normalizeId_of_not_suffix {id : String}
    (h : ∀ c s, id = c ++ s → ¬ Suffix s.toList) : normalizeId id = id := by
  unfold normalizeId
  cases hexec : exec id.toList [suffixPattern] 0 with
  | none => rfl
  | some m =>
    refine absurd ?_ (h (String.ofList (id.toList.take m.index))
      (String.ofList (id.toList.drop m.index)) ?_)
    · rw [String.toList_ofList]
      exact (suffix_of_exec hexec).2
    · rw [← String.ofList_append, List.take_append_drop, String.ofList_toList]

/-- The card of an event: its id without the one suffix that it may have. -/
theorem normalizeId_eq_iff {id c : String} : normalizeId id = c ↔
    (∃ s, Suffix s.toList ∧ id = c ++ s) ∨
      (c = id ∧ ∀ c s, id = c ++ s → ¬ Suffix s.toList) := by
  constructor
  · rintro rfl
    by_cases h : ∃ c s, id = c ++ s ∧ Suffix s.toList
    · obtain ⟨c, s, rfl, hs⟩ := h
      exact .inl ⟨s, hs, by rw [normalizeId_append hs]⟩
    · have hnone : ∀ c s, id = c ++ s → ¬ Suffix s.toList := fun c s h' hs => h ⟨c, s, h', hs⟩
      exact .inr ⟨normalizeId_of_not_suffix hnone, hnone⟩
  · rintro (⟨s, hs, rfl⟩ | ⟨rfl, hnone⟩)
    · exact normalizeId_append hs
    · exact normalizeId_of_not_suffix hnone

/-! ### Runs -/

/-- What reaches the cards. -/
inductive Input
  | begin (commandId room : String)
  | dismiss (commandId : String)
  | event (event : AttachmentEvent) (now : ℤ)

/-- `useAttachmentUploads`. -/
def step (map : AttachmentUploadMap) : Input → AttachmentUploadMap
  | .begin commandId room => beginAttachmentUpload map commandId room
  | .dismiss commandId => dismissAttachmentUpload map commandId
  | .event event now => reduceAttachmentEvent map (normalizeChunkEnvelope event) now

/-- The members of `Object.prototype`. -/
def inheritedMembers : List String :=
  ["constructor", "__defineGetter__", "__defineSetter__", "hasOwnProperty", "__lookupGetter__",
    "__lookupSetter__", "isPrototypeOf", "propertyIsEnumerable", "toString", "valueOf", "__proto__",
    "toLocaleString"]

/-- An event is not for a card with the name of an inherited member.  For such a name the source finds
a function or an object instead of `undefined`, so that a commit makes a card without fields. -/
def OwnKey : Input → Prop
  | .event event _ => normalizeId event.id ∉ inheritedMembers
  | _ => True

/-- The cards after some inputs. -/
def after (inputs : List Input) : AttachmentUploadMap := run step (fun _ => none) inputs

variable {map : AttachmentUploadMap} {card card' : AttachmentUploadState}

/-- What an event makes of a card; only the first one of an upload needs no card. -/
theorem reduceCard_eq_some {current : Option AttachmentUploadState}
    {payload : AttachmentEventPayload} {now : ℤ} : reduceCard current payload now = some card' ↔
      (∃ attachmentId uploadId chunkSize chunkIndex received expiresAt logicalSize,
        payload = .init attachmentId uploadId chunkSize chunkIndex received expiresAt logicalSize ∧
          card' = initCard (current.bind AttachmentUploadState.room) attachmentId uploadId chunkSize
            chunkIndex received expiresAt logicalSize now) ∨
      ∃ card, current = some card ∧ card.phase ≠ .failed ∧
        ((∃ index, payload = .chunk index ∧ index ∉ card.receivedIndexes ∧
            card' = advance card index now) ∨
          (∃ received, payload = .resume received ∧ card' = resumeCard card received now) ∨
          (payload = .commit ∧ card' = { card with phase := .completed }) ∨
          ∃ code message, payload = .error code message ∧
            card' = { card with phase := .failed, error := some (code, message) }) := by
  unfold reduceCard
  cases payload with
  | init | manifest => simp [eq_comm]
  | chunk | resume | commit | error => cases current <;> simp [eq_comm]

/-- A card after a step was there before, has been begun, or is what an event has made of it. -/
theorem step_eq_some {input : Input} {id : String} (h : step map input id = some card) :
    map id = some card ∨
      (∃ room, card = { phase := .choosing, receivedChunks := 0, receivedIndexes := []
                        lastChunkIndex := -1, room := some room }) ∨
      ∃ event now, input = .event event now ∧ normalizeId event.id = id ∧
        reduceCard (map id) event.payload now = some card := by
  cases input with
  | begin commandId room =>
    by_cases hid : id = commandId
    · subst hid
      exact .inr (.inl ⟨room, Option.some.inj (h.symm.trans (Function.update_self ..))⟩)
    · exact .inl ((Function.update_of_ne hid _ _).symm.trans h)
  | dismiss commandId =>
    by_cases hid : id = commandId
    · subst hid
      cases h.symm.trans (Function.update_self ..)
    · exact .inl ((Function.update_of_ne hid _ _).symm.trans h)
  | event event now =>
    have hstep : step map (.event event now) =
        match reduceCard (map (normalizeId event.id)) event.payload now with
        | some card => Function.update map (normalizeId event.id) (some card)
        | none => map := rfl
    rw [hstep] at h
    cases hreduce : reduceCard (map (normalizeId event.id)) event.payload now with
    | none =>
      rw [hreduce] at h
      exact .inl h
    | some card' =>
      rw [hreduce] at h
      by_cases hid : id = normalizeId event.id
      · subst hid
        obtain rfl := Option.some.inj (h.symm.trans (Function.update_self ..))
        exact .inr (.inr ⟨event, now, rfl, rfl, hreduce⟩)
      · exact .inl ((Function.update_of_ne hid _ _).symm.trans h)

/-! ### Counting -/

/-- The bytes of some chunks. -/
def bytesOf (chunkSize logicalSize : ℤ) (indexes : List ℤ) : ℤ :=
  (indexes.map (chunkBytes chunkSize logicalSize)).sum

/-- What a card keeps: the chunks are counted once each, the bytes with them, and the phase says
whether they are all there. -/
structure Counts (card : AttachmentUploadState) : Prop where
  nodup : card.receivedIndexes.Nodup
  chunks : card.receivedChunks = card.receivedIndexes.length
  total : card.totalChunks =
    card.logicalSize.map fun size => ceilDiv size (card.chunkSize.getD 0)
  size : ∀ size, card.logicalSize = some size → 0 < size ∧
    card.receivedBytes = some (bytesOf (card.chunkSize.getD 0) size card.receivedIndexes)
  finalizing : card.phase = .finalizing →
    ∃ total, card.totalChunks = some total ∧ total.reachedBy card.receivedChunks = true
  inFlight : card.phase = .uploading ∨ card.phase = .resuming →
    ∀ total, card.totalChunks = some total → total.reachedBy card.receivedChunks = false

theorem nodup_eraseDups (l : List ℤ) : l.eraseDups.Nodup := by
  induction hn : l.length using Nat.strong_induction_on generalizing l with
  | _ n ih =>
    cases l with
    | nil => simp
    | cons a l =>
      rw [List.eraseDups_cons, List.nodup_cons, List.mem_eraseDups]
      refine ⟨by simp, ih _ ?_ _ rfl⟩
      have hle := List.length_filter_le (fun b => !b == a) l
      rw [← hn, List.length_cons]
      omega

/-- `withTotalChunks` counts the bytes anew. -/
theorem counts_withTotalChunks (hnodup : card.receivedIndexes.Nodup)
    (hchunks : card.receivedChunks = card.receivedIndexes.length)
    (hphase : card.phase = .uploading ∨ card.phase = .resuming)
    {logicalSize : Option ℤ}
    (hold : (∀ size, logicalSize = some size → size ≤ 0) →
      card.logicalSize = none ∧ card.totalChunks = none) :
    Counts (withTotalChunks card (card.chunkSize.getD 0) logicalSize) := by
  -- without a size there is no total, so that neither phase promises anything
  have hstays : (∀ size, logicalSize = some size → size ≤ 0) → Counts card := by
    intro hsmall
    obtain ⟨hsize, htotal⟩ := hold hsmall
    refine ⟨hnodup, hchunks, by rw [hsize, htotal]; rfl, fun size h => ?_, fun h => ?_,
      fun _ total h => ?_⟩
    · rw [hsize] at h
      cases h
    · rw [h] at hphase
      rcases hphase with h | h <;> cases h
    · rw [htotal] at h
      cases h
  unfold withTotalChunks
  cases logicalSize with
  | none => exact hstays (by simp)
  | some size =>
    dsimp only
    split_ifs with hsmall hall
    · exact hstays fun _ h => Option.some.inj h ▸ hsmall
    · exact ⟨hnodup, hchunks, rfl, fun _ h => Option.some.inj h ▸ ⟨not_le.1 hsmall, rfl⟩,
        fun _ => ⟨_, rfl, hall⟩, fun h => by rcases h with h | h <;> cases h⟩
    · refine ⟨hnodup, hchunks, rfl, fun _ h => Option.some.inj h ▸ ⟨not_le.1 hsmall, rfl⟩,
        fun h => ?_, fun _ total h => Option.some.inj h ▸ Bool.eq_false_iff.2 hall⟩
      rw [show card.phase = .finalizing from h] at hphase
      rcases hphase with h | h <;> cases h

theorem counts_begin (room : String) : Counts
    { phase := .choosing, receivedChunks := 0, receivedIndexes := [], lastChunkIndex := -1
      room := some room } := by
  refine ⟨List.nodup_nil, rfl, rfl, fun _ h => ?_, fun h => ?_, fun h => ?_⟩
  · cases h
  · cases h
  · rcases h with h | h <;> cases h

theorem counts_initCard (room : Option String) (attachmentId uploadId : String)
    (chunkSize chunkIndex : ℤ) (received : List ℤ) (expiresAt : String) (logicalSize : Option ℤ)
    (now : ℤ) : Counts (initCard room attachmentId uploadId chunkSize chunkIndex received expiresAt
      logicalSize now) := by
  refine counts_withTotalChunks (nodup_eraseDups _) rfl ?_ fun _ => ⟨rfl, rfl⟩
  dsimp only
  split_ifs
  · exact .inr rfl
  · exact .inl rfl

theorem counts_advance (hcard : Counts card) {index : ℤ} (hnew : index ∉ card.receivedIndexes)
    (now : ℤ) : Counts (advance card index now) := by
  refine ⟨?_, rfl, hcard.total, fun size hsize => ⟨(hcard.size size hsize).1, ?_⟩, fun h => ?_,
    fun h total htotal => ?_⟩
  · have hconcat := hcard.nodup.concat hnew
    rwa [List.concat_eq_append] at hconcat
  · have hbytes := (hcard.size size hsize).2
    have hlogical : card.logicalSize = some size := hsize
    simp only [advance, hlogical, hbytes, Option.getD_some, bytesOf, List.map_append,
      List.sum_append, List.map_singleton, List.sum_singleton]
  · simp only [advance] at h
    split_ifs at h with hall
    exact (Option.any_eq_true _ _).1 hall
  · simp only [advance] at h htotal ⊢
    split_ifs at h with hall
    · rcases h with h | h <;> cases h
    · rw [htotal] at hall
      exact Bool.eq_false_iff.2 hall

theorem counts_resumeCard (hcard : Counts card) (received : List ℤ) (now : ℤ) :
    Counts (resumeCard card received now) := by
  refine counts_withTotalChunks (nodup_eraseDups _) rfl (.inr rfl) fun hsmall => ?_
  have hnone : card.logicalSize = none := by
    rw [Option.eq_none_iff_forall_not_mem]
    intro size hsize
    exact absurd (hcard.size size hsize).1 (not_lt.2 (hsmall size hsize))
  exact ⟨hnone, by simpa [hnone] using hcard.total⟩

/-- The phases after the transfer say nothing about the chunks. -/
theorem Counts.over (hcard : Counts card) {phase : AttachmentUploadPhase}
    (error : Option (String × String)) (hphase : phase = .completed ∨ phase = .failed) :
    Counts { card with phase, error } := by
  refine ⟨hcard.nodup, hcard.chunks, hcard.total, hcard.size, fun h => ?_, fun h => ?_⟩
  · have h : phase = .finalizing := h
    rw [h] at hphase
    rcases hphase with h | h <;> cases h
  · have h : phase = .uploading ∨ phase = .resuming := h
    rcases hphase with rfl | rfl <;> rcases h with h | h <;> cases h

/-- An event keeps the counts. -/
theorem counts_reduceCard {current : Option AttachmentUploadState}
    (hcurrent : ∀ card, current = some card → Counts card) {payload : AttachmentEventPayload}
    {now : ℤ} (h : reduceCard current payload now = some card') : Counts card' := by
  rcases reduceCard_eq_some.1 h with ⟨_, _, _, _, _, _, _, -, rfl⟩ | ⟨card, hcard, -, hcases⟩
  · exact counts_initCard ..
  · have hcounts := hcurrent card hcard
    rcases hcases with ⟨index, -, hnew, rfl⟩ | ⟨received, -, rfl⟩ | ⟨-, rfl⟩ |
      ⟨code, message, -, rfl⟩
    · exact counts_advance hcounts hnew now
    · exact counts_resumeCard hcounts received now
    · exact hcounts.over card.error (.inl rfl)
    · exact hcounts.over _ (.inr rfl)

/-- Every card. -/
def AllCount (map : AttachmentUploadMap) : Prop := ∀ id card, map id = some card → Counts card

theorem allCount_step (map : AttachmentUploadMap) (input : Input) (hmap : AllCount map) :
    AllCount (step map input) := by
  intro id card hcard
  rcases step_eq_some hcard with h | ⟨room, rfl⟩ | ⟨event, now, -, -, hreduce⟩
  · exact hmap id card h
  · exact counts_begin room
  · exact counts_reduceCard (hmap id) hreduce

/-- An upload of three chunks, two of which are there already. -/
def resumedUpload : List Input :=
  [.begin "u" "den", .event ⟨"u", .init "a" "s" 4 0 [2, 0] "" (some 10)⟩ 1,
    .event ⟨"u-chunk-1", .chunk 1⟩ 2]

theorem normalizeId_resumedUpload : normalizeId "u-chunk-1" = "u" ∧ normalizeId "u" = "u" := by
  decide +kernel

/-- Its card at the end. -/
theorem after_resumedUpload : after resumedUpload "u" =
    some (advance (initCard (some "den") "a" "s" 4 0 [2, 0] "" (some 10) 1) 1 2) := by
  have hid : normalizeChunkEnvelope ⟨"u-chunk-1", .chunk 1⟩ = ⟨"u", .chunk 1⟩ := by
    unfold normalizeChunkEnvelope
    rw [normalizeId_resumedUpload.1]
  have hlast : after resumedUpload = reduceAttachmentEvent (after (resumedUpload.take 2))
      (normalizeChunkEnvelope ⟨"u-chunk-1", .chunk 1⟩) 2 := rfl
  rw [hlast, hid]
  rfl

/-! ### Progress -/

section Bytes

variable {chunkSize size : ℤ} {n : ℕ} {indexes : List ℤ}

/-- The file has a whole number of chunks, the last of which may be short. -/
theorem exists_ceilDiv (hchunk : 0 < chunkSize) (hsize : 0 < size) :
    ∃ n : ℕ, ceilDiv size chunkSize = .finite n ∧
      size ≤ n * chunkSize ∧ n * chunkSize < size + chunkSize := by
  have hdiv := Int.mul_ediv_add_emod (-size) chunkSize
  have hmod := Int.emod_nonneg (-size) hchunk.ne'
  have hlt := Int.emod_lt_of_pos (-size) hchunk
  have hproduct : -(-size / chunkSize) * chunkSize = size + -size % chunkSize := by
    rw [neg_mul, mul_comm]
    omega
  have hpos : 0 ≤ -(-size / chunkSize) := by
    by_contra hneg
    have hle := mul_nonpos_of_nonpos_of_nonneg (not_le.1 hneg).le hchunk.le
    omega
  refine ⟨(-(-size / chunkSize)).toNat, ?_, ?_, ?_⟩
  · unfold ceilDiv
    rw [if_neg hchunk.ne', Int.fdiv_eq_ediv_of_nonneg _ hchunk.le, Int.toNat_of_nonneg hpos]
  · rw [Int.toNat_of_nonneg hpos, hproduct]
    omega
  · rw [Int.toNat_of_nonneg hpos, hproduct]
    omega

/-- The first chunks of a file. -/
theorem sum_chunkBytes (hchunk : 0 ≤ chunkSize) (hsize : 0 ≤ size) (n : ℕ) :
    ∑ i ∈ Finset.range n, chunkBytes chunkSize size i = min (n * chunkSize) size := by
  induction n with
  | zero => simp [hsize]
  | succ n ih =>
    rw [Finset.sum_range_succ, ih, chunkBytes, Nat.cast_succ, add_one_mul]
    generalize (n : ℤ) * chunkSize = before
    omega

/-- The chunks of a file are finitely many and hold its bytes. -/
theorem exists_chunks (hchunk : 0 < chunkSize) (hsize : 0 < size) :
    ∃ all : Finset ℤ, ceilDiv size chunkSize = .finite all.card ∧
      (∀ i, i ∈ all ↔ 0 ≤ i ∧ i * chunkSize < size) ∧
      ∑ i ∈ all, chunkBytes chunkSize size i = size ∧
      ∀ i ∈ all, 0 < chunkBytes chunkSize size i := by
  obtain ⟨n, hceil, hlow, hhigh⟩ := exists_ceilDiv hchunk hsize
  have hmem : ∀ i, i ∈ (Finset.range n).map Nat.castEmbedding ↔ 0 ≤ i ∧ i * chunkSize < size := by
    intro i
    rw [Finset.mem_map]
    constructor
    · rintro ⟨k, hk, rfl⟩
      have hle : ((k : ℤ) + 1) * chunkSize ≤ n * chunkSize :=
        mul_le_mul_of_nonneg_right (by have := Finset.mem_range.1 hk; omega) hchunk.le
      rw [add_one_mul] at hle
      change 0 ≤ (k : ℤ) ∧ (k : ℤ) * chunkSize < size
      omega
    · rintro ⟨hpos, hlt⟩
      obtain ⟨k, rfl⟩ := Int.eq_ofNat_of_zero_le hpos
      have hkn : (k : ℤ) < n := lt_of_mul_lt_mul_right (hlt.trans_le hlow) hchunk.le
      exact ⟨k, Finset.mem_range.2 (by omega), rfl⟩
  refine ⟨_, ?_, hmem, ?_, fun i hi => ?_⟩
  · rw [Finset.card_map, Finset.card_range, hceil]
  · rw [Finset.sum_map]
    exact (sum_chunkBytes hchunk.le hsize.le n).trans (min_eq_right hlow)
  · obtain ⟨-, hlt⟩ := (hmem i).1 hi
    unfold chunkBytes
    omega

variable (hchunk : 0 < chunkSize) (hsize : 0 < size) (hnodup : indexes.Nodup)
  (hrange : ∀ i ∈ indexes, 0 ≤ i ∧ i * chunkSize < size)

include hchunk hsize hnodup hrange

/-- Distinct chunks of a file hold at most its bytes, and all of them only if they are all its
chunks. -/
theorem bytesOf_le : ∃ total : ℕ, ceilDiv size chunkSize = .finite total ∧
    bytesOf chunkSize size indexes ≤ size ∧ indexes.length ≤ total ∧
    (bytesOf chunkSize size indexes = size ↔ indexes.length = total) ∧
    (indexes.length = total → ∀ i, 0 ≤ i → i * chunkSize < size → i ∈ indexes) := by
  obtain ⟨all, hceil, hmem, hwhole, hpos⟩ := exists_chunks hchunk hsize
  have hsubset : indexes.toFinset ⊆ all := fun i hi =>
    (hmem i).2 (hrange i (List.mem_toFinset.1 hi))
  have hlength : indexes.toFinset.card = indexes.length := List.toFinset_card_of_nodup hnodup
  have hbytes : bytesOf chunkSize size indexes =
      ∑ i ∈ indexes.toFinset, chunkBytes chunkSize size i := (List.sum_toFinset _ hnodup).symm
  have hle := Finset.card_le_card hsubset
  have hall : indexes.length = all.card → indexes.toFinset = all := fun h =>
    Finset.eq_of_subset_of_card_le hsubset (by omega)
  refine ⟨all.card, hceil, ?_, hlength ▸ hle, ⟨fun hsame => ?_, fun h => ?_⟩, fun h i hi hlt => ?_⟩
  · rw [hbytes]
    exact (Finset.sum_le_sum_of_subset_of_nonneg hsubset fun i hi _ => (hpos i hi).le).trans_eq
      hwhole
  · by_contra hfew
    obtain ⟨i, hi, hmissing⟩ : ∃ i ∈ all, i ∉ indexes.toFinset := by
      by_contra hnone
      have hmore := Finset.card_le_card fun i hi => not_not.1 fun h => hnone ⟨i, hi, h⟩
      omega
    have hlt := Finset.sum_lt_sum_of_subset hsubset hi hmissing (hpos i hi)
      fun j hj _ => (hpos j hj).le
    omega
  · rw [hbytes, hall h, hwhole]
  · exact List.mem_toFinset.1 (hall h ▸ (hmem i).2 ⟨hi, hlt⟩)

end Bytes

/-- The chunks are chunks of the file. -/
def InFile (chunkSize size : ℤ) (indexes : List ℤ) : Prop :=
  ∀ i ∈ indexes, 0 ≤ i ∧ i * chunkSize < size

/-- A card with a size counts chunks of its file. -/
def Within (card : AttachmentUploadState) : Prop :=
  ∀ size, card.logicalSize = some size →
    0 < card.chunkSize.getD 0 ∧ InFile (card.chunkSize.getD 0) size card.receivedIndexes

/-- The chunks that an event names are chunks of the file of its card. -/
def HonestPayload (current : Option AttachmentUploadState) : AttachmentEventPayload → Prop
  | .init _ _ chunkSize _ received _ logicalSize => ∀ size, logicalSize = some size → 0 < size →
    0 < chunkSize ∧ InFile chunkSize size received
  | .chunk index => ∀ card, current = some card → ∀ size, card.logicalSize = some size →
    InFile (card.chunkSize.getD 0) size [index]
  | .resume received => ∀ card, current = some card → ∀ size, card.logicalSize = some size →
    InFile (card.chunkSize.getD 0) size received
  | _ => True

/-- The same of an input. -/
def Honest (map : AttachmentUploadMap) : Input → Prop
  | .event event _ => HonestPayload (map (normalizeId event.id)) event.payload
  | _ => True

/-- `withTotalChunks` changes no chunk, and its size is the one it is given. -/
theorem withTotalChunks_fields (card : AttachmentUploadState) (chunkSize : ℤ)
    (logicalSize : Option ℤ) :
    (withTotalChunks card chunkSize logicalSize).receivedIndexes = card.receivedIndexes ∧
      (withTotalChunks card chunkSize logicalSize).chunkSize = card.chunkSize ∧
      ∀ size, (withTotalChunks card chunkSize logicalSize).logicalSize = some size →
        card.logicalSize = some size ∨ (logicalSize = some size ∧ 0 < size) := by
  unfold withTotalChunks
  cases logicalSize with
  | none => exact ⟨rfl, rfl, fun _ h => .inl h⟩
  | some given =>
    dsimp only
    by_cases hsmall : given ≤ 0
    · rw [if_pos hsmall]
      exact ⟨rfl, rfl, fun _ h => .inl h⟩
    · rw [if_neg hsmall]
      refine ⟨rfl, rfl, fun size h => .inr ?_⟩
      obtain rfl := Option.some.inj h
      exact ⟨rfl, not_le.1 hsmall⟩

theorem initCard_fields (current : Option AttachmentUploadState) (attachmentId uploadId : String)
    (chunkSize chunkIndex : ℤ) (received : List ℤ) (expiresAt : String) (logicalSize : Option ℤ)
    (now : ℤ) :
    let card := initCard (current.bind AttachmentUploadState.room) attachmentId uploadId chunkSize
      chunkIndex received expiresAt logicalSize now
    card.receivedIndexes = received.eraseDups ∧ card.chunkSize = some chunkSize ∧
      ∀ size, card.logicalSize = some size → logicalSize = some size ∧ 0 < size := by
  obtain ⟨hindexes, hchunk, hlogical⟩ := withTotalChunks_fields
    { phase := if received.eraseDups.length > 0 then .resuming else .uploading
      attachmentId := some attachmentId, uploadId := some uploadId, chunkSize := some chunkSize
      receivedChunks := received.eraseDups.length, receivedIndexes := received.eraseDups
      startedAt := some now, lastProgressAt := some now, lastChunkIndex := chunkIndex
      expiresAt := some expiresAt, room := current.bind AttachmentUploadState.room }
    chunkSize logicalSize
  exact ⟨hindexes, hchunk, fun size hsize => (hlogical size hsize).resolve_left fun h => by cases h⟩

theorem resumeCard_fields (card : AttachmentUploadState) (received : List ℤ) (now : ℤ) :
    (resumeCard card received now).receivedIndexes = received.eraseDups ∧
      (resumeCard card received now).chunkSize = card.chunkSize ∧
      ∀ size, (resumeCard card received now).logicalSize = some size →
        card.logicalSize = some size := by
  obtain ⟨hindexes, hchunk, hlogical⟩ := withTotalChunks_fields
    { card with
      phase := .resuming, receivedChunks := received.eraseDups.length
      receivedIndexes := received.eraseDups, startedAt := some now, lastProgressAt := some now }
    (card.chunkSize.getD 0) card.logicalSize
  exact ⟨hindexes, hchunk, fun size hsize => (hlogical size hsize).elim id And.left⟩

theorem inFile_eraseDups {chunkSize size : ℤ} {l : List ℤ} (h : InFile chunkSize size l) :
    InFile chunkSize size l.eraseDups :=
  fun i hi => h i (List.mem_eraseDups.1 hi)

theorem within_reduceCard {current : Option AttachmentUploadState}
    (hcurrent : ∀ card, current = some card → Within card) {payload : AttachmentEventPayload}
    (hhonest : HonestPayload current payload) {now : ℤ}
    (h : reduceCard current payload now = some card') : Within card' := by
  intro size hsize
  rcases reduceCard_eq_some.1 h with
    ⟨attachmentId, uploadId, chunkSize, chunkIndex, received, expiresAt, logicalSize, rfl, rfl⟩ |
    ⟨card, hcard, -, hcases⟩
  · obtain ⟨hindexes, hchunk, hlogical⟩ := initCard_fields current attachmentId uploadId chunkSize
      chunkIndex received expiresAt logicalSize now
    obtain ⟨hgiven, hpos⟩ := hlogical size hsize
    obtain ⟨hchunkPos, hin⟩ := hhonest size hgiven hpos
    rw [hindexes, hchunk]
    exact ⟨hchunkPos, inFile_eraseDups hin⟩
  · have hwithin := hcurrent card hcard
    rcases hcases with ⟨index, rfl, -, rfl⟩ | ⟨received, rfl, rfl⟩ | ⟨-, rfl⟩ |
      ⟨code, message, -, rfl⟩
    · obtain ⟨hchunk, hin⟩ := hwithin size hsize
      exact ⟨hchunk, List.forall_mem_append.2 ⟨hin, hhonest card hcard size hsize⟩⟩
    · obtain ⟨hindexes, hchunk, hlogical⟩ := resumeCard_fields card received now
      have hold := hlogical size hsize
      rw [hindexes, hchunk]
      exact ⟨(hwithin size hold).1, inFile_eraseDups (hhonest card hcard size hold)⟩
    · exact hwithin size hsize
    · exact hwithin size hsize

theorem within_run {inputs : List Input} (hhonest : Along step Honest (fun _ => none) inputs)
    {id : String} (hcard : after inputs id = some card) : Within card := by
  refine run_invariant_along step (I := fun map => ∀ id card, map id = some card → Within card)
    ?_ (fun _ _ h => by cases h) hhonest id card hcard
  intro map input hinput hmap id card hcard
  rcases step_eq_some hcard with h | ⟨room, rfl⟩ | ⟨event, now, rfl, rfl, hreduce⟩
  · exact hmap id card h
  · exact fun _ hsize => by cases hsize
  · exact within_reduceCard (hmap _) hinput hreduce

/-- A card that knows the size of its file never shows more bytes or chunks than the file has, shows
all bytes exactly when it has counted all chunks, waits for the commit only then and is in transfer
only before. -/
theorem progress_run {inputs : List Input} (hhonest : Along step Honest (fun _ => none) inputs)
    {id : String} (hcard : after inputs id = some card) {size : ℤ}
    (hsize : card.logicalSize = some size) :
    ∃ (bytes : ℤ) (total : ℕ), card.receivedBytes = some bytes ∧
      card.totalChunks = some (.finite total) ∧ bytes ≤ size ∧ card.receivedChunks ≤ total ∧
      (bytes = size ↔ card.receivedChunks = total) ∧
      (card.phase = .finalizing → bytes = size) ∧
      (card.phase = .uploading ∨ card.phase = .resuming → bytes < size) := by
  have hcounts := run_invariant step allCount_step (fun _ _ h => by cases h) inputs id card hcard
  obtain ⟨hchunk, hin⟩ := within_run hhonest hcard size hsize
  obtain ⟨hpos, hbytes⟩ := hcounts.size size hsize
  obtain ⟨total, hceil, hle, hfew, hall, -⟩ := bytesOf_le hchunk hpos hcounts.nodup hin
  have htotal := hcounts.total
  rw [hsize, Option.map_some, hceil] at htotal
  rw [← hcounts.chunks] at hfew hall
  have hreached : (ChunkCount.finite total).reachedBy card.receivedChunks = true ↔
      card.receivedChunks = total := by
    simp only [ChunkCount.reachedBy, decide_eq_true_eq]
    omega
  refine ⟨_, total, hbytes, htotal, hle, hfew, hall, fun hphase => hall.2 ?_,
    fun hphase => lt_of_le_of_ne hle fun h => ?_⟩
  · obtain ⟨_, hsome, hmany⟩ := hcounts.finalizing hphase
    obtain rfl := Option.some.inj (htotal.symm.trans hsome)
    exact hreached.1 hmany
  · have hnot := hcounts.inFlight hphase _ htotal
    rw [hreached.2 (hall.1 h)] at hnot
    cases hnot

theorem honest_resumedUpload : Along step Honest (fun _ => none) resumedUpload := by
  refine ⟨trivial, ?_, ?_, trivial⟩
  · intro size hsize hpos
    obtain rfl := Option.some.inj hsize
    exact ⟨by decide, by unfold InFile; decide⟩
  · unfold Honest
    dsimp only
    rw [normalizeId_resumedUpload.1]
    intro card hcard size hsize
    have hinit : some (initCard (some "den") "a" "s" 4 0 [2, 0] "" (some 10) 1) = some card := hcard
    obtain rfl := Option.some.inj hinit
    obtain rfl := Option.some.inj (show some 10 = some size from hsize)
    change InFile 4 10 [1]
    unfold InFile
    decide

theorem progress_run_resumedUpload : ∃ card, after resumedUpload "u" = some card ∧
    card.receivedBytes = some 10 := by
  refine ⟨_, after_resumedUpload, ?_⟩
  obtain ⟨bytes, _, hbytes, -, -, -, -, hfinal, -⟩ :=
    progress_run honest_resumedUpload after_resumedUpload rfl
  rw [hbytes, hfinal (by decide)]

/-- A card that shows all bytes of its file is not changed by acknowledgements any more. -/
theorem full_run {inputs : List Input} (hhonest : Along step Honest (fun _ => none) inputs)
    {id : String} (hcard : after inputs id = some card) {size : ℤ}
    (hsize : card.logicalSize = some size) (hfull : card.receivedBytes = some size)
    {acks : List Input} (hacks : ∀ input ∈ acks, ∃ event now index, input = .event event now ∧
      normalizeId event.id = id ∧ event.payload = .chunk index ∧
      InFile (card.chunkSize.getD 0) size [index]) :
    after (inputs ++ acks) = after inputs := by
  have hcounts := run_invariant step allCount_step (fun _ _ h => by cases h) inputs id card hcard
  obtain ⟨hchunk, hin⟩ := within_run hhonest hcard size hsize
  obtain ⟨hpos, hbytes⟩ := hcounts.size size hsize
  obtain ⟨_, -, -, -, hall, hmany⟩ := bytesOf_le hchunk hpos hcounts.nodup hin
  replace hmany := hmany (hall.1 (Option.some.inj (hbytes.symm.trans hfull)))
  -- every chunk of the file is counted, so that the reducer finds each of them there
  have hstep : ∀ input ∈ acks, step (after inputs) input = after inputs := by
    intro input hinput
    obtain ⟨event, now, index, rfl, hid, hpayload, hindex⟩ := hacks input hinput
    obtain ⟨hlow, hhigh⟩ := hindex index List.mem_cons_self
    have hmem := hmany index hlow hhigh
    change reduceAttachmentEvent _ (normalizeChunkEnvelope event) now = _
    unfold reduceAttachmentEvent reduceCard normalizeChunkEnvelope
    simp only [hid, hcard, hpayload, if_pos hmem, ite_self]
  rw [after, run_append]
  change run step (after inputs) acks = after inputs
  clear hacks
  induction acks with
  | nil => rfl
  | cons input acks ih =>
    rw [run_cons, hstep input List.mem_cons_self]
    exact ih fun x hx => hstep x (List.mem_cons_of_mem _ hx)

theorem full_run_resumedUpload :
    after (resumedUpload ++ [.event ⟨"u-chunk-1", .chunk 1⟩ 3]) = after resumedUpload := by
  refine full_run honest_resumedUpload after_resumedUpload rfl rfl fun input hinput => ?_
  refine ⟨_, _, 1, List.mem_singleton.1 hinput, normalizeId_resumedUpload.1, rfl, ?_⟩
  change InFile 4 10 [1]
  unfold InFile
  decide

/-! ### The log -/

/-- The card is there and has not failed. -/
def Live (map : AttachmentUploadMap) (id : String) : Prop :=
  ∃ card, map id = some card ∧ card.phase ≠ .failed

/-- The card counts the chunk. -/
def Counted (map : AttachmentUploadMap) (id : String) (index : ℤ) : Prop :=
  ∃ card, map id = some card ∧ index ∈ card.receivedIndexes

/-- An input says that the server has the chunk. -/
def Marks (map : AttachmentUploadMap) (id : String) (index : ℤ) : Input → Prop
  | .event event _ => normalizeId event.id = id ∧
    match event.payload with
    | .init _ _ _ _ received _ _ => index ∈ received
    | .chunk chunkIndex => Live map id ∧ chunkIndex = index
    | .resume received => Live map id ∧ index ∈ received
    | _ => False
  | _ => False

/-- An input starts the count anew. -/
def Resets (map : AttachmentUploadMap) (id : String) : Input → Prop
  | .begin commandId _ => commandId = id
  | .dismiss commandId => commandId = id
  | .event event _ => normalizeId event.id = id ∧
    match event.payload with
    | .init _ _ _ _ _ _ _ => True
    | .resume _ => Live map id
    | _ => False

theorem counted_update {id : String} {index : ℤ} {card : Option AttachmentUploadState} :
    Counted (Function.update map id card) id index ↔
      ∃ c, card = some c ∧ index ∈ c.receivedIndexes := by
  unfold Counted
  rw [Function.update_self]

theorem counted_update_of_ne {id id' : String} {index : ℤ} {card : Option AttachmentUploadState}
    (h : id ≠ id') : Counted (Function.update map id' card) id index ↔ Counted map id index := by
  unfold Counted
  rw [Function.update_of_ne h]

theorem counted_of_some {id : String} {index : ℤ} (hcard : map id = some card) :
    Counted map id index ↔ index ∈ card.receivedIndexes := by
  unfold Counted
  simp [hcard]

/-- An event that leaves its card as it is says nothing new of it. -/
theorem kept_of_reduceCard {event : AttachmentEvent} {now : ℤ}
    (h : reduceCard (map (normalizeId event.id)) event.payload now = none) (index : ℤ) :
    (Marks map (normalizeId event.id) index (.event event now) →
      Counted map (normalizeId event.id) index) ∧
        ¬ Resets map (normalizeId event.id) (.event event now) := by
  obtain ⟨eventId, payload⟩ := event
  have hnone : ∀ card', reduceCard (map (normalizeId eventId)) payload now ≠ some card' := by
    simp [h]
  constructor
  · rintro ⟨-, hmarks⟩
    cases payload with
    | init => cases h
    | chunk chunkIndex =>
      obtain ⟨⟨card, hcard, hphase⟩, rfl⟩ := hmarks
      -- had the chunk not been counted, the card would advance
      refine ⟨card, hcard, by_contra fun hnew => ?_⟩
      exact hnone _ (reduceCard_eq_some.2 (.inr ⟨card, hcard, hphase, .inl ⟨_, rfl, hnew, rfl⟩⟩))
    | resume received =>
      obtain ⟨⟨card, hcard, hphase⟩, -⟩ := hmarks
      exact (hnone _ (reduceCard_eq_some.2
        (.inr ⟨card, hcard, hphase, .inr (.inl ⟨_, rfl, rfl⟩)⟩))).elim
    | manifest | commit | error => exact hmarks.elim
  · rintro ⟨-, hresets⟩
    cases payload with
    | init => cases h
    | resume received =>
      obtain ⟨card, hcard, hphase⟩ := hresets
      exact hnone _ (reduceCard_eq_some.2 (.inr ⟨card, hcard, hphase, .inr (.inl ⟨_, rfl, rfl⟩)⟩))
    | chunk | manifest | commit | error => exact hresets

/-- The chunks of a card that an event changes. -/
theorem mem_of_reduceCard {event : AttachmentEvent} {now index : ℤ}
    (h : reduceCard (map (normalizeId event.id)) event.payload now = some card') :
    index ∈ card'.receivedIndexes ↔ Marks map (normalizeId event.id) index (.event event now) ∨
      (Counted map (normalizeId event.id) index ∧
        ¬ Resets map (normalizeId event.id) (.event event now)) := by
  obtain ⟨eventId, payload⟩ := event
  rcases reduceCard_eq_some.1 h with
    ⟨attachmentId, uploadId, chunkSize, chunkIndex, received, expiresAt, logicalSize, hpayload,
      rfl⟩ | ⟨card, hcard, hphase, hcases⟩
  · obtain rfl : payload = _ := hpayload
    have hindexes := (initCard_fields (map (normalizeId eventId)) attachmentId uploadId chunkSize
      chunkIndex received expiresAt logicalSize now).1
    simp [Marks, Resets, hindexes]
  · have hlive : Live map (normalizeId eventId) := ⟨card, hcard, hphase⟩
    rw [counted_of_some hcard]
    rcases hcases with ⟨chunkIndex, hpayload, -, rfl⟩ | ⟨received, hpayload, rfl⟩ |
      ⟨hpayload, rfl⟩ | ⟨code, message, hpayload, rfl⟩
    all_goals obtain rfl : payload = _ := hpayload
    · have hindexes : (advance card chunkIndex now).receivedIndexes =
          card.receivedIndexes ++ [chunkIndex] := rfl
      simp [Marks, Resets, hlive, hindexes, or_comm, eq_comm]
    · simp [Marks, Resets, hlive, (resumeCard_fields card received now).1]
    · simp [Marks, Resets]
    · simp [Marks, Resets]

/-- The chunks of a card after an event, where the event is for it. -/
theorem counted_event (map : AttachmentUploadMap) (event : AttachmentEvent) (now : ℤ) (index : ℤ) :
    Counted (reduceAttachmentEvent map (normalizeChunkEnvelope event) now) (normalizeId event.id)
        index ↔
      Marks map (normalizeId event.id) index (.event event now) ∨
        (Counted map (normalizeId event.id) index ∧
          ¬ Resets map (normalizeId event.id) (.event event now)) := by
  have hstep : reduceAttachmentEvent map (normalizeChunkEnvelope event) now =
      match reduceCard (map (normalizeId event.id)) event.payload now with
      | some card => Function.update map (normalizeId event.id) (some card)
      | none => map := rfl
  rw [hstep]
  cases h : reduceCard (map (normalizeId event.id)) event.payload now with
  | none =>
    obtain ⟨hmarks, hresets⟩ := kept_of_reduceCard h index
    exact ⟨fun h => .inr ⟨h, hresets⟩, fun h => h.elim hmarks And.left⟩
  | some card =>
    dsimp only
    rw [counted_update, ← mem_of_reduceCard h]
    exact ⟨fun ⟨_, heq, hmem⟩ => Option.some.inj heq ▸ hmem, fun hmem => ⟨card, rfl, hmem⟩⟩

/-- A chunk is counted after an input that marks it, and stays counted until a reset. -/
theorem counted_step (map : AttachmentUploadMap) (input : Input) (id : String) (index : ℤ) :
    Counted (step map input) id index ↔
      Marks map id index input ∨ (Counted map id index ∧ ¬ Resets map id input) := by
  cases input with
  | begin commandId room =>
    by_cases hid : id = commandId
    · subst hid
      refine iff_of_false (fun h => ?_) fun h => h.elim False.elim fun h => h.2 rfl
      obtain ⟨_, hcard, hmem⟩ := counted_update.1 h
      obtain rfl := Option.some.inj hcard
      cases hmem
    · change Counted (Function.update map commandId _) id index ↔ False ∨ _
      rw [counted_update_of_ne hid, false_or]
      exact ⟨fun h => ⟨h, fun heq => hid heq.symm⟩, And.left⟩
  | dismiss commandId =>
    by_cases hid : id = commandId
    · subst hid
      refine iff_of_false (fun h => ?_) fun h => h.elim False.elim fun h => h.2 rfl
      obtain ⟨_, hcard, -⟩ := counted_update.1 h
      cases hcard
    · change Counted (Function.update map commandId none) id index ↔ False ∨ _
      rw [counted_update_of_ne hid, false_or]
      exact ⟨fun h => ⟨h, fun heq => hid heq.symm⟩, And.left⟩
  | event event now =>
    by_cases hid : normalizeId event.id = id
    · subst hid
      exact counted_event map event now index
    -- an event changes the card of its own id only
    · have hother : Counted (step map (.event event now)) id index ↔ Counted map id index := by
        change Counted (reduceAttachmentEvent map (normalizeChunkEnvelope event) now) id index ↔ _
        unfold reduceAttachmentEvent normalizeChunkEnvelope
        dsimp only
        split
        · exact counted_update_of_ne (Ne.symm hid)
        · exact Iff.rfl
      rw [hother]
      exact ⟨fun h => .inr ⟨h, fun h => hid h.1⟩,
        fun h => h.elim (fun h => absurd h.1 hid) And.left⟩

end LanChat.UploadCards
