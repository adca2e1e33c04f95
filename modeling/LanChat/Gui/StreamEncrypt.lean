import LanChat.Gui.AttachmentFile

/-!
# Two ways to encrypt a file (`attachments/transfer_client.cpp`)

`stream_encrypt` goes through a whole input by itself, with a count of the bytes that remain;
`encrypt_next_chunk` is called for one chunk after another and computes from the index what remains
and whether a chunk is the last one.

* `InputDevice`: an input by what it answers to a read;
* `streamEncrypt`, and `untilEnd` for the calls of `encrypt_next_chunk` up to the end;
* `streamLoop_eq_untilEnd`: from any chunk on the two do the same;
* `streamEncrypt_eq_untilEnd`: so they do for the whole input.
-/

namespace LanChat.Gui.Attachments

open Client (plaintextChunkBytes)

/-- A `QIODevice` with states `σ`: whether it can be read, and what a read of so many bytes gives. -/
structure InputDevice (σ : Type) where
  readable : Bool
  read : σ → ℕ → List UInt8 × σ

/-- A file that is read from its beginning. -/
def Device.asInput (d : Device) : InputDevice (List UInt8) where
  readable := d.readable
  read rest n := (rest.take n, rest.drop n)

namespace TransferClient

variable {σ : Type} (crypto : Crypto) (input : InputDevice σ) (key : Key)

/-- `encrypt_next_chunk`: the chunk with `endOfFile`, and the state of the input. -/
def encryptNextChunk (context : ChunkContext) (s : σ) :
    Except String (TransferChunk × Bool) × σ :=
  if !input.readable || decide (context.logicalSize ≤ 0) || decide (context.chunkSize ≤ 0) ||
      decide (context.chunkIndex < 0) then (.error "invalid attachment transfer context", s)
  else
    let remaining := context.logicalSize - context.chunkIndex * context.chunkSize
    if remaining ≤ 0 then (.ok ({}, true), s)
    else
      let readSize := (min context.chunkSize remaining).toNat
      let (bytes, s) := input.read s readSize
      if bytes.length ≠ readSize then (.error "attachment file ended before logical size", s)
      else match encrypt crypto key context bytes with
        | none => (.error "attachment encryption failed", s)
        | some ciphertext =>
          (.ok (⟨context.chunkIndex, ciphertext, crypto.sha256Hex ciphertext⟩,
            decide (chunkCount context ≤ context.chunkIndex + 1)), s)

variable {crypto input key} in
/-- A chunk that is not the last one leaves chunks to come. -/
theorem encryptNextChunk_more {context : ChunkContext} {chunk : TransferChunk} {s s' : σ}
    (h : encryptNextChunk crypto input key context s = (.ok (chunk, false), s')) :
    context.chunkIndex + 1 < chunkCount context := by
  unfold encryptNextChunk at h
  split_ifs at h
  · cases h
  dsimp only at h
  split_ifs at h with hend hshort
  · cases h
  · cases h
  cases hcipher : encrypt crypto key context (input.read s
      (min context.chunkSize (context.logicalSize - context.chunkIndex * context.chunkSize)).toNat).1
    with
  | none =>
    rw [hcipher] at h
    cases h
  | some ciphertext =>
    rw [hcipher] at h
    simp only [Prod.mk.injEq, Except.ok.injEq, decide_eq_false_iff_not] at h
    omega

/-- The calls of `encrypt_next_chunk` from an index on, the index one higher each time, until one of
them fails or is at the end of the file. -/
def untilEnd (context : ChunkContext) (s : σ) : List TransferChunk × Except String Unit :=
  match _h : encryptNextChunk crypto input key context s with
  | (.error e, _) => ([], .error e)
  | (.ok (chunk, true), _) => ([chunk], .ok ())
  | (.ok (chunk, false), s') =>
    let rest := untilEnd { context with chunkIndex := context.chunkIndex + 1 } s'
    (chunk :: rest.1, rest.2)
termination_by (chunkCount context - context.chunkIndex).toNat
decreasing_by
  have := encryptNextChunk_more ‹_›
  simp only [chunkCount] at this ⊢
  omega

/-- The loop of `stream_encrypt`, with the chunks that the sink was given. -/
def streamLoop (sink : TransferChunk → Bool) (context : ChunkContext) (index remaining : ℤ)
    (s : σ) : List TransferChunk × Except String Unit :=
  if remaining ≤ 0 then ([], .ok ())
  else
    let requested := min remaining plaintextChunkBytes
    let read := input.read s requested.toNat
    if read.1.length ≠ requested.toNat then ([], .error "input ended before logical size")
    else match encrypt crypto key { context with chunkIndex := index } read.1 with
      | none => ([], .error "attachment encryption failed")
      | some ciphertext =>
        let chunk : TransferChunk := ⟨index, ciphertext, crypto.sha256Hex ciphertext⟩
        if !sink chunk then ([chunk], .error "chunk sink rejected transfer")
        else
          let rest := streamLoop sink context (index + 1) (remaining - requested) read.2
          (chunk :: rest.1, rest.2)
termination_by remaining.toNat
decreasing_by
  simp only [plaintextChunkBytes] at *
  omega

/-- `stream_encrypt`; a sink may be missing. -/
def streamEncrypt (context : ChunkContext) (sink : Option (TransferChunk → Bool)) (s : σ) :
    List TransferChunk × Except String Unit :=
  match sink with
  | none => ([], .error "invalid transfer input")
  | some sink =>
    if !input.readable || decide (context.logicalSize < 0) then ([], .error "invalid transfer input")
    else
      let chunkSize := if context.chunkSize = 0 then plaintextChunkBytes else context.chunkSize
      if chunkSize ≠ plaintextChunkBytes then ([], .error "unsupported chunk size")
      else streamLoop crypto input key sink { context with chunkSize } 0 context.logicalSize s

/-! ### The two loops -/

variable {crypto input key} {context : ChunkContext}

/-- Two transfers deliver the same chunks, and both get to the end or fail after them. -/
def SameTransfer (a b : List TransferChunk × Except String Unit) : Prop :=
  a.1 = b.1 ∧ (a.2 = .ok () ↔ b.2 = .ok ())

/-- The calls end with a call that fails or that is at the end. -/
theorem untilEnd_error {s s' : σ} {e : String}
    (h : encryptNextChunk crypto input key context s = (.error e, s')) :
    untilEnd crypto input key context s = ([], .error e) := by
  rw [untilEnd]
  split <;> simp_all

theorem untilEnd_last {s s' : σ} {chunk : TransferChunk}
    (h : encryptNextChunk crypto input key context s = (.ok (chunk, true), s')) :
    untilEnd crypto input key context s = ([chunk], .ok ()) := by
  rw [untilEnd]
  split <;> simp_all

theorem untilEnd_more {s s' : σ} {chunk : TransferChunk}
    (h : encryptNextChunk crypto input key context s = (.ok (chunk, false), s')) :
    untilEnd crypto input key context s =
      (chunk :: (untilEnd crypto input key
        { context with chunkIndex := context.chunkIndex + 1 } s').1,
        (untilEnd crypto input key
          { context with chunkIndex := context.chunkIndex + 1 } s').2) := by
  rw [untilEnd]
  split <;> simp_all

/-- A call for an index before the end: what it requests, and when it is the last one. -/
theorem encryptNextChunk_at (hreadable : input.readable = true)
    (hchunk : context.chunkSize = plaintextChunkBytes) {i : ℤ} (hi : 0 ≤ i)
    (hmore : 0 < context.logicalSize - i * plaintextChunkBytes) (s : σ) :
    encryptNextChunk crypto input key { context with chunkIndex := i } s =
      let requested := min (context.logicalSize - i * plaintextChunkBytes) plaintextChunkBytes
      let read := input.read s requested.toNat
      if read.1.length ≠ requested.toNat then
        (.error "attachment file ended before logical size", read.2)
      else match encrypt crypto key { context with chunkIndex := i } read.1 with
        | none => (.error "attachment encryption failed", read.2)
        | some ciphertext => (.ok (⟨i, ciphertext, crypto.sha256Hex ciphertext⟩,
            decide (context.logicalSize - i * plaintextChunkBytes - requested ≤ 0)), read.2) := by
  obtain ⟨attachmentID, room, groupID, logicalSize, chunkSize, chunkIndex⟩ := context
  obtain rfl : chunkSize = plaintextChunkBytes := hchunk
  dsimp only at hmore ⊢
  have hlast : (chunkCount ⟨attachmentID, room, groupID, logicalSize, plaintextChunkBytes, i⟩ ≤
      i + 1) ↔
      logicalSize - i * plaintextChunkBytes -
        min (logicalSize - i * plaintextChunkBytes) plaintextChunkBytes ≤ 0 := by
    unfold chunkCount plaintextChunkBytes
    dsimp only
    omega
  have hbad : (!input.readable || decide (logicalSize ≤ 0) || decide (plaintextChunkBytes ≤ 0) ||
      decide (i < 0)) = false := by
    rw [hreadable]
    unfold plaintextChunkBytes at hmore ⊢
    simp only [Bool.not_true, Bool.false_or, Bool.or_eq_false_iff, decide_eq_false_iff_not]
    omega
  unfold encryptNextChunk
  rw [if_neg (by rw [hbad]; exact Bool.false_ne_true)]
  dsimp only
  rw [if_neg (Int.not_le.2 hmore), min_comm plaintextChunkBytes, decide_eq_decide.2 hlast]

/-- For a file the call is the one that the sender makes. -/
theorem encryptNextChunk_asInput (d : Device) (context : ChunkContext) :
    Attachments.encryptNextChunk crypto d key context =
      (encryptNextChunk crypto d.asInput key context d.rest).1.map fun called =>
        (called.1, called.2, { d with
          rest := (encryptNextChunk crypto d.asInput key context d.rest).2 }) := by
  unfold Attachments.encryptNextChunk encryptNextChunk Device.asInput
  dsimp only
  split_ifs
  · rfl
  · rfl
  · rfl
  · cases encrypt crypto key context (d.rest.take (min context.chunkSize
      (context.logicalSize - context.chunkIndex * context.chunkSize)).toNat) <;> rfl

/-- A file that is too short is not sent to its end. -/
theorem streamLoop_short {d : Device} {sink : TransferChunk → Bool} :
    ∀ (n : ℕ) (i remaining : ℤ) (rest : List UInt8), remaining.toNat ≤ n →
      (rest.length : ℤ) < remaining →
      (streamLoop crypto d.asInput key sink context i remaining rest).2 ≠ .ok () := by
  intro n
  induction n with
  | zero =>
    intro i remaining rest hn hshort
    omega
  | succ n ih =>
    intro i remaining rest hn hshort
    unfold streamLoop
    rw [if_neg (by omega)]
    dsimp only
    split_ifs with hread
    · exact fun h => by cases h
    cases encrypt crypto key { context with chunkIndex := i }
        (d.asInput.read rest (min remaining plaintextChunkBytes).toNat).1 with
    | none => exact fun h => by cases h
    | some ciphertext =>
      dsimp only
      split_ifs
      · exact fun h => by cases h
      · have hlen : (d.asInput.read rest (min remaining plaintextChunkBytes).toNat).2.length =
            rest.length - (min remaining plaintextChunkBytes).toNat := List.length_drop
        have hgot : (rest.take (min remaining plaintextChunkBytes).toNat).length =
            (min remaining plaintextChunkBytes).toNat := not_not.1 hread
        rw [List.length_take] at hgot
        have hsize : plaintextChunkBytes = 48128 := rfl
        refine ih (i + 1) _ _ ?_ ?_
        · omega
        · rw [hlen]
          omega

/-- From any index before the end the two loops do the same. -/
theorem streamLoop_eq_untilEnd (hreadable : input.readable = true)
    (hchunk : context.chunkSize = plaintextChunkBytes) {sink : TransferChunk → Bool}
    (haccept : ∀ chunk, sink chunk = true) :
    ∀ (n : ℕ) (i remaining : ℤ) (s : σ), remaining.toNat ≤ n → 0 ≤ i → 0 < remaining →
      remaining = context.logicalSize - i * plaintextChunkBytes →
      SameTransfer (streamLoop crypto input key sink context i remaining s)
        (untilEnd crypto input key { context with chunkIndex := i } s) := by
  intro n
  induction n with
  | zero =>
    intro i remaining s hn hi hpos
    omega
  | succ n ih =>
    rintro i remaining s hn hi hpos rfl
    have hcall := @encryptNextChunk_at σ crypto input key context hreadable hchunk i hi hpos s
    have hleft : context.logicalSize - i * plaintextChunkBytes -
        min (context.logicalSize - i * plaintextChunkBytes) plaintextChunkBytes =
          max 0 (context.logicalSize - (i + 1) * plaintextChunkBytes) := by
      unfold plaintextChunkBytes
      omega
    unfold streamLoop
    rw [if_neg (Int.not_le.2 hpos)]
    dsimp only at hcall ⊢
    rw [hleft] at hcall ⊢
    generalize input.read s (min (context.logicalSize - i * plaintextChunkBytes)
      plaintextChunkBytes).toNat = read at hcall ⊢
    by_cases hshort : read.1.length ≠ (min (context.logicalSize - i * plaintextChunkBytes)
        plaintextChunkBytes).toNat
    · rw [if_pos hshort] at hcall ⊢
      rw [untilEnd_error hcall]
      exact ⟨rfl, iff_of_false (fun h => by cases h) fun h => by cases h⟩
    rw [if_neg hshort] at hcall ⊢
    cases hcipher : encrypt crypto key { context with chunkIndex := i } read.1 with
    | none =>
      rw [hcipher] at hcall
      rw [untilEnd_error hcall]
      exact ⟨rfl, Iff.rfl⟩
    | some ciphertext =>
      rw [hcipher] at hcall
      dsimp only at hcall ⊢
      rw [haccept, Bool.not_true, if_neg Bool.false_ne_true]
      by_cases hlast : context.logicalSize - (i + 1) * plaintextChunkBytes ≤ 0
      · -- nothing remains, and the index is the last one
        rw [max_eq_left hlast] at hcall ⊢
        rw [untilEnd_last hcall]
        unfold streamLoop
        exact ⟨rfl, Iff.rfl⟩
      · have hmore := Int.not_le.1 hlast
        rw [max_eq_right hmore.le] at hcall ⊢
        rw [decide_eq_false hlast] at hcall
        rw [untilEnd_more hcall]
        have hrest := ih (i + 1) _ read.2
          (by unfold plaintextChunkBytes at hn ⊢; omega) (by omega) hmore rfl
        exact ⟨congrArg (_ :: ·) hrest.1, hrest.2⟩

/-- With the chunk size of the protocol only the input can be refused before the loop. -/
theorem streamEncrypt_eq (hchunk : context.chunkSize = plaintextChunkBytes)
    (hpos : 0 < context.logicalSize) (sink : TransferChunk → Bool) (s : σ) :
    streamEncrypt crypto input key context (some sink) s =
      if input.readable then streamLoop crypto input key sink context 0 context.logicalSize s
      else ([], .error "invalid transfer input") := by
  have hsize : (if context.chunkSize = 0 then plaintextChunkBytes else context.chunkSize) =
      context.chunkSize := by
    rw [hchunk]
    rfl
  unfold streamEncrypt
  dsimp only
  rw [decide_eq_false hpos.not_gt, Bool.or_false, hsize, if_neg (not_not.2 hchunk)]
  cases input.readable <;> rfl

/-- The chunks of `stream_encrypt` are the chunks of the calls of `encrypt_next_chunk` with the
indexes 0, 1, 2, … until the end of the file, and the one fails after the chunks after which the
other one fails. -/
theorem streamEncrypt_eq_untilEnd (hchunk : context.chunkSize = plaintextChunkBytes)
    (hpos : 0 < context.logicalSize) {sink : TransferChunk → Bool}
    (haccept : ∀ chunk, sink chunk = true) (s : σ) :
    (streamEncrypt crypto input key context (some sink) s).1 =
        (untilEnd crypto input key { context with chunkIndex := 0 } s).1 ∧
      ((streamEncrypt crypto input key context (some sink) s).2 = .ok () ↔
        (untilEnd crypto input key { context with chunkIndex := 0 } s).2 = .ok ()) := by
  rw [streamEncrypt_eq hchunk hpos]
  by_cases hreadable : input.readable = true
  · rw [if_pos hreadable]
    exact streamLoop_eq_untilEnd hreadable hchunk haccept _ 0 context.logicalSize s le_rfl le_rfl hpos
      (by omega)
  · have hcall : encryptNextChunk crypto input key { context with chunkIndex := 0 } s =
        (.error "invalid attachment transfer context", s) := by
      unfold encryptNextChunk
      rw [Bool.not_eq_true] at hreadable
      rw [hreadable]
      rfl
    rw [untilEnd_error hcall, if_neg hreadable]
    exact ⟨rfl, iff_of_false (fun h => by cases h) fun h => by cases h⟩

/-- A file that is shorter than its logical size is not sent to its end. -/
theorem streamEncrypt_short {d : Device} (hchunk : context.chunkSize = plaintextChunkBytes)
    (hshort : (d.rest.length : ℤ) < context.logicalSize) (sink : TransferChunk → Bool) :
    (streamEncrypt crypto d.asInput key context (some sink) d.rest).2 ≠ .ok () := by
  rw [streamEncrypt_eq hchunk (by omega)]
  split_ifs
  · exact streamLoop_short _ 0 _ _ le_rfl hshort
  · exact fun h => by cases h

/-- A file of one byte is one chunk; of a file that should have two there is none. -/
theorem streamEncrypt_eq_untilEnd_byte :
    let context : ChunkContext := ⟨"a", "lobby", "g", 1, 48128, 0⟩
    let longer := { context with logicalSize := 2 }
    let file : Device := ⟨true, [65]⟩
    let key : Key := Vector.replicate 32 0
    let stream := fun context =>
      streamEncrypt byteCrypto file.asInput key context (some fun _ => true) file.rest
    let calls := fun context => untilEnd byteCrypto file.asInput key context file.rest
    (stream context).1 = (calls context).1 ∧ (stream context).2 = .ok () ∧
      (calls context).2 = .ok () ∧ (stream longer).1 = (calls longer).1 ∧
      (stream longer).2 ≠ .ok () ∧ (calls longer).2 ≠ .ok () := by
  intro context longer file key stream calls
  have hsame : ∀ context, context.chunkSize = plaintextChunkBytes → 0 < context.logicalSize →
      (stream context).1 = (calls { context with chunkIndex := 0 }).1 ∧
        ((stream context).2 = .ok () ↔ (calls { context with chunkIndex := 0 }).2 = .ok ()) :=
    fun context hchunk hpos => streamEncrypt_eq_untilEnd hchunk hpos (fun _ => rfl) _
  have hsent : (stream context).2 = .ok () := by decide +kernel
  have hshort : (stream longer).2 ≠ .ok () := streamEncrypt_short rfl (by decide) _
  obtain ⟨hchunks, hend⟩ := hsame context rfl (by decide)
  obtain ⟨hnone, hfails⟩ := hsame longer rfl (by decide)
  exact ⟨hchunks, hsent, hend.1 hsent, hnone, hshort, fun h => hshort (hfails.2 h)⟩

end TransferClient

end LanChat.Gui.Attachments
