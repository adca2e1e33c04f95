import LanChat.Lib.ByteStream
import LanChat.Wire

/-!
# Frames on a connection (`server-go/protocol.go`, `client-cpp/src/protocol.cpp`)

A frame is the length of its payload in four bytes, most significant first, and the payload.  The
server writes and reads frames in Go; the client has one pair of functions for sockets and one for
TLS.  Errors carry the text that is returned or set, if any.

* `putUint32`, `htonl`: the header, from the two languages;
* `Writer.frames`, `Reader.frames`: the three writers and the three readers;
* `framing_round_trip`: every list of payloads comes back, however the bytes travel.
-/

namespace LanChat

namespace Protocol

open ByteStream

/-- The text of an error. -/
abbrev Fault := Option String

/-! ### Numbers in bytes -/

/-- `binary.BigEndian.PutUint32`. -/
def putUint32 (n : ℕ) : List UInt8 :=
  [UInt8.ofNat (n / 2 ^ 24), UInt8.ofNat (n / 2 ^ 16), UInt8.ofNat (n / 2 ^ 8), UInt8.ofNat n]

/-- `binary.BigEndian.Uint32`. -/
def uint32 : List UInt8 → ℕ
  | [a, b, c, d] => a.toNat * 2 ^ 24 + b.toNat * 2 ^ 16 + c.toNat * 2 ^ 8 + d.toNat
  | _ => 0

/-- The order in which the host keeps the bytes of a number. -/
inductive ByteOrder
  | little
  | big
  deriving DecidableEq, Repr

/-- The bytes of a `std::uint32_t` in memory. -/
def ByteOrder.bytes : ByteOrder → ℕ → List UInt8
  | .little, n => (putUint32 n).reverse
  | .big, n => putUint32 n

/-- The `std::uint32_t` with these bytes. -/
def ByteOrder.value : ByteOrder → List UInt8 → ℕ
  | .little, bytes => uint32 bytes.reverse
  | .big, bytes => uint32 bytes

/-- `htonl`: the number whose bytes in memory stand in network order. -/
def htonl : ByteOrder → ℕ → ℕ
  | .little, n => uint32 (putUint32 n).reverse
  | .big, n => n

/-- `ntohl`, which is the same function. -/
def ntohl (order : ByteOrder) (n : ℕ) : ℕ := htonl order n

theorem toNat_ofNat (n : ℕ) : (UInt8.ofNat n).toNat = n % 256 := UInt8.toNat_ofNat'

theorem uint32_putUint32 {n : ℕ} (hn : n < 2 ^ 32) : uint32 (putUint32 n) = n := by
  unfold putUint32 uint32
  simp only [toNat_ofNat]
  omega

theorem putUint32_uint32 (a b c d : UInt8) : putUint32 (uint32 [a, b, c, d]) = [a, b, c, d] := by
  have ha := a.toNat_lt
  have hb := b.toNat_lt
  have hc := c.toNat_lt
  have hd := d.toNat_lt
  unfold putUint32 uint32
  simp only [List.cons.injEq, and_true, ← UInt8.toNat_inj, toNat_ofNat]
  refine ⟨?_, ?_, ?_, ?_⟩ <;> omega

/-- The header that either host writes is in network order. -/
theorem bytes_htonl (order : ByteOrder) {n : ℕ} : order.bytes (htonl order n) = putUint32 n := by
  cases order with
  | little =>
    have hswap := putUint32_uint32 (UInt8.ofNat n) (UInt8.ofNat (n / 2 ^ 8))
      (UInt8.ofNat (n / 2 ^ 16)) (UInt8.ofNat (n / 2 ^ 24))
    change (putUint32 (uint32 [_, _, _, _])).reverse = _
    rw [hswap]
    rfl
  | big => rfl

/-- Either host reads it as the number that was written. -/
theorem ntohl_value (order : ByteOrder) (a b c d : UInt8) :
    ntohl order (order.value [a, b, c, d]) = uint32 [a, b, c, d] := by
  cases order with
  | little =>
    change uint32 (putUint32 (uint32 [d, c, b, a])).reverse = _
    rw [putUint32_uint32]
    rfl
  | big => rfl

/-! ### Go -/

namespace Go

/-- The body of the loop of `writeFull`. -/
def judge : Judge Fault := fun offered report =>
  if report.count < 0 ∨ (offered : ℤ) < report.count then .error (some "short write")
  else if report.failed then .error (some report.reason)
  else if h : 0 < report.count.toNat then .ok ⟨report.count.toNat, h⟩
  else .error (some "short write")

/-- `io.ReadFull`; a read that returns nothing and no error is repeated. -/
def ends : Ends Fault where
  closed started := some (if started then "unexpected EOF" else "EOF")
  failed reason := some reason
  onEmpty := false

/-- What `writeFrame` and `readFrame` say about a length. -/
def check (length : ℕ) : Except Fault Unit :=
  if length = 0 then .error (some "payload must not be empty")
  else if maxMessageSize < length then
    .error (some ("payload is too large: " ++ toString length ++ " bytes"))
  else .ok ()

/-- `writeFrame`. -/
def writeFrame : FrameWriter UInt8 Fault where
  capacity := .whole
  judge
  check
  header n := putUint32 (n % 2 ^ 32)
  wrapHeader := Option.map ("write frame length: " ++ ·)
  wrapPayload := Option.map ("write frame payload: " ++ ·)

/-- `readFrame`. -/
def readFrame : FrameReader UInt8 Fault where
  capacity := .whole
  ends
  headerSize := 4
  length := uint32
  check
  wrapHeader := Option.map ("read frame length: " ++ ·)
  wrapPayload := Option.map ("read frame payload: " ++ ·)

end Go

/-! ### C++ -/

namespace Cpp

/-- `kMaxMessageSize`. -/
def kMaxMessageSize : ℕ := 64 * 1024

/-- `std::numeric_limits<int>::max()` bounds each call. -/
def chunkSize : Capacity := .upTo (2 ^ 31 - 1) (by decide)

/-- The loops of `send_all`; a call reports a positive count or it has failed. -/
def judge (error : Report → Fault) : Judge Fault := fun _ report =>
  if h : 0 < report.count.toNat then .ok ⟨report.count.toNat, h⟩ else .error (error report)

/-- What `send_frame` and `recv_frame` say about a length. -/
def check (error : ℕ → Fault) (length : ℕ) : Except Fault Unit :=
  if length = 0 ∨ kMaxMessageSize < length then .error (error length) else .ok ()

/-- `send_frame`, over either transport. -/
def sendFrame (order : ByteOrder) (failed : Report → Fault) (refused : ℕ → Fault) :
    FrameWriter UInt8 Fault where
  capacity := chunkSize
  judge := judge failed
  check := check refused
  header n := order.bytes (htonl order (n % 2 ^ 32))
  wrapHeader := id
  wrapPayload := id

/-- `recv_frame`, over either transport. -/
def recvFrame (order : ByteOrder) (ends : Ends Fault) (refused : ℕ → Fault) :
    FrameReader UInt8 Fault where
  capacity := chunkSize
  ends
  headerSize := 4
  length bytes := ntohl order (order.value bytes)
  check := check refused
  wrapHeader := id
  wrapPayload := id

end Cpp

namespace Socket

/-- `send_frame` for a `SOCKET`. -/
def sendFrame (order : ByteOrder) : FrameWriter UInt8 Fault :=
  Cpp.sendFrame order (fun report => some ("send failed: WSA error " ++ report.reason))
    fun _ => some "invalid outgoing payload length"

/-- `recv_frame` for a `SOCKET`. -/
def recvFrame (order : ByteOrder) : FrameReader UInt8 Fault :=
  Cpp.recvFrame order
    { closed := fun _ => some "peer closed the TCP connection"
      failed := fun reason => some ("recv failed: WSA error " ++ reason)
      onEmpty := true }
    fun length => some ("invalid incoming payload length: " ++ toString length)

end Socket

namespace Tls

/-- `ssl_error`; the reason is empty when the error queue is. -/
def sslError (operation reason : String) : String :=
  if reason = "" then operation else operation ++ ": " ++ reason

/-- `send_frame` for an `SSL*`, which sets no text for a length. -/
def sendFrame (order : ByteOrder) : FrameWriter UInt8 Fault :=
  Cpp.sendFrame order (fun report => some (sslError "SSL_write failed" report.reason))
    fun _ => none

/-- `recv_frame` for an `SSL*`. -/
def recvFrame (order : ByteOrder) : FrameReader UInt8 Fault :=
  Cpp.recvFrame order
    { closed := fun _ => some (sslError "TLS peer closed the connection" "")
      failed := fun reason => some (sslError "SSL_read failed" reason)
      onEmpty := true }
    fun length => some ("invalid incoming TLS payload length: " ++ toString length)

end Tls

/-! ### One format -/

/-- The code that writes a frame. -/
inductive Writer
  | go
  | socket (order : ByteOrder)
  | tls (order : ByteOrder)
  deriving DecidableEq, Repr

/-- The code that reads one. -/
inductive Reader
  | go
  | socket (order : ByteOrder)
  | tls (order : ByteOrder)
  deriving DecidableEq, Repr

/-- `writeFrame` or one of the two `send_frame`. -/
def Writer.frames : Writer → FrameWriter UInt8 Fault
  | .go => Go.writeFrame
  | .socket order => Socket.sendFrame order
  | .tls order => Tls.sendFrame order

/-- `readFrame` or one of the two `recv_frame`. -/
def Reader.frames : Reader → FrameReader UInt8 Fault
  | .go => Go.readFrame
  | .socket order => Socket.recvFrame order
  | .tls order => Tls.recvFrame order

/-- The header that all of them write. -/
def header : Header UInt8 4 maxMessageSize := ⟨putUint32, fun _ => rfl⟩

theorem goCheck_ok (n : ℕ) : Go.check n = .ok () ↔ 0 < n ∧ n ≤ maxMessageSize := by
  unfold Go.check
  split_ifs with hzero hlarge
  · simp [hzero]
  · simp [hlarge]
  · simp only [true_iff]
    omega

theorem cppCheck_ok (error : ℕ → Fault) (n : ℕ) :
    Cpp.check error n = .ok () ↔ 0 < n ∧ n ≤ maxMessageSize := by
  have hmax : Cpp.kMaxMessageSize = maxMessageSize := rfl
  unfold Cpp.check
  rw [hmax]
  split_ifs with hbad
  · simp only [false_iff]
    omega
  · simp only [true_iff]
    omega

theorem sends_go : Go.writeFrame.Sends header where
  exact n r k h := by
    change Go.judge n r = .ok k at h
    unfold Go.judge at h
    split_ifs at h
    cases h
    rfl
  goesOn n r hpos hle hfailed := by
    change ∃ k, Go.judge n r = .ok k
    unfold Go.judge
    rw [if_neg (by omega), hfailed, if_neg Bool.false_ne_true, dif_pos (by omega)]
    exact ⟨_, rfl⟩
  covers := Capacity.covers_whole _
  header_eq n _ hle := by
    have hmod : n % 2 ^ 32 = n := Nat.mod_eq_of_lt (Nat.lt_of_le_of_lt hle (by decide))
    change putUint32 (n % 2 ^ 32) = putUint32 n
    rw [hmod]
  check_ok := goCheck_ok

theorem sends_cpp (order : ByteOrder) (failed : Report → Fault) (refused : ℕ → Fault) :
    (Cpp.sendFrame order failed refused).Sends header where
  exact n r k h := by
    change Cpp.judge failed n r = .ok k at h
    unfold Cpp.judge at h
    split_ifs at h
    cases h
    rfl
  goesOn n r hpos hle hfailed := by
    change ∃ k, Cpp.judge failed n r = .ok k
    unfold Cpp.judge
    rw [dif_pos (by omega)]
    exact ⟨_, rfl⟩
  covers := Capacity.covers_upTo (n := 4 + maxMessageSize) (by decide : 0 < 2 ^ 31 - 1) (by decide)
  header_eq n _ hle := by
    have hmod : n % 2 ^ 32 = n := Nat.mod_eq_of_lt (Nat.lt_of_le_of_lt hle (by decide))
    change order.bytes (htonl order (n % 2 ^ 32)) = putUint32 n
    rw [hmod, bytes_htonl]
  check_ok := cppCheck_ok refused

theorem Writer.sends (w : Writer) : w.frames.Sends header := by
  cases w with
  | go => exact sends_go
  | socket order => exact sends_cpp order _ _
  | tls order => exact sends_cpp order _ _

/-- Each reader takes the header for the number that Go writes. -/
theorem Reader.length_eq (r : Reader) (a b c d : UInt8) :
    r.frames.length [a, b, c, d] = uint32 [a, b, c, d] := by
  cases r with
  | go => rfl
  | socket order => exact ntohl_value order a b c d
  | tls order => exact ntohl_value order a b c d

theorem Reader.reads (r : Reader) : r.frames.Reads header where
  headerSize := by cases r <;> rfl
  length_header n _ hle := by
    change r.frames.length [_, _, _, _] = n
    rw [r.length_eq]
    exact uint32_putUint32 (Nat.lt_of_le_of_lt hle (by decide))
  check_ok n := by
    cases r with
    | go => exact goCheck_ok n
    | socket order =>
      exact cppCheck_ok
        (fun length => some ("invalid incoming payload length: " ++ toString length)) n
    | tls order =>
      exact cppCheck_ok
        (fun length => some ("invalid incoming TLS payload length: " ++ toString length)) n

/-- What the server marshals is written when its length is accepted. -/
theorem check_iff_writeFrame (payload : String) :
    Go.check payload.utf8ByteSize = .ok () ↔ LanChat.writeFrame payload = true := by
  rw [goCheck_ok]
  unfold LanChat.writeFrame
  rw [Bool.and_eq_true, bne_iff_ne, decide_eq_true_eq, Nat.pos_iff_ne_zero]

/-! ### Round trip -/

/-- Payloads written one after another are read one after another, whichever writers and readers are
used and however the bytes are split on either side; a bad length is refused by every reader before
it reads on, and by every writer before it writes. -/
theorem framing_round_trip :
    (∀ (p : Pattern) (s : Sender UInt8) (frames : List (Writer × List UInt8)),
      (∀ f ∈ frames, 0 < f.2.length ∧ f.2.length ≤ maxMessageSize) →
      (p.Partial → ∃ s', writeAll p s (frames.map fun f => (f.1.frames, f.2)) = (.ok (), s')) ∧
      ∀ s', writeAll p s (frames.map fun f => (f.1.frames, f.2)) = (.ok (), s') →
        s'.wire = s.wire ++ (frames.map fun f => header.frame f.2).flatten ∧
          ∀ (readers : List Reader) (fragments : List (List UInt8)) (later : List UInt8),
            readers.length = frames.length →
            (∀ r ∈ readers, r.frames.ends.Tolerates fragments) →
            fragments.flatten = (frames.map fun f => header.frame f.2).flatten ++ later →
            ∃ rest, readAll (pieces fragments) (readers.map Reader.frames) =
              (.ok (frames.map Prod.snd), pieces rest) ∧ rest.flatten = later) ∧
    (∀ (r : Reader) (fragments : List (List UInt8)) (head later : List UInt8),
      r.frames.ends.Tolerates fragments → head.length = 4 →
      (uint32 head = 0 ∨ maxMessageSize < uint32 head) → fragments.flatten = head ++ later →
      ∃ e rest, r.frames.read (pieces fragments) = (.error e, pieces rest) ∧
        rest.flatten = later) ∧
    ∀ (w : Writer) (p : Pattern) (s : Sender UInt8) (payload : List UInt8),
      (payload.length = 0 ∨ maxMessageSize < payload.length) →
      ∃ e, w.frames.write p s payload = (.error e, s) := by
  refine ⟨?_, ?_, ?_⟩
  · intro p s frames hlen
    have hsends : ∀ f ∈ frames.map fun f => (f.1.frames, f.2), f.1.Sends header := by
      intro f hf
      obtain ⟨g, -, rfl⟩ := List.mem_map.1 hf
      exact g.1.sends
    refine ⟨fun hp => writeAll_partial hsends hp (fun f hf => ?_) s, fun s' hwrite => ?_⟩
    · obtain ⟨g, hg, rfl⟩ := List.mem_map.1 hf
      exact hlen g hg
    · have hwire := writeAll_wire hsends hwrite
      rw [List.map_map] at hwire
      refine ⟨hwire, fun readers fragments later hcount htol hbytes => ?_⟩
      have hreads : ∀ r ∈ readers.map Reader.frames, r.Reads header := by
        intro r hr
        obtain ⟨reader, -, rfl⟩ := List.mem_map.1 hr
        exact reader.reads
      refine readAll_frames hreads (fun r hr => ?_) ?_ (fun x hx => ?_) ?_
      · obtain ⟨reader, hreader, rfl⟩ := List.mem_map.1 hr
        exact htol reader hreader
      · rw [List.length_map, List.length_map, hcount]
      · obtain ⟨f, hf, rfl⟩ := List.mem_map.1 hx
        exact hlen f hf
      · rw [hbytes, List.map_map]
        rfl
  · intro r fragments head later htol hsize hbad hbytes
    refine read_refused r.reads htol hsize ?_ hbytes
    obtain ⟨a, b, c, d, rfl⟩ : ∃ a b c d, head = [a, b, c, d] := by
      match head, hsize with
      | [a, b, c, d], _ => exact ⟨a, b, c, d, rfl⟩
    rw [r.length_eq]
    omega
  · intro w p s payload hbad
    exact write_refused w.sends (by omega) p s

/-- Two frames, the first from the server and the second from a TLS client, a byte at each call; they
arrive in three pieces and are read by the client and by the server.  An empty payload is refused on
both sides. -/
theorem framing_round_trip_two :
    (∃ rest, readAll (pieces [[0, 0], [0, 2, 7, 8, 0], [0, 0, 1, 9]])
      [Socket.recvFrame .little, Go.readFrame] = (.ok [[7, 8], [9]], pieces rest) ∧
        rest.flatten = []) ∧
    (∃ e rest, (Tls.recvFrame .big).read (pieces [[0, 0], [0, 0, 5]]) = (.error e, pieces rest) ∧
      rest.flatten = [5]) ∧
    ∃ e, Go.writeFrame.write (fun _ _ => ⟨1, false, ""⟩) ⟨0, []⟩ [] = (.error e, ⟨0, []⟩) := by
  have hp : Pattern.Partial fun _ _ => ⟨1, false, ""⟩ := by
    intro i n hn
    refine ⟨Int.one_pos, ?_, rfl⟩
    change (1 : ℤ) ≤ n
    omega
  obtain ⟨hround, hread, hwrite⟩ := framing_round_trip
  refine ⟨?_, ?_, hwrite .go _ _ [] (.inl rfl)⟩
  · obtain ⟨hgo, hback⟩ := hround (fun _ _ => ⟨1, false, ""⟩) ⟨0, []⟩
      [(.go, [7, 8]), (.tls .little, [9])] (by decide)
    obtain ⟨s', hs'⟩ := hgo hp
    exact (hback s' hs').2 [.socket .little, .go] _ [] rfl (fun _ _ _ => by decide) (by decide)
  · exact hread (.tls .big) _ [0, 0, 0, 0] [5] (fun _ => by decide) rfl (.inl (by decide)) rfl

end Protocol

end LanChat
