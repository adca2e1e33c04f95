import LanChat.Lib.Base64
import LanChat.Lib.Json
import LanChat.Lib.QString

/-!
# LAN discovery

The announcement that the server broadcasts (`lan_discovery.go`) and the client that reads it
(`lan_discovery_service.cpp`).  Datagrams are bytes; SHA-256, OpenSSL's reading of a certificate and
`QJsonDocument::fromJson` are parameters.  `QString::trimmed` drops the characters that
`strings.TrimSpace` drops.

* `size_marshal`: the bytes of an announcement;
* `decode_marshal`: what the decoder makes of an announcement, its two refusals included;
* `announcement_agrees_iff`: when the client finds what the server announces.
-/

namespace LanChat.Gui.Discovery

open GoStrings GoJson Base64

/-- The bytes of a text. -/
def bytesOf (s : String) : List UInt8 := s.toUTF8.data.toList

/-- `hex.EncodeToString`, and `QByteArray::toHex`. -/
def hexEncode (bytes : List UInt8) : String :=
  String.ofList (bytes.flatMap fun b => [hexDigit (b.toNat / 16), hexDigit (b.toNat % 16)])

/-! ### The server -/

/-- `lanDiscoveryService`. -/
def lanDiscoveryService : String := "lan-chat"

/-- `lanDiscoveryVersion`. -/
def lanDiscoveryVersion : ℤ := 1

/-- `lanDiscoveryAnnouncement`. -/
structure LanDiscoveryAnnouncement where
  service : String
  version : ℤ
  hostName : String
  port : ℤ
  certificateBase64 : String
  fingerprintSHA256 : String
  deriving DecidableEq

/-- The members that `json.Marshal` writes. -/
def LanDiscoveryAnnouncement.members (a : LanDiscoveryAnnouncement) : List (String × Json) :=
  [("service", .text a.service), ("version", .int a.version), ("hostName", .text a.hostName),
    ("port", .int a.port), ("certificateBase64", .text a.certificateBase64),
    ("fingerprintSha256", .text a.fingerprintSHA256)]

/-- `json.Marshal`. -/
def LanDiscoveryAnnouncement.marshal (a : LanDiscoveryAnnouncement) : ByteArray :=
  (Json.object a.members).render.toUTF8

/-- The name that is announced for a host name. -/
def announcedName (hostName : String) : String :=
  if hostName = "" then "LAN Chat Host" else hostName

section

variable (sha256 : List UInt8 → Vector UInt8 32)

/-- `buildLanDiscoveryAnnouncement`. -/
def buildLanDiscoveryAnnouncement (certificatePEM : List UInt8) (hostName : String) (port : ℤ) :
    Except String LanDiscoveryAnnouncement :=
  if certificatePEM.length = 0 then .error "discovery certificate is empty"
  else if 16 * 1024 < certificatePEM.length then .error "discovery certificate exceeds 16 KiB"
  else if port < 1 ∨ 65535 < port then .error ("invalid discovery port " ++ toString port)
  else .ok {
    service := lanDiscoveryService
    version := lanDiscoveryVersion
    hostName := announcedName hostName
    port := port
    certificateBase64 := base64Encode certificatePEM
    fingerprintSHA256 := hexEncode (sha256 certificatePEM).toList }

/-! ### The client -/

/-- `kDiscoveryVersion`. -/
def discoveryVersion : ℤ := 1

/-- `kHostLifetimeMs`. -/
def hostLifetimeMs : ℤ := 4500

/-- `kMaximumPacketSize`. -/
def maximumPacketSize : ℕ := 16 * 1024

/-- A `QHostAddress`: one of IPv4, or anything else. -/
inductive HostAddress
  | ipv4 (a b c d : UInt8)
  | other (text : String)

/-- `QHostAddress::toString`. -/
def HostAddress.toText : HostAddress → String
  | .ipv4 a b c d => toString a ++ "." ++ toString b ++ "." ++ toString c ++ "." ++ toString d
  | .other text => text

/-- Whether `protocol()` is `IPv4Protocol`. -/
def HostAddress.isIPv4 : HostAddress → Bool
  | .ipv4 .. => true
  | .other _ => false

/-- `LanDiscoveredHost`; the expiry counts milliseconds. -/
structure LanDiscoveredHost where
  id : String
  hostName : String
  serverIp : String
  serverPort : ℤ
  fingerprintSha256 : String
  certificatePem : List UInt8
  expiresAt : ℤ
  deriving DecidableEq

/-- `QJsonValue::toString`. -/
def stringOf : Option Json → String
  | some (.text s) => s
  | _ => ""

/-- `QJsonValue::toInt`, on 32 bits. -/
def intOf : Option Json → ℤ
  | some (.int n) => if -2 ^ 31 ≤ n ∧ n < 2 ^ 31 then n else 0
  | _ => 0

/-- `QByteArray::fromBase64`. -/
def fromBase64 (s : String) : List UInt8 := collect 0 0 s.toList

/-- `fingerprintFor`. -/
def fingerprintFor (certificatePem : List UInt8) : String :=
  hexEncode (sha256 certificatePem).toList

/-- What a certificate starts with. -/
def beginCertificate : List UInt8 := bytesOf "-----BEGIN CERTIFICATE-----"

variable (isValidPemCertificate : List UInt8 → Bool) (fromJson : ByteArray → Option Json)

/-- `LanDiscoveryService::decodeAnnouncement`.  The host that a caller hands over is the result, so
it is never a null pointer. -/
def decodeAnnouncement (payload : ByteArray) (sender : HostAddress) (receivedAt : ℤ) :
    Except String LanDiscoveredHost :=
  if payload.size = 0 ∨ maximumPacketSize < payload.size ∨ sender.isIPv4 = false then
    .error "Invalid LAN discovery payload."
  else
    match fromJson payload with
    | some (.object members) =>
      let object := Json.object members
      if stringOf (object.get? "service") ≠ "lan-chat" ∨
          intOf (object.get? "version") ≠ discoveryVersion then
        .error "This is not a LAN Chat room announcement."
      else
        let hostName := trimSpace (stringOf (object.get? "hostName"))
        let port := intOf (object.get? "port")
        let advertisedFingerprint :=
          QString.toLower (trimSpace (stringOf (object.get? "fingerprintSha256")))
        let certificatePem := fromBase64 (stringOf (object.get? "certificateBase64"))
        if hostName = "" ∨ port < 1 ∨ 65535 < port ∨ certificatePem = [] ∨
            maximumPacketSize < certificatePem.length ∨ ¬ beginCertificate <+: certificatePem ∨
              isValidPemCertificate certificatePem = false then
          .error "The room announcement contains an invalid certificate."
        else
          let fingerprint := fingerprintFor sha256 certificatePem
          if advertisedFingerprint.toList.length ≠ 64 ∨ advertisedFingerprint ≠ fingerprint then
            .error "The room certificate fingerprint does not match the announcement."
          else .ok {
            id := fingerprint
            hostName := hostName
            serverIp := sender.toText
            serverPort := port
            fingerprintSha256 := fingerprint
            certificatePem := certificatePem
            expiresAt := receivedAt + hostLifetimeMs }
    | _ => .error "This is not a LAN Chat room announcement."

end

/-! ### Hexadecimal texts -/

theorem length_hexEncode (bytes : List UInt8) :
    (hexEncode bytes).toList.length = 2 * bytes.length := by
  rw [hexEncode, String.toList_ofList]
  induction bytes with
  | nil => rfl
  | cons b bytes ih =>
    rw [List.flatMap_cons, List.length_append, ih]
    simp only [List.length_cons, List.length_nil]
    omega

theorem mem_hexEncode {bytes : List UInt8} {c : Char} (hc : c ∈ (hexEncode bytes).toList) :
    ∃ n < 16, c = hexDigit n := by
  rw [hexEncode, String.toList_ofList, List.mem_flatMap] at hc
  obtain ⟨b, -, hc⟩ := hc
  have hb := b.toNat_lt
  simp only [List.mem_cons, List.not_mem_nil, or_false] at hc
  rcases hc with rfl | rfl
  · exact ⟨_, by omega, rfl⟩
  · exact ⟨_, by omega, rfl⟩

/-- What holds of the sixteen digits holds of every character of such a text. -/
theorem hexEncode_all {p : Char → Bool} (hp : ∀ k : Fin 16, p (hexDigit k) = true)
    (bytes : List UInt8) : ∀ c ∈ (hexEncode bytes).toList, p c = true := by
  intro c hc
  obtain ⟨n, hn, rfl⟩ := mem_hexEncode hc
  exact hp ⟨n, hn⟩

theorem isPlain_hexEncode (bytes : List UInt8) : (hexEncode bytes).toList.all isPlain = true :=
  List.all_eq_true.2 (hexEncode_all (by decide) bytes)

/-- A text without blanks is not trimmed. -/
theorem trimSpace_of_forall {s : String} (h : ∀ c ∈ s.toList, isSpace c = false) :
    trimSpace s = s :=
  trimSpace_of_ends (fun c hc => h c (List.mem_of_mem_head? hc))
    fun c hc => h c (List.mem_of_mem_getLast? hc)

theorem trimSpace_hexEncode (bytes : List UInt8) :
    trimSpace (hexEncode bytes) = hexEncode bytes := by
  refine trimSpace_of_forall fun c hc => ?_
  have hall := hexEncode_all (p := fun c => !isSpace c) (by decide) bytes c hc
  simpa using hall

theorem toLower_hexEncode (bytes : List UInt8) :
    QString.toLower (hexEncode bytes) = hexEncode bytes := by
  refine QString.toLower_eq_self fun c hc => ?_
  have hall := hexEncode_all (p := fun c => decide (c.toNat < 0x80) && c.toLower == c) (by decide)
    bytes c hc
  simpa using hall

/-! ### The size of an announcement -/

/-- The bytes of an announcement: those of the certificate in Base64, of the host name as a JSON
string and of the digits of the port, and 164 bytes for the fingerprint, the fixed values, the
names and the punctuation. -/
def announcementSize (certificateSize : ℕ) (hostName : String) (port : ℤ) : ℕ :=
  (certificateSize + 2) / 3 * 4 + textSize hostName + (toString port).utf8ByteSize + 164

variable {sha256 : List UInt8 → Vector UInt8 32} {certificatePEM : List UInt8} {hostName : String}
  {port : ℤ} {a : LanDiscoveryAnnouncement}

/-- What a built announcement is made of. -/
theorem build_ok (h : buildLanDiscoveryAnnouncement sha256 certificatePEM hostName port = .ok a) :
    certificatePEM ≠ [] ∧ certificatePEM.length ≤ 16 * 1024 ∧ 1 ≤ port ∧ port ≤ 65535 ∧
      a = ⟨"lan-chat", 1, announcedName hostName, port, base64Encode certificatePEM,
        hexEncode (sha256 certificatePEM).toList⟩ := by
  unfold buildLanDiscoveryAnnouncement at h
  split_ifs at h with hempty hlarge hport
  cases h
  refine ⟨?_, by omega, by omega, by omega, rfl⟩
  rintro rfl
  exact hempty rfl

theorem size_marshal
    (h : buildLanDiscoveryAnnouncement sha256 certificatePEM hostName port = .ok a) :
    a.marshal.size = announcementSize certificatePEM.length (announcedName hostName) port := by
  obtain ⟨-, -, -, -, rfl⟩ := build_ok h
  have hcertificate : textSize (base64Encode certificatePEM) =
      (certificatePEM.length + 2) / 3 * 4 + 2 := by
    rw [textSize_plain (isPlain_base64Encode certificatePEM), base64Encode, String.toList_ofList,
      length_base64Chars]
  have hfingerprint : textSize (hexEncode (sha256 certificatePEM).toList) = 66 := by
    rw [textSize_plain (isPlain_hexEncode _), length_hexEncode, Vector.length_toList]
  have hsize : ∀ s : String, s.toUTF8.size = s.utf8ByteSize := fun s => rfl
  unfold LanDiscoveryAnnouncement.marshal LanDiscoveryAnnouncement.members
  rw [hsize]
  simp only [Json.render, Json.renderMembers, Json.renderMember]
  rw [size_object (by simp)]
  simp only [weight_cons, weight_nil, size_member, size_quote, hcertificate, hfingerprint]
  have hservice : textSize "lan-chat" = 10 := by decide
  have hversion : (toString (1 : ℤ)).utf8ByteSize = 1 := by decide
  have hnames : "service".utf8ByteSize = 7 ∧ "version".utf8ByteSize = 7 ∧
      "hostName".utf8ByteSize = 8 ∧ "port".utf8ByteSize = 4 ∧
        "certificateBase64".utf8ByteSize = 17 ∧ "fingerprintSha256".utf8ByteSize = 17 := by decide
  unfold announcementSize
  omega


/-! ### The announcement read -/

/-- What a JSON parser makes of the text of an object: the same members under the same names, in
whatever order it keeps them. -/
def ReadsBack (fromJson : ByteArray → Option Json) (members : List (String × Json)) : Prop :=
  ∃ members', fromJson (Json.object members).render.toUTF8 = some (.object members') ∧
    ∀ name, (Json.object members').get? name = (Json.object members).get? name

theorem fromBase64_base64Encode (bytes : List UInt8) : fromBase64 (base64Encode bytes) = bytes := by
  rw [fromBase64, base64Encode, String.toList_ofList, collect_base64Chars]

/-- Where the text of an announcement is read back, the decoder sees the fields of the
announcement: it refuses a blank name and a large datagram, and has no other reason. -/
theorem decode_marshal (isValidPemCertificate : List UInt8 → Bool)
    (fromJson : ByteArray → Option Json) (w x y z : UInt8) (receivedAt : ℤ)
    (hbuild : buildLanDiscoveryAnnouncement sha256 certificatePEM hostName port = .ok a)
    (hbegin : beginCertificate <+: certificatePEM)
    (hvalid : isValidPemCertificate certificatePEM = true)
    (hjson : ReadsBack fromJson a.members) :
    decodeAnnouncement sha256 isValidPemCertificate fromJson a.marshal (.ipv4 w x y z) receivedAt =
      if maximumPacketSize < a.marshal.size then .error "Invalid LAN discovery payload."
      else if trimSpace (announcedName hostName) = "" then
        .error "The room announcement contains an invalid certificate."
      else .ok ⟨fingerprintFor sha256 certificatePEM, trimSpace (announcedName hostName),
        (HostAddress.ipv4 w x y z).toText, port, fingerprintFor sha256 certificatePEM,
        certificatePEM, receivedAt + hostLifetimeMs⟩ := by
  have hsize := size_marshal hbuild
  have hpositive : a.marshal.size ≠ 0 := by
    rw [hsize, announcementSize]
    omega
  obtain ⟨hne, hlarge, hlow, hhigh, hfields⟩ := build_ok hbuild
  obtain ⟨members, hread, hget⟩ := hjson
  -- the decoder finds every field of the announcement
  have hservice : (Json.object members).get? "service" = some (.text "lan-chat") := by
    rw [hget, hfields]
    rfl
  have hversion : (Json.object members).get? "version" = some (.int 1) := by
    rw [hget, hfields]
    rfl
  have hname : (Json.object members).get? "hostName" = some (.text (announcedName hostName)) := by
    rw [hget, hfields]
    rfl
  have hport : (Json.object members).get? "port" = some (.int port) := by
    rw [hget, hfields]
    rfl
  have hcertificate : (Json.object members).get? "certificateBase64" =
      some (.text (base64Encode certificatePEM)) := by
    rw [hget, hfields]
    rfl
  have hfingerprint : (Json.object members).get? "fingerprintSha256" =
      some (.text (fingerprintFor sha256 certificatePEM)) := by
    rw [hget, hfields]
    rfl
  have hint : intOf (some (.int port)) = port := if_pos (by omega)
  -- and the fingerprint it computes is the one announced
  have htext : ∀ s : String, stringOf (some (.text s)) = s := fun _ => rfl
  have hadvertised : QString.toLower (trimSpace (fingerprintFor sha256 certificatePEM)) =
      fingerprintFor sha256 certificatePEM := by
    rw [fingerprintFor, trimSpace_hexEncode, toLower_hexEncode]
  have hlength : (fingerprintFor sha256 certificatePEM).toList.length = 64 := by
    rw [fingerprintFor, length_hexEncode, Vector.length_toList]
  unfold decodeAnnouncement
  by_cases hpacket : maximumPacketSize < a.marshal.size
  · rw [if_pos (.inr (.inl hpacket)), if_pos hpacket]
  rw [if_neg hpacket, if_neg (by simp [hpositive, hpacket, HostAddress.isIPv4]),
    LanDiscoveryAnnouncement.marshal, hread]
  dsimp only
  rw [hservice, hversion, hname, hport, hcertificate, hfingerprint, hint]
  rw [if_neg (by decide)]
  rw [htext, htext, htext, fromBase64_base64Encode, hadvertised]
  by_cases hblank : trimSpace (announcedName hostName) = ""
  · rw [if_pos (.inl hblank), if_pos hblank]
  · rw [if_neg hblank, if_neg, if_neg (by simp [hlength])]
    rintro (h | h | h | h | h | h | h)
    · exact hblank h
    · omega
    · omega
    · exact hne h
    · exact absurd hlarge (Nat.not_le.2 h)
    · exact h hbegin
    · rw [hvalid] at h
      cases h


/-- Whatever is accepted has a name, a port and a certificate, and its id is the digest of the
certificate. -/
theorem decode_ok {isValidPemCertificate : List UInt8 → Bool} {fromJson : ByteArray → Option Json}
    {payload : ByteArray} {sender : HostAddress} {receivedAt : ℤ} {host : LanDiscoveredHost}
    (h : decodeAnnouncement sha256 isValidPemCertificate fromJson payload sender receivedAt =
      .ok host) :
    host.hostName ≠ "" ∧ 1 ≤ host.serverPort ∧ host.serverPort ≤ 65535 ∧
      beginCertificate <+: host.certificatePem ∧ isValidPemCertificate host.certificatePem = true ∧
        host.id = fingerprintFor sha256 host.certificatePem ∧ host.fingerprintSha256 = host.id ∧
          host.serverIp = sender.toText ∧ sender.isIPv4 = true ∧
            host.expiresAt = receivedAt + hostLifetimeMs := by
  unfold decodeAnnouncement at h
  split_ifs at h with hpacket
  simp only [not_or, Bool.not_eq_false] at hpacket
  split at h
  · dsimp only at h
    split_ifs at h with hservice hhost hfingerprint
    cases h
    simp only [not_or, not_not, Bool.not_eq_false] at hhost
    obtain ⟨hname, hlow, hhigh, -, -, hbegin, hvalid⟩ := hhost
    exact ⟨hname, Int.not_lt.1 hlow, Int.not_lt.1 hhigh, hbegin, hvalid, rfl, rfl, rfl,
      hpacket.2.2, rfl⟩
  · cases h

/-- The encoder and the decoder agree on the host names that are not blank and the announcements of
at most 16 KiB, and on no others. -/
theorem announcement_agrees_iff (sha256 : List UInt8 → Vector UInt8 32)
    (isValidPemCertificate : List UInt8 → Bool) (fromJson : ByteArray → Option Json)
    {certificatePEM : List UInt8} {hostName : String} {port : ℤ} {a : LanDiscoveryAnnouncement}
    (w x y z : UInt8) (receivedAt : ℤ)
    (hbuild : buildLanDiscoveryAnnouncement sha256 certificatePEM hostName port = .ok a)
    (hbegin : beginCertificate <+: certificatePEM)
    (hvalid : isValidPemCertificate certificatePEM = true)
    (hjson : ReadsBack fromJson a.members) :
    (∃ host, decodeAnnouncement sha256 isValidPemCertificate fromJson a.marshal (.ipv4 w x y z)
        receivedAt = .ok host ∧ host.serverPort = port ∧ host.certificatePem = certificatePEM ∧
          host.id = hexEncode (sha256 certificatePEM).toList ∧
            host.hostName = trimSpace (announcedName hostName)) ↔
      trimSpace (announcedName hostName) ≠ "" ∧
        announcementSize certificatePEM.length (announcedName hostName) port ≤
          maximumPacketSize := by
  have hdecode := decode_marshal isValidPemCertificate fromJson w x y z receivedAt hbuild hbegin
    hvalid hjson
  rw [hdecode, ← size_marshal hbuild]
  constructor
  · rintro ⟨host, hhost, -⟩
    split_ifs at hhost with hpacket hblank
    exact ⟨hblank, Nat.not_lt.1 hpacket⟩
  · rintro ⟨hname, hsize⟩
    rw [if_neg (Nat.not_lt.2 hsize), if_neg hname]
    exact ⟨_, rfl, rfl, rfl, rfl, rfl⟩

/-- The lines of the certificate of the client's tests. -/
def testLines : List String :=
  ["-----BEGIN CERTIFICATE-----",
    "MIIDGzCCAgOgAwIBAgIUHHbWjw/fauIAEC6cdc7j8aAk3pEwDQYJKoZIhvcNAQEL",
    "BQAwHTEbMBkGA1UEAwwSbGFuLWRpc2NvdmVyeS10ZXN0MB4XDTI2MDgyNDAwMzIx",
    "NloXDTI2MDgyNTAwMzIxNlowHTEbMBkGA1UEAwwSbGFuLWRpc2NvdmVyeS10ZXN0",
    "MIIBIjANBgkqhkiG9w0BAQEFAAOCAQ8AMIIBCgKCAQEApD7Yzu8zutlo1tSQs2Lf",
    "Fqf+jwOu6eqZSkgFTAqPtks5wltaYJ32ZP/ohuWbKzZ64qJXx+EdQUkDg8t05WB2",
    "BmBHFe1CeplU4gXPaA77y33J013/qa0cRMeCZBngP7ayOTp7pGoTdSJffR9SufSP",
    "4UeUSewmrN82eqN/WfWoz/csi4nQ432bmKA6NfJdpgb73O84LRMXFeDicz6sNsNy",
    "TdYIwo7LDjLr7ZT5dHhhJiEj4pf33BkOSGbdsP5PVPJp6odONPoUJzyXVWnVF9iM",
    "Eonlb7H7sQwVw8nWqsl8K4HvyxvBI5r/cN9+Zd/izWmJnURHqJRnZMs05/QS4UnP",
    "twIDAQABo1MwUTAdBgNVHQ4EFgQU+47+eybR83ltYMS4o/0f+MgoKhYwHwYDVR0j",
    "BBgwFoAU+47+eybR83ltYMS4o/0f+MgoKhYwDwYDVR0TAQH/BAUwAwEB/zANBgkq",
    "hkiG9w0BAQsFAAOCAQEAHeZhKQoAAo6Q0wIt0Wo0eZvH60EhT8pTDToiyFnSPhDo",
    "J2wgc+gwAe/zPjs5npahUUDe2n0rXApa9G/cPW9J7qPRcF6v0+131SxEGLqf5jAj",
    "HhAgJx56HQfuB/r8ZD/5tM+vCZG2aMDwjFIEsU8WUpNwOGz5km1edjaXABb3OiIl",
    "6+oiUdqD/Y0QrNQ2BT7tKA26wniQPlmzuI1zg4ItAKbTI+hmHDvmxUDEqWH6mXVh",
    "5aGcCZIjZnp6eUYw/HHwB92BPVU7KMrRVnVZynUmHfZOekvioufws4Ac1ay2L5Zs",
    "SG0LQLgbxh8BloRWF5d0zK7simah/3GdRAcXn3XeQQ==",
    "-----END CERTIFICATE-----"]

/-- The certificate of the client's tests. -/
def testCertificate : List UInt8 := testLines.flatMap fun line => bytesOf line ++ [10]

/-- Its digest. -/
def testDigest : Vector UInt8 32 :=
  ⟨⟨[92, 194, 59, 201, 216, 11, 11, 202, 204, 141, 239, 246, 228, 175, 53, 206, 229, 24, 39, 226,
    224, 154, 65, 223, 43, 130, 11, 174, 48, 57, 32, 81]⟩, rfl⟩

/-- A file of twelve certificates. -/
def testBundle : List UInt8 := (List.replicate 12 testCertificate).flatten

/-- Its digest. -/
def bundleDigest : Vector UInt8 32 :=
  ⟨⟨[58, 4, 218, 73, 151, 230, 167, 155, 222, 1, 148, 165, 218, 151, 128, 213, 36, 172, 185, 113,
    112, 135, 58, 184, 248, 223, 46, 151, 105, 180, 156, 102]⟩, rfl⟩

theorem length_testCertificate : testCertificate.length = 1139 := by decide +kernel

theorem beginCertificate_prefix : beginCertificate <+: testCertificate := by
  rw [testCertificate, testLines, List.flatMap_cons, List.append_assoc]
  exact List.prefix_append _ _

theorem length_testBundle : testBundle.length = 13668 := by
  unfold testBundle
  rw [List.length_flatten, List.map_replicate, List.sum_replicate, length_testCertificate]
  rfl

theorem announcement_agrees_test :
    let a : LanDiscoveryAnnouncement := ⟨"lan-chat", 1, "Alice's PC", 8888,
      base64Encode testCertificate, hexEncode testDigest.toList⟩
    buildLanDiscoveryAnnouncement (fun _ => testDigest) testCertificate "Alice's PC" 8888 = .ok a ∧
      ∃ host, decodeAnnouncement (fun _ => testDigest) (fun c => c == testCertificate)
        (fun _ => some (.object a.members)) a.marshal (.ipv4 192 168 8 23) 0 = .ok host ∧
          host.serverPort = 8888 ∧ host.certificatePem = testCertificate ∧
            host.id = hexEncode testDigest.toList ∧ host.hostName = "Alice's PC" := by
  intro a
  have hbuild : buildLanDiscoveryAnnouncement (fun _ => testDigest) testCertificate "Alice's PC"
      8888 = .ok a := by
    unfold buildLanDiscoveryAnnouncement
    rw [length_testCertificate]
    rfl
  have hsize : announcementSize testCertificate.length (announcedName "Alice's PC") 8888 ≤
      maximumPacketSize := by
    rw [length_testCertificate]
    decide
  exact ⟨hbuild, (announcement_agrees_iff (fun _ => testDigest) (fun c => c == testCertificate)
    (fun _ => some (.object a.members)) 192 168 8 23 0 hbuild beginCertificate_prefix
    (beq_self_eq_true _) ⟨a.members, rfl, fun _ => rfl⟩).2 ⟨by decide, hsize⟩⟩

/-- A file of 13668 bytes is announced in a datagram of more than 16 KiB, which no client reads. -/
theorem bundle_announcement_refused :
    let a : LanDiscoveryAnnouncement := ⟨"lan-chat", 1, "Alice's PC", 8888,
      base64Encode testBundle, hexEncode bundleDigest.toList⟩
    buildLanDiscoveryAnnouncement (fun _ => bundleDigest) testBundle "Alice's PC" 8888 = .ok a ∧
      testBundle.length ≤ 16 * 1024 ∧ beginCertificate <+: testBundle ∧
        decodeAnnouncement (fun _ => bundleDigest) (fun c => c == testBundle)
          (fun _ => some (.object a.members)) a.marshal (.ipv4 192 168 8 23) 0 =
            .error "Invalid LAN discovery payload." := by
  intro a
  have hbuild : buildLanDiscoveryAnnouncement (fun _ => bundleDigest) testBundle "Alice's PC"
      8888 = .ok a := by
    unfold buildLanDiscoveryAnnouncement
    rw [length_testBundle]
    rfl
  have hbegin : beginCertificate <+: testBundle := by
    obtain ⟨rest, hrest⟩ := beginCertificate_prefix
    refine ⟨rest ++ (List.replicate 11 testCertificate).flatten, ?_⟩
    rw [← List.append_assoc, hrest]
    rfl
  refine ⟨hbuild, by rw [length_testBundle]; decide, hbegin, ?_⟩
  have hdecode := decode_marshal (fun c => c == testBundle) (fun _ => some (.object a.members)) 192
    168 8 23 0 hbuild hbegin (beq_self_eq_true _) ⟨a.members, rfl, fun _ => rfl⟩
  refine hdecode.trans (if_pos ?_)
  rw [size_marshal hbuild, length_testBundle]
  decide

end LanChat.Gui.Discovery
