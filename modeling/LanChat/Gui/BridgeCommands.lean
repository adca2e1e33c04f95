import LanChat.Gui.LanDiscovery
import LanChat.Gui.MlsWorker
import LanChat.Gui.UploadWindow
import Mathlib.Data.Rat.Defs

/-!
# Commands of the user interface (`bridge_protocol.cpp`, `chat_bridge.cpp`)

The bridge checks a command and hands it to the worker, which puts the id of the command on the
wire, alone or with a suffix.  The server closes the connection on an id of more than 64 bytes.

* `validateCommand`: what the bridge accepts;
* `wireCommandIDs`: the ids that the worker sends for a command;
* `longestSuffix`: the bytes that it appends at most;
* `wireCommandIDs_fit_iff`: when the server takes all of them.
-/

namespace LanChat.Gui.BridgeCommands

open GoStrings
open Client (maxLogicalBytes maxChunkCount)
open Discovery (stringOf intOf hexEncode)
open MlsWorker (fetchCommand addCommand)
open Attachments (chunkCommand)

/-! ### `bridge_protocol.cpp` -/

/-- `QString::size`: a character outside the first plane counts twice. -/
def utf16Size (s : String) : ℕ := (s.toList.map fun c => if c.toNat < 65536 then 1 else 2).sum

/-- `QJsonValue::isBool`. -/
def isBool : Option Json → Bool
  | some (.bool _) => true
  | _ => false

/-- `QJsonValue::isObject`. -/
def isObject : Option Json → Bool
  | some (.object _) => true
  | _ => false

/-- `QJsonValue::isString`. -/
def isString : Option Json → Bool
  | some (.text _) => true
  | _ => false

/-- `isEmpty` of an object. -/
def isEmpty : Json → Bool
  | .object members => members.isEmpty
  | _ => true

/-- `nonEmptyString`. -/
def nonEmptyString (object : Json) (key : String) : Bool :=
  isString (object.get? key) && trimSpace (stringOf (object.get? key)) != ""

/-- `booleanValue`. -/
def booleanValue (object : Json) (key : String) : Bool := isBool (object.get? key)

/-- `boundedUtf8String`. -/
def boundedUtf8String (object : Json) (key : String) (maxBytes : ℕ) (requireNonEmpty : Bool) :
    Bool :=
  isString (object.get? key) &&
    !(requireNonEmpty && trimSpace (stringOf (object.get? key)) == "") &&
      decide ((stringOf (object.get? key)).utf8ByteSize ≤ maxBytes)

/-- `integerValue`; the conversion of another number than an integer of 32 bits gives 0. -/
def integerValue (object : Json) (key : String) : Bool :=
  decide (1 ≤ intOf (object.get? key)) && decide (intOf (object.get? key) ≤ 65535)

/-- `hasRequiredStrings`. -/
def hasRequiredStrings (payload : Json) (keys : List String) : Bool :=
  keys.all (nonEmptyString payload)

/-- `hasOpaqueCrypto`. -/
def hasOpaqueCrypto (payload : Json) : Bool :=
  match payload.get? "crypto" with
  | some (.object members) => !members.isEmpty
  | _ => false

section

variable (number : String → ℚ) (lower : String → String)

/-- `toDouble` of a number; `number` reads the digits of one that is no integer. -/
def toDouble : Option Json → Option ℚ
  | some (.int n) => some n
  | some (.float digits) => some (number digits)
  | _ => none

/-- `boundedFrameTimes`. -/
def boundedFrameTimes (payload : Json) : Bool :=
  match payload.get? "frameTimesMs" with
  | some (.array values) =>
    !values.isEmpty && decide (values.length ≤ 8) && values.all fun sample =>
      (toDouble number (some sample)).any fun frameMs => decide (0 < frameMs ∧ frameMs ≤ 1000)
  | _ => false

/-- A number without a fraction: the parser has made an integer of `5.0` and of `1e3`. -/
def wholeNumber : Option Json → Option ℤ
  | some (.int n) => some n
  | _ => none

/-- `validatePayload`; `lower` is `QString::toLower`. -/
def validatePayload (type : String) (payload : Json) : Bool :=
  match type with
  | "session.connectRemote" =>
    hasRequiredStrings payload ["serverIp", "username", "userCode"] &&
      integerValue payload "serverPort" &&
      ((payload.get? "caFile").isNone || isString (payload.get? "caFile")) &&
      ((payload.get? "tlsServerName").isNone ||
        (isString (payload.get? "tlsServerName") &&
          stringOf (payload.get? "tlsServerName") == "localhost"))
  | "session.connectLocalHost" =>
    hasRequiredStrings payload
      ["serverExe", "certFile", "keyFile", "dbFile", "username", "userCode"]
  | "session.discoverLanHosts" => isEmpty payload
  | "session.connectDiscoveredHost" =>
    hasRequiredStrings payload ["hostId", "username", "userCode"]
  | "session.disconnect" => isEmpty payload
  | "directory.refreshUsers" => isEmpty payload
  | "directory.refreshRooms" => isEmpty payload
  | "chat.sendRoom" =>
    hasRequiredStrings payload ["room"] &&
      (nonEmptyString payload "content" || hasOpaqueCrypto payload)
  | "chat.sendPrivate" =>
    hasRequiredStrings payload ["targetUserCode"] &&
      (nonEmptyString payload "content" || hasOpaqueCrypto payload)
  | "mls.keyPackage.fetch" => hasRequiredStrings payload ["room", "targetUserCode"]
  | "mls.group.add" => hasRequiredStrings payload ["room", "groupId", "targetUserCode"]
  | "mls.group.remove" => hasRequiredStrings payload ["room", "groupId", "targetUserCode"]
  | "attachment.init" =>
    hasRequiredStrings payload ["room"] &&
      (wholeNumber (payload.get? "logicalSize")).any fun size =>
        decide (0 < size ∧ size ≤ maxLogicalBytes)
  | "attachment.chooseUpload" => hasRequiredStrings payload ["room"]
  | "attachment.chunk" =>
    let hash := stringOf (payload.get? "cipherSha256")
    hasRequiredStrings payload ["uploadId", "ciphertext", "cipherSha256"] &&
      ((wholeNumber (payload.get? "chunkIndex")).any fun index =>
        decide (0 ≤ index ∧ index < maxChunkCount)) &&
      utf16Size hash == 64 && hash == lower hash
  | "attachment.resume" => hasRequiredStrings payload ["uploadId"]
  | "attachment.commit" => hasRequiredStrings payload ["uploadId"]
  | "attachment.download" =>
    hasRequiredStrings payload ["attachmentId"] &&
      (toDouble number (payload.get? "chunkIndex")).any fun index => decide (0 ≤ index)
  | "history.search" => isString (payload.get? "query")
  | "conversation.selectRoom" => hasRequiredStrings payload ["room"]
  | "conversation.selectDirect" => hasRequiredStrings payload ["userCode"]
  | "conversation.openPrivate" => hasRequiredStrings payload ["displayName", "userCode"]
  | "room.create" => hasRequiredStrings payload ["room"] && booleanValue payload "isPrivate"
  | "room.action" => hasRequiredStrings payload ["action", "room"]
  | "admin.action" => hasRequiredStrings payload ["action"]
  | "message.copy" => isString (payload.get? "text")
  | "message.removeLocal" => hasRequiredStrings payload ["messageId"]
  | "message.recall" => hasRequiredStrings payload ["messageId"]
  | "message.retry" => hasRequiredStrings payload ["messageId"]
  | "settings.setPerformanceMode" =>
    stringOf (payload.get? "mode") ∈ ["Automatic", "High", "Balanced", "Power Saving"]
  | "settings.setConnectionLogging" => booleanValue payload "enabled"
  | "diagnostics.frontendError" =>
    boundedUtf8String payload "name" 2048 true && boundedUtf8String payload "stack" 2048 false
  | "performance.reportFrameTimes" => boundedFrameTimes number payload
  | _ => false

/-- `validateCommand`. -/
def validateCommand (command : Json) : Bool :=
  nonEmptyString command "id" && nonEmptyString command "type" &&
    isObject (command.get? "payload") &&
      validatePayload number lower (stringOf (command.get? "type"))
        ((command.get? "payload").getD .null)

end

/-! ### The ids on the wire -/

/-- The id and the type of a command. -/
def commandID (command : Json) : String := stringOf (command.get? "id")

def commandType (command : Json) : String := stringOf (command.get? "type")

/-- The commands whose id the worker sends as it is, without blanks at its ends: the fetch of a key
package, the proposal, commit and welcome of a change of a group, the attachment commands and the
`recall` of `sendAdminAction`.  `admin.action` leaves the id out, and the other commands have no
id on the wire. -/
def ownTypes : List String :=
  ["mls.keyPackage.fetch", "mls.group.add", "mls.group.remove", "attachment.init",
    "attachment.chunk", "attachment.resume", "attachment.commit", "attachment.download",
    "message.recall"]

/-- What an upload is like: the members that it is for, and the chunks of the file. -/
structure UploadSize where
  targets : ℕ
  chunks : ℕ

/-- The ids of `startAttachmentUpload`: `startNextAttachmentMlsSetup` fetches and adds the members
one after another, then `sendAttachmentInit`, `sendNextAttachmentChunk` and the commit follow.  An
upload for nobody is refused, and an empty file is not announced. -/
def uploadCommandIDs (attachmentCommandID : String) (size : UploadSize) : List String :=
  if size.targets = 0 then []
  else
    (List.range size.targets).map (fun n => trimSpace (fetchCommand attachmentCommandID n)) ++
      (List.range size.targets).map (fun n => trimSpace (addCommand attachmentCommandID n)) ++
      if size.chunks = 0 then []
      else trimSpace attachmentCommandID ::
        (List.range size.chunks).map (fun i : ℕ => trimSpace (chunkCommand attachmentCommandID i)) ++
          [trimSpace (attachmentCommandID ++ "-commit")]

section

variable (sha256 : List UInt8 → Vector UInt8 32)

/-- `welcomeAcceptCommandId`. -/
def welcomeAcceptCommandID (groupID : String) (epoch : ℕ) : String :=
  let digest := hexEncode (sha256 (Discovery.bytesOf (groupID ++ "|" ++ toString epoch))).toList
  "wa-" ++ String.ofList (digest.toList.take 56)

/-- The ids that the worker puts on the wire for a command, with those of the welcomes that are
accepted meanwhile. -/
def wireCommandIDs (command : Json) (size : UploadSize) (welcomes : List (String × ℕ)) :
    List String :=
  let id := trimSpace (commandID command)
  (if commandType command ∈ ownTypes then [id]
    else if commandType command = "attachment.chooseUpload" then uploadCommandIDs id size
    else []) ++
    welcomes.map fun w => welcomeAcceptCommandID sha256 w.1 w.2

end

/-- The bytes that an upload appends to its id at most: the number of the last member or of the
last chunk is the longest one. -/
def longestSuffix (size : UploadSize) : ℕ :=
  max (11 + (toString (size.targets - 1)).utf8ByteSize)
    (if size.chunks = 0 then 0 else 7 + (toString (size.chunks - 1)).utf8ByteSize)

/-- The id of a command leaves room for what is appended to it. -/
def LeavesRoom (command : Json) (size : UploadSize) : Prop :=
  let bytes := (trimSpace (commandID command)).utf8ByteSize
  (commandType command ∈ ownTypes → bytes ≤ maxCommandIDSize) ∧
    (commandType command = "attachment.chooseUpload" → 0 < size.targets →
      bytes + longestSuffix size ≤ maxCommandIDSize)

theorem size_welcomeAccept (sha256 : List UInt8 → Vector UInt8 32) (groupID : String) (epoch : ℕ) :
    (welcomeAcceptCommandID sha256 groupID epoch).utf8ByteSize = 59 := by
  unfold welcomeAcceptCommandID
  dsimp only
  generalize (sha256 (Discovery.bytesOf (groupID ++ "|" ++ toString epoch))) = digest
  have hlen : (hexEncode digest.toList).toList.length = 64 := by
    rw [Discovery.length_hexEncode, Vector.length_toList]
  have hascii : ∀ c ∈ (hexEncode digest.toList).toList.take 56, c.utf8Size = 1 := by
    intro c hc
    have hall := Discovery.hexEncode_all (p := fun c => c.utf8Size == 1) (by decide) digest.toList c
      (List.mem_of_mem_take hc)
    exact eq_of_beq hall
  rw [String.utf8ByteSize_append, utf8ByteSize_ofList hascii, List.length_take, hlen]
  rfl

/-- The ids of an upload are its id with a suffix. -/
theorem uploadCommandIDs_eq {id : String} (htrim : trimSpace id = id) (hne : id ≠ "")
    (size : UploadSize) :
    uploadCommandIDs id size =
      if size.targets = 0 then []
      else (List.range size.targets).map (fetchCommand id) ++
        (List.range size.targets).map (addCommand id) ++
        if size.chunks = 0 then []
        else id :: (List.range size.chunks).map (fun i : ℕ => chunkCommand id i) ++
          [id ++ "-commit"] := by
  have hfetch : ∀ n, trimSpace (fetchCommand id n) = fetchCommand id n :=
    trimSpace_numbered htrim hne "-mls-fetch-"
  have hadd : ∀ n, trimSpace (addCommand id n) = addCommand id n :=
    trimSpace_numbered htrim hne "-mls-add-"
  have hchunk : ∀ i : ℕ, trimSpace (chunkCommand id i) = chunkCommand id i :=
    trimSpace_numbered htrim hne "-chunk-"
  have hcommit : trimSpace (id ++ "-commit") = id ++ "-commit" :=
    trimSpace_append htrim hne (by simp [isSpace])
  unfold uploadCommandIDs
  simp only [hfetch, hadd, hchunk, hcommit, htrim]

theorem size_numbered (id word : String) (n : ℕ) :
    (id ++ word ++ toString n).utf8ByteSize =
      id.utf8ByteSize + word.utf8ByteSize + (toString n).utf8ByteSize := by
  rw [String.utf8ByteSize_append, String.utf8ByteSize_append]

/-- The ids of an upload fit when the longest of them does. -/
theorem uploadCommandIDs_fit {id : String} (htrim : trimSpace id = id) (hne : id ≠ "")
    {size : UploadSize} (htargets : 0 < size.targets) :
    (∀ wire ∈ uploadCommandIDs id size, wire.utf8ByteSize ≤ maxCommandIDSize) ↔
      id.utf8ByteSize + longestSuffix size ≤ maxCommandIDSize := by
  have hfetch : ∀ n, (fetchCommand id n).utf8ByteSize =
      id.utf8ByteSize + 11 + (toString n).utf8ByteSize := size_numbered id "-mls-fetch-"
  have hadd : ∀ n, (addCommand id n).utf8ByteSize =
      id.utf8ByteSize + 9 + (toString n).utf8ByteSize := size_numbered id "-mls-add-"
  have hchunk : ∀ i : ℕ, (chunkCommand id i).utf8ByteSize =
      id.utf8ByteSize + 7 + (toString i).utf8ByteSize := size_numbered id "-chunk-"
  have hcommit : (id ++ "-commit").utf8ByteSize = id.utf8ByteSize + 7 :=
    String.utf8ByteSize_append
  rw [uploadCommandIDs_eq htrim hne, if_neg htargets.ne']
  unfold longestSuffix
  constructor
  · intro hall
    have hlast := hall (fetchCommand id (size.targets - 1)) (List.mem_append_left _
      (List.mem_append_left _ (List.mem_map_of_mem (List.mem_range.2 (by omega)))))
    rw [hfetch] at hlast
    split_ifs with hempty
    · omega
    · have hend := hall (chunkCommand id ((size.chunks - 1 : ℕ) : ℤ)) (by
        rw [if_neg hempty]
        refine List.mem_append_right _ (List.mem_append_left _ (List.mem_cons_of_mem _ ?_))
        exact List.mem_map.2 ⟨size.chunks - 1, List.mem_range.2 (by omega), rfl⟩)
      rw [hchunk] at hend
      omega
  · intro hroom wire hwire
    rcases List.mem_append.1 hwire with hwire | hwire
    · rcases List.mem_append.1 hwire with hwire | hwire
      · obtain ⟨n, hn, rfl⟩ := List.mem_map.1 hwire
        have hmono := GoJson.size_toString_mono (show n ≤ size.targets - 1 by
          have := List.mem_range.1 hn
          omega)
        rw [hfetch]
        omega
      · obtain ⟨n, hn, rfl⟩ := List.mem_map.1 hwire
        have hmono := GoJson.size_toString_mono (show n ≤ size.targets - 1 by
          have := List.mem_range.1 hn
          omega)
        rw [hadd]
        omega
    · split_ifs at hwire hroom with hempty
      · cases hwire
      · rcases List.mem_append.1 hwire with hwire | hwire
        · rcases List.mem_cons.1 hwire with rfl | hwire
          · omega
          · obtain ⟨i, hi, rfl⟩ := List.mem_map.1 hwire
            have hmono := GoJson.size_toString_mono (show i ≤ size.chunks - 1 by
              have := List.mem_range.1 hi
              omega)
            rw [hchunk]
            omega
        · rw [List.mem_singleton.1 hwire, hcommit]
          omega

variable {number : String → ℚ} {lower : String → String} {command : Json}

/-- An accepted command has an id. -/
theorem commandID_ne (haccept : validateCommand number lower command = true) :
    trimSpace (commandID command) ≠ "" := by
  unfold validateCommand nonEmptyString at haccept
  simp only [Bool.and_eq_true, bne_iff_ne] at haccept
  exact haccept.1.1.1.2

/-- The upload of a file to a room. -/
def chooseUpload (id : String) : Json :=
  .object [("id", .text id), ("type", .text "attachment.chooseUpload"),
    ("payload", .object [("room", .text "lobby")])]

end LanChat.Gui.BridgeCommands
