import LanChat.Lib.Utf8
import LanChat.Message
import Mathlib.Data.List.TakeWhile

/-!
# Identities as texts (`command.cpp`, `gui_chat_controller.cpp`)

An identity is written `username#code`, and `username#code@room` in the list of the users.  The
server takes any name of at most 32 bytes, and two clients take such texts apart again.

* `parsePrivateMessage`: the command `/msg` of the console client, on bytes;
* `usersEntry`: an entry of the list, when the desktop client gets no more than the list; it is the
  text that the bytes of the entry encode;
* `Plain`: the names that the console client can be told;
* `identities_round_trip`: which identities survive.
-/

namespace LanChat.Identities

open GoStrings Utf8

/-! ### `command.cpp` -/

/-- `std::isspace`. -/
def isSpaceByte (b : UInt8) : Bool := b ∈ ['\t', '\n', '\x0b', '\x0c', '\r', ' '].map byte

/-- `is_ascii_alphanumeric`. -/
def isAlnumByte (b : UInt8) : Bool :=
  (byte 'a' ≤ b && b ≤ byte 'z') || (byte 'A' ≤ b && b ≤ byte 'Z') ||
    (byte '0' ≤ b && b ≤ byte '9')

/-- A byte that ends the target of a command. -/
def endsTarget (b : UInt8) : Bool := b ∈ [' ', '\t', '\r', '\n'].map byte

/-- `is_valid_code`. -/
def isValidCode (code : List UInt8) : Bool := !code.isEmpty && code.all isAlnumByte

/-- `skip_spaces`, from the position where `input` starts. -/
def skipSpaces (input : List UInt8) : List UInt8 := input.dropWhile isSpaceByte

/-- `is_private_message_command`. -/
def isPrivateMessageCommand (input : List UInt8) : Bool :=
  input == "/msg".toList.map byte ||
    (("/msg".toList.map byte).isPrefixOf input && (input[4]?).any isSpaceByte)

/-- `PrivateMessageCommand`. -/
structure PrivateMessageCommand where
  targetName : List UInt8
  targetUserCode : List UInt8
  content : List UInt8
  deriving DecidableEq, Repr

/-- The target of a command at its separator: what is before it, and what is after it. -/
def splitTarget (target : List UInt8) : Option (List UInt8 × List UInt8) :=
  let name := target.takeWhile (· != byte '#')
  let code := (target.dropWhile (· != byte '#')).drop 1
  if byte '#' ∉ target ∨ name = [] ∨ code = [] ∨ byte '#' ∈ code then none
  else some (name, code)

/-- `parse_private_message`. -/
def parsePrivateMessage (input : List UInt8) : Option PrivateMessageCommand :=
  if !isPrivateMessageCommand input then none
  else
    let rest := skipSpaces (input.drop 5)
    let target := rest.takeWhile fun b => !endsTarget b
    if rest = [] ∨ target = [] then none
    else match splitTarget target with
      | none => none
      | some (targetName, targetUserCode) =>
        let content := skipSpaces (rest.drop target.length)
        if !isValidCode targetUserCode then none
        else if content = [] then none
        else some { targetName, targetUserCode, content }

/-! ### `gui_chat_controller.cpp` -/

/-- `QString::indexOf`, from a position on. -/
def indexOf (text : List Char) (c : Char) (start : ℕ) : ℤ :=
  if c ∈ text.drop start then start + ((text.drop start).takeWhile (· != c)).length else -1

/-- `QString::mid`; a negative length stands for the whole rest. -/
def mid (text : List Char) (position : ℕ) (n : ℤ) : List Char :=
  if n < 0 then text.drop position else (text.drop position).take n.toNat

/-- `userDetails` of one user, as far as the list of identities has them. -/
structure ListedUser where
  name : String
  code : String
  room : String
  deriving DecidableEq, Repr

/-- An entry of `users`, when there are no `userDetails`. -/
def usersEntry (entry : String) : ListedUser :=
  let identity := entry.toList
  let hash := indexOf identity '#' 0
  let roomSeparator := indexOf identity '@' (hash + 1).toNat
  { name := if 0 < hash then String.ofList (identity.take hash.toNat) else entry
    code :=
      if 0 < hash then
        String.ofList (mid identity (hash + 1).toNat
          (if hash < roomSeparator then roomSeparator - hash - 1 else -1))
      else ""
    room :=
      if hash < roomSeparator then String.ofList (identity.drop (roomSeparator + 1).toNat)
      else "lobby" }

/-! ### Texts of identities -/

/-- The command for a private message. -/
def messageCommand (username code : String) (content : List UInt8) : List UInt8 :=
  bytes ("/msg " ++ username ++ "#" ++ code ++ " ") ++ content

/-- `handleRequestUsers`, for one client. -/
def entryOf (username code room : String) : String := username ++ "#" ++ code ++ "@" ++ room

/-- A name that the console client can be told: there is no separator in it, and no blank that ends
it or is skipped before it. -/
def Plain (username : String) : Prop :=
  (∀ c ∈ ['#', ' ', '\t', '\r', '\n'], c ∉ username.toList) ∧
    ∀ c ∈ ['\x0b', '\x0c'], username.toList.head? ≠ some c

/-- A name of bytes that the console client can be told. -/
def PlainBytes (name : List UInt8) : Prop :=
  (∀ b ∈ name, b ≠ byte '#' ∧ endsTarget b = false) ∧ ∀ b ∈ name.head?, isSpaceByte b = false

theorem plainBytes_iff (username : String) : PlainBytes (bytes username) ↔ Plain username := by
  have hends : ∀ b, (b ≠ byte '#' ∧ endsTarget b = false) ↔
      ∀ c ∈ ['#', ' ', '\t', '\r', '\n'], b ≠ byte c := by
    intro b
    simp [endsTarget]
  have hspace : ∀ b, isSpaceByte b = false ↔
      ∀ c ∈ ['\t', '\n', '\x0b', '\x0c', '\r', ' '], b ≠ byte c := by
    intro b
    simp [isSpaceByte]
  have hsmall : ∀ c ∈ ['#', ' ', '\t', '\r', '\n'], c.toNat < 128 := by simp
  have hblank : ∀ c ∈ ['\x0b', '\x0c'], c.toNat < 128 ∧
      c ∈ ['\t', '\n', '\x0b', '\x0c', '\r', ' '] := by simp
  have hone : ∀ c ∈ ['\t', '\n', '\x0b', '\x0c', '\r', ' '], c.toNat < 128 ∧
      (c ∈ ['#', ' ', '\t', '\r', '\n'] ∨ c ∈ ['\x0b', '\x0c']) := by simp
  unfold PlainBytes Plain
  constructor
  · rintro ⟨hall, hhead⟩
    constructor
    · intro c hc hmem
      have hbyte := (mem_bytes_iff (hsmall c hc)).2 hmem
      exact (hends _).1 (hall _ hbyte) c hc rfl
    · intro c hc hfirst
      have hbyte := (head_bytes_iff (hblank c hc).1).2 hfirst
      exact (hspace _).1 (hhead _ hbyte) c (hblank c hc).2 rfl
  · rintro ⟨hall, hhead⟩
    constructor
    · intro b hb
      refine (hends b).2 fun c hc hbyte => hall c hc ?_
      exact (mem_bytes_iff (hsmall c hc)).1 (hbyte ▸ hb)
    · intro b hb
      refine (hspace b).2 fun c hc hbyte => ?_
      have hfirst : username.toList.head? = some c :=
        (head_bytes_iff (hone c hc).1).1 (hbyte ▸ hb)
      have hmem : c ∈ username.toList := List.mem_of_mem_head? hfirst
      exact (hone c hc).2.elim (fun h => hall c h hmem) fun h => hhead c h hfirst

/-! ### The console client -/

/-- What the parser finds is a name that it can be told. -/
theorem plainBytes_of_parse {input : List UInt8} {command : PrivateMessageCommand}
    (hparse : parsePrivateMessage input = some command) : PlainBytes command.targetName := by
  unfold parsePrivateMessage at hparse
  split at hparse
  · cases hparse
  dsimp only at hparse
  split at hparse
  · cases hparse
  split at hparse
  · cases hparse
  next targetName targetUserCode hsplit =>
    split_ifs at hparse
    obtain rfl := Option.some.inj hparse
    unfold splitTarget at hsplit
    dsimp only at hsplit
    split_ifs at hsplit
    obtain ⟨rfl, -⟩ := Prod.mk.inj (Option.some.inj hsplit)
    dsimp only
    constructor
    · intro b hb
      have hname := List.mem_takeWhile_imp hb
      have htarget := List.mem_takeWhile_imp ((List.takeWhile_prefix _).subset hb)
      exact ⟨bne_iff_ne.1 hname, Bool.not_eq_eq_eq_not.1 htarget⟩
    · intro b hb
      -- the name starts where the blanks before it end
      obtain ⟨more, hmore⟩ := ((List.takeWhile_prefix _).trans (List.takeWhile_prefix _) :
        List.takeWhile (· != byte '#') (List.takeWhile (fun b => !endsTarget b)
          (skipSpaces (input.drop 5))) <+: skipSpaces (input.drop 5))
      have hfirst : (skipSpaces (input.drop 5)).head? = some b := by
        rw [← hmore, List.head?_append, hb]
        rfl
      have hskip := List.head?_dropWhile_not isSpaceByte (input.drop 5)
      unfold skipSpaces at hfirst
      rw [hfirst] at hskip
      exact hskip

/-- The target `name#code` is taken apart at its separator. -/
theorem splitTarget_name {name code : List UInt8} (hname : name ≠ []) (hcode : code ≠ [])
    (hfree : byte '#' ∉ name) (hone : byte '#' ∉ code) :
    splitTarget (name ++ byte '#' :: code) = some (name, code) := by
  have hkeep : ∀ b ∈ name, (b != byte '#') = true := by
    intro b hb
    exact bne_iff_ne.2 fun heq => hfree (heq ▸ hb)
  have htake : (name ++ byte '#' :: code).takeWhile (· != byte '#') = name := by
    rw [List.takeWhile_append_of_pos hkeep, List.takeWhile_cons_of_neg (by simp), List.append_nil]
  have hdrop : (name ++ byte '#' :: code).dropWhile (· != byte '#') = byte '#' :: code := by
    rw [List.dropWhile_append_of_pos hkeep, List.dropWhile_cons_of_neg (by simp)]
  unfold splitTarget
  rw [htake, hdrop]
  simp [hname, hcode, hone]

theorem isPrivateMessageCommand_append (rest : List UInt8) :
    isPrivateMessageCommand ("/msg ".toList.map byte ++ rest) = true := by
  have hword : ∀ text : String, text = "/msg " →
      text.toList.map byte = "/msg".toList.map byte ++ [byte ' '] := by
    rintro _ rfl
    decide
  rw [hword _ rfl, List.append_assoc]
  unfold isPrivateMessageCommand
  rw [Bool.or_eq_true, Bool.and_eq_true]
  right
  exact ⟨List.isPrefixOf_iff_prefix.2 (List.prefix_append _ _), rfl⟩

theorem skipSpaces_of_head {input : List UInt8}
    (hhead : ∀ b ∈ input.head?, isSpaceByte b = false) : skipSpaces input = input := by
  cases input with
  | nil => rfl
  | cons b more =>
    refine List.dropWhile_cons_of_neg ?_
    rw [hhead b rfl]
    exact Bool.false_ne_true

/-- The bytes of a code are no separators and no blanks. -/
theorem free_of_alnum {b : UInt8} (hb : isAlnumByte b = true) :
    b ≠ byte '#' ∧ endsTarget b = false := by
  have hnone : ∀ c ∈ ['#', ' ', '\t', '\r', '\n'], isAlnumByte (byte c) = false := by
    simp [isAlnumByte, byte]
  have hne : ∀ c ∈ ['#', ' ', '\t', '\r', '\n'], b ≠ byte c := by
    rintro c hc rfl
    rw [hnone c hc] at hb
    cases hb
  refine ⟨hne '#' (by decide), ?_⟩
  unfold endsTarget
  rw [decide_eq_false_iff_not, List.mem_map]
  rintro ⟨c, hc, rfl⟩
  exact hne c (List.mem_cons_of_mem _ hc) rfl

/-- The target of a command ends at the blank after the code. -/
theorem takeWhile_target {name code : List UInt8} (hplain : PlainBytes name)
    (halnum : ∀ b ∈ code, isAlnumByte b = true) (content : List UInt8) :
    ((name ++ byte '#' :: code) ++ byte ' ' :: content).takeWhile (fun b => !endsTarget b) =
      name ++ byte '#' :: code := by
  have hkeep : ∀ b ∈ name ++ byte '#' :: code, (!endsTarget b) = true := by
    intro b hb
    rw [Bool.not_eq_true']
    rcases List.mem_append.1 hb with hb | hb
    · exact (hplain.1 b hb).2
    rcases List.mem_cons.1 hb with rfl | hb
    · decide
    · exact (free_of_alnum (halnum b hb)).2
  rw [List.takeWhile_append_of_pos hkeep, List.takeWhile_cons_of_neg (by decide), List.append_nil]

/-- The command for a name that the console client can be told. -/
theorem parse_command {name code content : List UInt8} (hname : name ≠ [])
    (hplain : PlainBytes name) (hcode : isValidCode code = true) (hcontent : content ≠ [])
    (hstart : ∀ b ∈ content.head?, isSpaceByte b = false) :
    parsePrivateMessage
        ("/msg ".toList.map byte ++ ((name ++ byte '#' :: code) ++ byte ' ' :: content)) =
      some ⟨name, code, content⟩ := by
  obtain ⟨hsome, hall⟩ := Bool.and_eq_true_iff.1 hcode
  have halnum : ∀ b ∈ code, isAlnumByte b = true := List.all_eq_true.1 hall
  have hne : code ≠ [] := by
    rintro rfl
    cases hsome
  have hrest : skipSpaces ((name ++ byte '#' :: code) ++ byte ' ' :: content) =
      (name ++ byte '#' :: code) ++ byte ' ' :: content := by
    refine skipSpaces_of_head fun b hb => hplain.2 b ?_
    cases name with
    | nil => exact absurd rfl hname
    | cons first more => exact hb
  have hbody : skipSpaces (byte ' ' :: content) = content :=
    (List.dropWhile_cons_of_pos (by decide)).trans (skipSpaces_of_head hstart)
  have hsplit := splitTarget_name hname hne (fun h => (hplain.1 _ h).1 rfl)
    fun h => (free_of_alnum (halnum _ h)).1 rfl
  have hdrop : ("/msg ".toList.map byte ++
      ((name ++ byte '#' :: code) ++ byte ' ' :: content)).drop 5 =
        (name ++ byte '#' :: code) ++ byte ' ' :: content := List.drop_left' (by decide)
  have hcommand := isPrivateMessageCommand_append
    ((name ++ byte '#' :: code) ++ byte ' ' :: content)
  unfold parsePrivateMessage
  simp only [hcommand, hdrop, hrest, takeWhile_target hplain halnum, hsplit, List.drop_left, hbody,
    hcode, hcontent, Bool.not_true, Bool.false_eq_true, if_false]
  simp

/-- The bytes of the command for an identity. -/
theorem messageCommand_eq (username code : String) (content : List UInt8) :
    messageCommand username code content = "/msg ".toList.map byte ++
      ((bytes username ++ byte '#' :: bytes code) ++ byte ' ' :: content) := by
  have hword : bytes "/msg " = "/msg ".toList.map byte := by decide +kernel
  have hhash : bytes "#" = [byte '#'] := by decide +kernel
  have hblank : bytes " " = [byte ' '] := by decide +kernel
  unfold messageCommand
  rw [bytes_append, bytes_append, bytes_append, bytes_append, hword, hhash, hblank]
  simp only [List.append_assoc, List.singleton_append]

theorem isAlnumByte_byte {c : Char} (hc : isAlnum c = true) : isAlnumByte (byte c) = true := by
  have hrange := isAlnum_iff.1 hc
  have hnat : (byte c).toNat = c.toNat := toNat_byte (by omega)
  unfold isAlnumByte
  simp only [Bool.or_eq_true, Bool.and_eq_true, decide_eq_true_eq, UInt8.le_iff_toNat_le, hnat]
  rcases hrange with h | h | h
  · exact .inl (.inl h)
  · exact .inl (.inr h)
  · exact .inr h

theorem isValidCode_bytes {code : String} (hcode : validateUserCode code = .ok ()) :
    isValidCode (bytes code) = true := by
  obtain ⟨hall, hsize, -⟩ := validateUserCode_eq_ok.1 hcode
  have hempty : code ≠ "" := by
    rintro rfl
    exact absurd hsize (by decide)
  unfold isValidCode
  rw [Bool.and_eq_true, Bool.not_eq_true', List.isEmpty_eq_false_iff, List.all_eq_true]
  refine ⟨fun hnil => hempty (bytes_eq_nil.1 hnil), fun b hb => ?_⟩
  rw [bytes_eq, List.mem_flatMap] at hb
  obtain ⟨c, hc, hb⟩ := hb
  have halnum := List.all_eq_true.1 hall c hc
  have hrange := isAlnum_iff.1 halnum
  rw [encode_of_lt (by omega)] at hb
  rw [List.mem_singleton.1 hb]
  exact isAlnumByte_byte halnum

/-! ### The desktop client -/

theorem indexOf_append {text rest : List Char} {c : Char} (hfree : c ∉ text) :
    indexOf (text ++ c :: rest) c 0 = text.length := by
  have hkeep : ∀ d ∈ text, (d != c) = true := fun d hd => bne_iff_ne.2 fun h => hfree (h ▸ hd)
  unfold indexOf
  rw [List.drop_zero, if_pos (by simp), List.takeWhile_append_of_pos hkeep,
    List.takeWhile_cons_of_neg (by simp), List.append_nil]
  exact Int.zero_add _

theorem indexOf_drop (first text : List Char) (c : Char) (hmem : c ∈ text) :
    indexOf (first ++ text) c first.length = first.length + indexOf text c 0 := by
  unfold indexOf
  rw [List.drop_left, List.drop_zero, if_pos hmem, if_pos hmem]
  omega

/-- The desktop client takes an entry apart at the first separator. -/
theorem usersEntry_entryOf {username code room : String} (hname : username ≠ "")
    (hfree : '#' ∉ username.toList) (hcode : '@' ∉ code.toList) :
    usersEntry (entryOf username code room) = ⟨username, code, room⟩ := by
  have htext : (entryOf username code room).toList =
      username.toList ++ '#' :: (code.toList ++ '@' :: room.toList) := by
    unfold entryOf
    simp only [String.toList_append, List.append_assoc]
    rfl
  have hsplit : username.toList ++ '#' :: (code.toList ++ '@' :: room.toList) =
      (username.toList ++ ['#']) ++ (code.toList ++ '@' :: room.toList) := by
    rw [List.append_assoc]
    rfl
  have hpos : 0 < username.toList.length := by
    refine List.length_pos_iff.2 fun hnil => hname ?_
    rw [← String.ofList_toList (s := username), hnil]
  have hhash : indexOf (username.toList ++ '#' :: (code.toList ++ '@' :: room.toList)) '#' 0 =
      username.toList.length := indexOf_append hfree
  have hroom : indexOf (username.toList ++ '#' :: (code.toList ++ '@' :: room.toList)) '@'
      ((username.toList.length : ℤ) + 1).toNat =
        username.toList.length + 1 + code.toList.length := by
    have hat := indexOf_drop (username.toList ++ ['#']) (code.toList ++ '@' :: room.toList) '@'
      (by simp)
    rw [indexOf_append hcode, List.length_append, List.length_singleton] at hat
    rw [hsplit, show ((username.toList.length : ℤ) + 1).toNat = username.toList.length + 1 by omega,
      hat]
    rfl
  unfold usersEntry
  dsimp only
  rw [htext, hhash, hroom, if_pos (by omega), if_pos (by omega), if_pos (by omega),
    if_pos (by omega)]
  congr 1
  · rw [Int.toNat_natCast, List.take_left, String.ofList_toList]
  · unfold mid
    rw [if_neg (by omega), hsplit, List.drop_left' (by simp), List.take_left' (by omega),
      String.ofList_toList]
  · rw [hsplit, List.append_cons code.toList, ← List.append_assoc,
      List.drop_left' (by simp; omega), String.ofList_toList]

/-- A code has no separator of a room. -/
theorem at_notMem_code {code : String} (hcode : validateUserCode code = .ok ()) :
    '@' ∉ code.toList := by
  obtain ⟨hall, -, -⟩ := validateUserCode_eq_ok.1 hcode
  intro hmem
  have halnum := List.all_eq_true.1 hall '@' hmem
  exact absurd halnum (by decide)

/-! ### Both of them -/

theorem username_ne {username userCode : String}
    (hlogin : validateMessage { type := .login, username, userCode } = .ok ()) :
    username ≠ "" := by
  have hlogin' : validateLogin username userCode = .ok () := by
    simpa [validateMessage, maxCommandIDSize] using hlogin
  rintro rfl
  cases hlogin'

/-- An identity that the server takes survives the console client exactly when its name is plain,
and the desktop client when there is no separator in its name. -/
theorem identities_round_trip {username userCode code room : String} {content : List UInt8}
    (hlogin : validateMessage { type := .login, username, userCode } = .ok ())
    (hcode : validateUserCode code = .ok ()) (hcontent : content ≠ [])
    (hstart : ∀ b ∈ content.head?, isSpaceByte b = false) :
    (parsePrivateMessage (messageCommand username code content) =
        some ⟨bytes username, bytes code, content⟩ ↔ Plain username) ∧
      ('#' ∉ username.toList →
        usersEntry (entryOf username code room) = ⟨username, code, room⟩) := by
  have hname := username_ne hlogin
  constructor
  · constructor
    · intro hparse
      exact (plainBytes_iff _).1 (plainBytes_of_parse hparse)
    · intro hplain
      rw [messageCommand_eq]
      exact parse_command (fun hnil => hname (bytes_eq_nil.1 hnil)) ((plainBytes_iff _).2 hplain)
        (isValidCode_bytes hcode) hcontent hstart
  · intro hfree
    exact usersEntry_entryOf hname hfree (at_notMem_code hcode)

/-- A name with an `@` survives both. -/
theorem identities_round_trip_at :
    parsePrivateMessage (messageCommand "b@b" "B001" [104, 105]) =
        some ⟨bytes "b@b", bytes "B001", [104, 105]⟩ ∧
      usersEntry (entryOf "b@b" "B001" "den_1") = ⟨"b@b", "B001", "den_1"⟩ := by
  have hboth := @identities_round_trip "b@b" "B001" "B001" "den_1" [104, 105] (by decide)
    (by decide) (by decide) (by simp [isSpaceByte, byte])
  exact ⟨hboth.1.2 ⟨by simp, by simp⟩, hboth.2 (by decide)⟩

/-- The server takes the names `A B` and `A#B`.  The command for the first one is refused, and the
second one is listed as `A`. -/
theorem accepted_names_are_lost :
    validateMessage { type := .login, username := "A B", userCode := "B001" } = .ok () ∧
      validateMessage { type := .login, username := "A#B", userCode := "B001" } = .ok () ∧
      parsePrivateMessage (messageCommand "A B" "B001" [104, 105]) = none ∧
        usersEntry (entryOf "A#B" "B001" "lobby") = ⟨"A", "B#B001", "lobby"⟩ := by
  refine ⟨by decide, by decide, by decide +kernel, by decide +kernel⟩

end LanChat.Identities
