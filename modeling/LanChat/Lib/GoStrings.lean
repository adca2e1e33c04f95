import LanChat.Lib.UnicodeCase
import Mathlib.Algebra.GroupWithZero.Nat
import Mathlib.Data.List.Basic

/-!
# The string functions of the Go standard library that the server calls

Texts are Lean strings, so `utf8.ValidString` always holds; `len` is `String.utf8ByteSize`.
`strings.ToLower` of a user code is `asciiLower`: a code has passed an ASCII check, and
`toLower_of_alnum` says that the two agree on it.
-/

namespace GoStrings

/-- `strings.ToLower`. -/
def toLower (s : String) : String := String.ofList (s.toList.map UnicodeCase.toLower)

/-- `strings.EqualFold`. -/
def equalFold (a b : String) : Bool :=
  a.toList.map UnicodeCase.foldRune == b.toList.map UnicodeCase.foldRune

/-- The ASCII letters in lower case; other characters stay. -/
def asciiLower (s : String) : String := String.ofList (s.toList.map Char.toLower)

/-- `unicode.IsSpace`. -/
def isSpace (c : Char) : Bool :=
  let n := c.toNat
  (9 ≤ n && n ≤ 13) || n == 0x20 || n == 0x85 || n == 0xA0 || n == 0x1680 ||
    (0x2000 ≤ n && n ≤ 0x200a) || n == 0x2028 || n == 0x2029 || n == 0x202f || n == 0x205f ||
    n == 0x3000

/-- `strings.TrimSpace`. -/
def trimSpace (s : String) : String :=
  String.ofList (((s.toList.dropWhile isSpace).reverse.dropWhile isSpace).reverse)

/-- An ASCII letter or digit. -/
def isAlnum (c : Char) : Bool :=
  ('a' ≤ c && c ≤ 'z') || ('A' ≤ c && c ≤ 'Z') || ('0' ≤ c && c ≤ '9')

/-- The value of a string of decimal digits. -/
def digitsValue (cs : List Char) : ℕ := cs.foldl (fun n c => 10 * n + (c.toNat - '0'.toNat)) 0

/-- Whether `strconv.ParseUint(s, 10, 64)` succeeds. -/
def parsesUint (s : String) : Bool :=
  s != "" && s.toList.all (fun c => '0' ≤ c && c ≤ '9') && decide (digitsValue s.toList < 2 ^ 64)

/-- `strconv.FormatUint(n, 10)`. -/
def formatUint (n : UInt64) : String := toString n.toNat

/-- The alphabet of `base64.StdEncoding`. -/
def isBase64 (c : Char) : Bool := isAlnum c || c == '+' || c == '/'

/-- Whole quanta of four characters, the last one possibly padded. -/
def base64Quanta : List Char → Bool
  | [] => true
  | a :: b :: c :: d :: rest =>
    if isBase64 a && isBase64 b then
      if c == '=' then d == '=' && rest.isEmpty
      else if isBase64 c then
        if d == '=' then rest.isEmpty else isBase64 d && base64Quanta rest
      else false
    else false
  | _ => false

/-- Whether `base64.StdEncoding.DecodeString` succeeds: line breaks are skipped anywhere, padding
is required, and the bits that the padding stands for are not looked at. -/
def base64Decodes (s : String) : Bool :=
  base64Quanta (s.toList.filter fun c => !(c == '\n' || c == '\r'))

/-- The six bits that a character of the alphabet stands for. -/
def base64Value (c : Char) : ℕ :=
  if 'A' ≤ c ∧ c ≤ 'Z' then c.toNat - 'A'.toNat
  else if 'a' ≤ c ∧ c ≤ 'z' then c.toNat - 'a'.toNat + 26
  else if '0' ≤ c ∧ c ≤ '9' then c.toNat - '0'.toNat + 52
  else if c = '+' then 62 else 63

/-- The bytes of well-formed quanta. -/
def base64Bytes : List Char → List UInt8
  | a :: b :: c :: d :: rest =>
    let x := base64Value a * 4 + base64Value b / 16
    let y := base64Value b % 16 * 16 + base64Value c / 4
    let z := base64Value c % 4 * 64 + base64Value d
    if c = '=' then [x.toUInt8]
    else if d = '=' then [x.toUInt8, y.toUInt8]
    else x.toUInt8 :: y.toUInt8 :: z.toUInt8 :: base64Bytes rest
  | _ => []

/-- `base64.StdEncoding.DecodeString`. -/
def base64Decode (s : String) : Option (List UInt8) :=
  if base64Decodes s then
    some (base64Bytes (s.toList.filter fun c => !(c == '\n' || c == '\r')))
  else none

/-- The character of the alphabet for six bits. -/
def base64Char (n : ℕ) : Char :=
  if n < 26 then Char.ofNat ('A'.toNat + n)
  else if n < 52 then Char.ofNat ('a'.toNat + (n - 26))
  else if n < 62 then Char.ofNat ('0'.toNat + (n - 52))
  else if n = 62 then '+' else '/'

/-- `base64.StdEncoding.EncodeToString`, as characters. -/
def base64Chars : List UInt8 → List Char
  | [] => []
  | [x] => [base64Char (x.toNat / 4), base64Char (x.toNat % 4 * 16), '=', '=']
  | [x, y] => [base64Char (x.toNat / 4), base64Char (x.toNat % 4 * 16 + y.toNat / 16),
      base64Char (y.toNat % 16 * 4), '=']
  | x :: y :: z :: rest =>
    base64Char (x.toNat / 4) :: base64Char (x.toNat % 4 * 16 + y.toNat / 16) ::
      base64Char (y.toNat % 16 * 4 + z.toNat / 64) :: base64Char (z.toNat % 64) ::
      base64Chars rest

/-- `base64.StdEncoding.EncodeToString`. -/
def base64Encode (bytes : List UInt8) : String := String.ofList (base64Chars bytes)

/-! ### Case and byte length -/

theorem isAlnum_iff {c : Char} : isAlnum c = true ↔
    (97 ≤ c.toNat ∧ c.toNat ≤ 122) ∨ (65 ≤ c.toNat ∧ c.toNat ≤ 90) ∨
      (48 ≤ c.toNat ∧ c.toNat ≤ 57) := by
  have hle : ∀ a b : Char, a ≤ b ↔ a.toNat ≤ b.toNat := fun a b => Iff.rfl
  simp only [isAlnum, Bool.or_eq_true, Bool.and_eq_true, decide_eq_true_eq, hle, or_assoc]
  rfl

theorem isAlnum_toLower (c : Char) : isAlnum c.toLower = isAlnum c := by
  rw [Bool.eq_iff_iff, isAlnum_iff, isAlnum_iff,
    UnicodeCase.toNat_toLower]
  split_ifs <;> omega

/-- A text of one-byte characters has as many bytes. -/
theorem utf8ByteSize_ofList {l : List Char} (h : ∀ c ∈ l, c.utf8Size = 1) :
    (String.ofList l).utf8ByteSize = l.length := by
  induction l with
  | nil => rfl
  | cons c l ih =>
    have hsplit : String.ofList (c :: l) = String.singleton c ++ String.ofList l := by
      rw [String.singleton_eq_ofList, ← String.ofList_append]
      rfl
    rw [hsplit, String.utf8ByteSize_append, String.utf8ByteSize_singleton,
      h c List.mem_cons_self, ih fun x hx => h x (List.mem_cons_of_mem _ hx), List.length_cons,
      Nat.add_comm]

theorem utf8ByteSize_of_utf8Size {s : String} (h : ∀ c ∈ s.toList, c.utf8Size = 1) :
    s.utf8ByteSize = s.toList.length := by
  have := utf8ByteSize_ofList h
  rwa [String.ofList_toList] at this

theorem utf8Size_of_alnum {c : Char} (h : isAlnum c = true) : c.utf8Size = 1 := by
  have := isAlnum_iff.1 h
  have h127 : c.toNat ≤ 127 := by omega
  exact Char.utf8Size_eq_one_iff.2 h127

theorem utf8Size_of_base64 {c : Char} (h : isBase64 c = true) : c.utf8Size = 1 := by
  unfold isBase64 at h
  rw [Bool.or_eq_true, Bool.or_eq_true, beq_iff_eq, beq_iff_eq] at h
  rcases h with (h | rfl) | rfl
  · exact utf8Size_of_alnum h
  · rfl
  · rfl

theorem utf8ByteSize_of_alnum {s : String} (h : s.toList.all isAlnum = true) :
    s.utf8ByteSize = s.toList.length :=
  utf8ByteSize_of_utf8Size fun c hc => utf8Size_of_alnum (List.all_eq_true.1 h c hc)

theorem toList_asciiLower (s : String) : (asciiLower s).toList = s.toList.map Char.toLower :=
  String.toList_ofList

theorem asciiLower_asciiLower (s : String) : asciiLower (asciiLower s) = asciiLower s := by
  unfold asciiLower
  rw [String.toList_ofList, List.map_map]
  congr 1
  exact List.map_congr_left fun c _ => UnicodeCase.char_toLower_toLower c

theorem ascii_of_alnum {c : Char} (h : isAlnum c = true) : c.toNat < 0x80 := by
  have := isAlnum_iff.1 h
  omega

/-- On a user code the two agree. -/
theorem toLower_of_alnum {s : String} (h : s.toList.all isAlnum = true) :
    toLower s = asciiLower s := by
  unfold toLower asciiLower
  congr 1
  exact List.map_congr_left fun c hc =>
    UnicodeCase.toLower_of_ascii (ascii_of_alnum (List.all_eq_true.1 h c hc))

/-! ### Trimming -/

/-- A text that neither starts nor ends with a blank is not trimmed. -/
theorem trimSpace_of_ends {s : String} (hhead : ∀ c ∈ s.toList.head?, isSpace c = false)
    (hlast : ∀ c ∈ s.toList.getLast?, isSpace c = false) : trimSpace s = s := by
  have hdrop : ∀ l : List Char, (∀ c ∈ l.head?, isSpace c = false) → l.dropWhile isSpace = l := by
    intro l hl
    cases l with
    | nil => rfl
    | cons c l => rw [List.dropWhile_cons_of_neg (by simp [hl c rfl])]
  unfold trimSpace
  rw [hdrop _ hhead, hdrop _ (by rwa [List.head?_reverse]), List.reverse_reverse,
    String.ofList_toList]

theorem head_dropWhile (l : List Char) : ∀ c ∈ (l.dropWhile isSpace).head?, isSpace c = false := by
  intro c hc
  have := List.head?_dropWhile_not isSpace l
  rw [hc] at this
  simpa using this

/-- A trimmed text does not end with a blank. -/
theorem last_trimSpace (s : String) :
    ∀ c ∈ (trimSpace s).toList.getLast?, isSpace c = false := by
  intro c hc
  rw [trimSpace, String.toList_ofList, List.getLast?_reverse] at hc
  exact head_dropWhile _ c hc

/-- Nor does it start with one. -/
theorem head_trimSpace (s : String) : ∀ c ∈ (trimSpace s).toList.head?, isSpace c = false := by
  intro c hc
  rw [trimSpace, String.toList_ofList, List.head?_reverse] at hc
  refine head_dropWhile s.toList c ?_
  obtain ⟨before, hbefore⟩ :=
    List.dropWhile_suffix (l := (s.toList.dropWhile isSpace).reverse) isSpace
  have hlast : (s.toList.dropWhile isSpace).reverse.getLast? = some c := by
    rw [← hbefore, List.getLast?_append, hc]
    rfl
  rwa [List.getLast?_reverse] at hlast

theorem trimSpace_trimSpace (s : String) : trimSpace (trimSpace s) = trimSpace s :=
  trimSpace_of_ends (head_trimSpace s) (last_trimSpace s)

theorem isDigit_of_mem_toString (n : ℕ) : ∀ c ∈ (toString n).toList, c.isDigit = true := by
  intro c hc
  have htext : toString n = n.repr := rfl
  rw [htext, Nat.repr_eq_ofList_toDigits, String.toList_ofList] at hc
  exact Nat.isDigit_of_mem_toDigits (by decide) (by decide) hc

theorem isSpace_of_isDigit {c : Char} (hc : c.isDigit = true) : isSpace c = false := by
  simp only [Char.isDigit, ge_iff_le, Bool.and_eq_true, decide_eq_true_eq] at hc
  have hlow : 48 ≤ c.toNat := UInt32.le_iff_toNat_le.1 hc.1
  have hhigh : c.toNat ≤ 57 := UInt32.le_iff_toNat_le.1 hc.2
  unfold isSpace
  simp only [Bool.or_eq_false_iff, Bool.and_eq_false_iff, decide_eq_false_iff_not,
    beq_eq_false_iff_ne]
  omega

/-- What follows a trimmed text decides whether the whole text is trimmed. -/
theorem trimSpace_append {a b : String} (ha : trimSpace a = a) (hne : a ≠ "")
    (hb : ∀ c ∈ b.toList.getLast?, isSpace c = false) : trimSpace (a ++ b) = a ++ b := by
  have htoList : a.toList ≠ [] := fun hnil => hne (String.toList_eq_nil_iff.1 hnil)
  refine trimSpace_of_ends ?_ ?_
  · intro c hc
    rw [String.toList_append, List.head?_append_of_ne_nil _ htoList] at hc
    have hhead := head_trimSpace a
    rw [ha] at hhead
    exact hhead c hc
  · intro c hc
    rw [String.toList_append, List.getLast?_append] at hc
    cases hlast : b.toList.getLast? with
    | none =>
      rw [hlast] at hc
      have hend := last_trimSpace a
      rw [ha] at hend
      exact hend c hc
    | some d =>
      rw [hlast] at hc
      obtain rfl := Option.some.inj hc
      exact hb _ hlast

/-- A trimmed text with a word and a number behind it is trimmed. -/
theorem trimSpace_numbered {a : String} (ha : trimSpace a = a) (hne : a ≠ "") (word : String)
    (n : ℕ) : trimSpace (a ++ word ++ toString n) = a ++ word ++ toString n := by
  rw [String.append_assoc]
  refine trimSpace_append ha hne fun c hc => ?_
  have hdigits : (toString n).toList ≠ [] := by
    have htext : toString n = n.repr := rfl
    rw [htext, Nat.repr_eq_ofList_toDigits, String.toList_ofList]
    exact Nat.toDigits_ne_nil
  rw [String.toList_append, List.getLast?_append_of_ne_nil _ hdigits] at hc
  exact isSpace_of_isDigit (isDigit_of_mem_toString n c (List.mem_of_mem_getLast? hc))

/-- A text that ends with a hyphen can be told from the number behind it. -/
theorem stem_eq {x y : List Char} {m n : ℕ} (hx : x.getLast? = some '-')
    (hy : y.getLast? = some '-') (h : x ++ (toString m).toList = y ++ (toString n).toList) : x = y := by
  have hdrop : ∀ (z : List Char) (k : ℕ), z.getLast? = some '-' →
      (z ++ (toString k).toList).reverse.dropWhile Char.isDigit = z.reverse := by
    intro z k hz
    rw [List.reverse_append, List.dropWhile_append_of_pos fun c hc =>
      isDigit_of_mem_toString k c (List.mem_reverse.1 hc)]
    rw [← List.head?_reverse] at hz
    cases hrev : z.reverse with
    | nil => rfl
    | cons c rest =>
      rw [hrev] at hz
      cases hz
      exact List.dropWhile_cons_of_neg (by decide)
  have hrev := congrArg (fun l => l.reverse.dropWhile Char.isDigit) h
  rw [hdrop x m hx, hdrop y n hy] at hrev
  exact List.reverse_injective hrev

theorem toString_inj {m n : ℕ} (h : (toString m).toList = (toString n).toList) : m = n := by
  have htext : ∀ k : ℕ, (toString k).toList = Nat.toDigits 10 k := by
    intro k
    rw [show toString k = k.repr from rfl, Nat.repr_eq_ofList_toDigits, String.toList_ofList]
  rw [htext, htext] at h
  rw [← @Nat.ofDigitChars_ten_toDigits m, h, Nat.ofDigitChars_ten_toDigits]

/-- A text, a word that ends with a hyphen and a number can be told apart. -/
theorem numbered_inj {a b word : String} {m n : ℕ} (hword : word.toList.getLast? = some '-')
    (h : a ++ word ++ toString m = b ++ word ++ toString n) : a = b ∧ m = n := by
  have hlist := congrArg String.toList h
  simp only [String.toList_append] at hlist
  have hlast : ∀ s : String, (s.toList ++ word.toList).getLast? = some '-' := by
    intro s
    rw [List.getLast?_append, hword]
    rfl
  have hstem := stem_eq (hlast a) (hlast b) hlist
  have hab := List.append_cancel_right hstem
  rw [hab] at hlist
  exact ⟨String.toList_inj.1 hab, toString_inj (List.append_cancel_left hlist)⟩

end GoStrings
