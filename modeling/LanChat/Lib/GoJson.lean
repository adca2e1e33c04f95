import LanChat.Lib.Base64
import Mathlib.Algebra.BigOperators.Group.List.Basic
import Mathlib.Data.Nat.Notation

/-!
# The texts that `encoding/json` writes

`json.Marshal` as of Go 1.22, with HTML escaping, for texts that are valid UTF-8.

* `quote`, `compact`: a string, and a raw value that is copied;
* `object`, `array`: members and values with their commas;
* `weight`: the bytes of a list of members, each with one comma.
-/

namespace GoJson

/-! ### Strings -/

/-- A hexadecimal digit. -/
def hexDigit (n : ℕ) : Char :=
  if n < 10 then Char.ofNat ('0'.toNat + n) else Char.ofNat ('a'.toNat + (n - 10))

/-- A backslash, `u` and four hexadecimal digits. -/
def unicodeEscape (c : Char) : String :=
  "\\u" ++ String.singleton (hexDigit (c.toNat / 4096 % 16)) ++
    String.singleton (hexDigit (c.toNat / 256 % 16)) ++
    String.singleton (hexDigit (c.toNat / 16 % 16)) ++ String.singleton (hexDigit (c.toNat % 16))

/-- The characters that are escaped for HTML and JavaScript. -/
def isHTML (c : Char) : Bool :=
  c == '<' || c == '>' || c == '&' || c.toNat == 0x2028 || c.toNat == 0x2029

/-- A character of a string. -/
def escapeChar (c : Char) : String :=
  if c = '"' then "\\\"" else if c = '\\' then "\\\\" else if c.toNat = 8 then "\\b"
  else if c.toNat = 12 then "\\f" else if c = '\n' then "\\n" else if c = '\r' then "\\r"
  else if c = '\t' then "\\t" else if c.toNat < 32 ∨ isHTML c = true then unicodeEscape c
  else String.singleton c

/-- The bytes of a character of a string. -/
def escapedSize (c : Char) : ℕ :=
  if c = '"' ∨ c = '\\' ∨ c.toNat = 8 ∨ c.toNat = 12 ∨ c = '\n' ∨ c = '\r' ∨ c = '\t' then 2
  else if c.toNat < 32 ∨ isHTML c = true then 6 else c.utf8Size

/-- The pieces of a text, one after the other. -/
def concat : List String → String
  | [] => ""
  | s :: l => s ++ concat l

/-- A string value. -/
def quote (s : String) : String := "\"" ++ concat (s.toList.map escapeChar) ++ "\""

/-- A character of a string, by a writer that escapes only what JSON does not allow. -/
def plainChar (c : Char) : String := if isHTML c then String.singleton c else escapeChar c

/-- A string value, by such a writer. -/
def plainQuote (s : String) : String := "\"" ++ concat (s.toList.map plainChar) ++ "\""

/-- The bytes of a string value. -/
def textSize (s : String) : ℕ := (s.toList.map escapedSize).sum + 2

/-- A raw value is copied without the blanks between its tokens; HTML is escaped in it too. -/
def compactFrom : (inString escaped : Bool) → List Char → String
  | _, _, [] => ""
  | inString, escaped, c :: cs =>
    let rest := if inString then compactFrom (escaped || c != '"') (!escaped && c == '\\') cs
      else compactFrom (c == '"') false cs
    if !inString && (c == ' ' || c == '\t' || c == '\n' || c == '\r') then rest
    else (if isHTML c then unicodeEscape c else String.singleton c) ++ rest

/-- A `json.RawMessage`. -/
def compact (raw : String) : String := compactFrom false false raw.toList

theorem utf8Size_hexDigit {n : ℕ} (hn : n < 16) : (hexDigit n).utf8Size = 1 := by
  have hall : ∀ k : Fin 16, (hexDigit k).utf8Size = 1 := by decide
  exact hall ⟨n, hn⟩

theorem size_unicodeEscape (c : Char) : (unicodeEscape c).utf8ByteSize = 6 := by
  unfold unicodeEscape
  have hdigit : ∀ n : ℕ, (hexDigit (n % 16)).utf8Size = 1 := fun n =>
    utf8Size_hexDigit (Nat.mod_lt n (by omega))
  simp only [String.utf8ByteSize_append, String.utf8ByteSize_singleton, hdigit]
  rfl

@[simp] theorem size_escapeChar (c : Char) : (escapeChar c).utf8ByteSize = escapedSize c := by
  unfold escapeChar escapedSize
  by_cases hshort : c = '"' ∨ c = '\\' ∨ c.toNat = 8 ∨ c.toNat = 12 ∨ c = '\n' ∨ c = '\r' ∨ c = '\t'
  · rcases hshort with rfl | rfl | h₈ | h₁₂ | rfl | rfl | rfl
    · rfl
    · rfl
    · obtain rfl : c = '\x08' := Char.toNat_inj.1 h₈
      rfl
    · obtain rfl : c = '\x0c' := Char.toNat_inj.1 h₁₂
      rfl
    · rfl
    · rfl
    · rfl
  · rw [if_neg hshort]
    simp only [not_or] at hshort
    obtain ⟨hquote, hslash, h₈, h₁₂, hn, hr, ht⟩ := hshort
    rw [if_neg hquote, if_neg hslash, if_neg h₈, if_neg h₁₂, if_neg hn, if_neg hr, if_neg ht]
    split
    · exact size_unicodeEscape c
    · exact String.utf8ByteSize_singleton

theorem size_concat (l : List String) :
    (concat l).utf8ByteSize = (l.map String.utf8ByteSize).sum := by
  induction l with
  | nil => rfl
  | cons s l ih => simp [concat, ih]

@[simp] theorem size_quote (s : String) : (quote s).utf8ByteSize = textSize s := by
  unfold quote textSize
  rw [String.utf8ByteSize_append, String.utf8ByteSize_append, size_concat, List.map_map]
  have hcomp : String.utf8ByteSize ∘ escapeChar = escapedSize := funext size_escapeChar
  rw [hcomp]
  change 1 + _ + 1 = _
  omega

theorem size_plainQuote (s : String) :
    (plainQuote s).utf8ByteSize = (s.toList.map fun c => (plainChar c).utf8ByteSize).sum + 2 := by
  unfold plainQuote
  rw [String.utf8ByteSize_append, String.utf8ByteSize_append, size_concat, List.map_map]
  change 1 + _ + 1 = _
  rw [Nat.add_comm 1]
  rfl

/-! ### Objects and arrays -/

/-- A member of an object. -/
def member (name value : String) : String := "\"" ++ name ++ "\":" ++ value

/-- Texts with commas between them. -/
def commaJoin : List String → String
  | [] => ""
  | [s] => s
  | s :: t :: l => s ++ "," ++ commaJoin (t :: l)

/-- An object. -/
def object (members : List String) : String := "\x7b" ++ commaJoin members ++ "\x7d"

/-- An array. -/
def array (values : List String) : String := "[" ++ commaJoin values ++ "]"

/-- The bytes of texts with a comma each. -/
def weight (l : List String) : ℕ := (l.map fun s => s.utf8ByteSize + 1).sum

@[simp] theorem weight_nil : weight [] = 0 := rfl

@[simp] theorem weight_cons (s : String) (l : List String) :
    weight (s :: l) = s.utf8ByteSize + 1 + weight l := rfl

@[simp] theorem weight_append (l l' : List String) : weight (l ++ l') = weight l + weight l' := by
  simp [weight]

@[simp] theorem size_member (name value : String) :
    (member name value).utf8ByteSize = name.utf8ByteSize + value.utf8ByteSize + 3 := by
  unfold member
  simp only [String.utf8ByteSize_append]
  change 1 + _ + 2 + _ = _
  omega

theorem size_commaJoin {l : List String} (hl : l ≠ []) :
    (commaJoin l).utf8ByteSize + 1 = weight l := by
  induction l using commaJoin.induct with
  | case1 => exact absurd rfl hl
  | case2 s => simp [commaJoin]
  | case3 s t l ih =>
    have hrest := ih (by simp)
    have hcomma : ",".utf8ByteSize = 1 := rfl
    rw [weight_cons, ← hrest]
    simp only [commaJoin, String.utf8ByteSize_append, hcomma]
    omega

theorem size_object {members : List String} (hm : members ≠ []) :
    (object members).utf8ByteSize = weight members + 1 := by
  have hjoin := size_commaJoin hm
  unfold object
  simp only [String.utf8ByteSize_append]
  change 1 + _ + 1 = _
  omega

theorem size_array {values : List String} (hv : values ≠ []) :
    (array values).utf8ByteSize = weight values + 1 := by
  have hjoin := size_commaJoin hv
  unfold array
  simp only [String.utf8ByteSize_append]
  change 1 + _ + 1 = _
  omega

/-! ### `omitempty` -/

/-- A string member, written by `text`. -/
def optText (text : String → String) (name s : String) : List String :=
  if s = "" then [] else [member name (text s)]

/-- The bytes of a string member, with its comma. -/
def textWeight (name s : String) : ℕ := if s = "" then 0 else name.utf8ByteSize + textSize s + 4

@[simp] theorem weight_optText (name s : String) : 
    weight (optText quote name s) = textWeight name s := by
  unfold optText textWeight
  split_ifs
  · rfl
  · simp

@[simp] theorem textWeight_empty (name : String) : textWeight name "" = 0 := rfl

/-- A boolean member. -/
def optBool (name : String) (b : Bool) : List String := if b then [member name "true"] else []

/-- A number member. -/
def optInt (name : String) (n : ℤ) : List String := if n = 0 then [] else [member name (toString n)]

@[simp] theorem optText_empty (text : String → String) (name : String) :
    optText text name "" = [] := rfl

@[simp] theorem optBool_false (name : String) : optBool name false = [] := rfl

@[simp] theorem optInt_zero (name : String) : optInt name 0 = [] := rfl

/-- An array member. -/
def optArray (name : String) (values : List String) : List String :=
  if values = [] then [] else [member name (array values)]

@[simp] theorem optArray_nil (name : String) : optArray name [] = [] := rfl

/-- The bytes of an array member, with its comma. -/
def arrayWeight (name : String) (values : List String) : ℕ :=
  if values = [] then 0 else name.utf8ByteSize + weight values + 5

@[simp] theorem weight_optArray (name : String) (values : List String) :
    weight (optArray name values) = arrayWeight name values := by
  unfold optArray arrayWeight
  split_ifs with h
  · rfl
  · simp [size_array h]
    omega

/-- The order of the values does not matter for the size. -/
theorem arrayWeight_perm {name : String} {l l' : List String} (h : l.Perm l') :
    arrayWeight name l = arrayWeight name l' := by
  have hweight : weight l = weight l' := (h.map _).sum_eq
  have hnil : l = [] ↔ l' = [] := by
    rw [← List.length_eq_zero_iff, ← List.length_eq_zero_iff, h.length_eq]
  unfold arrayWeight
  simp only [hweight, hnil]

@[simp] theorem arrayWeight_nil (name : String) : arrayWeight name [] = 0 := rfl

/-! ### Bounds -/

open GoStrings

theorem utf8ByteSize_ofList_sum (l : List Char) :
    (String.ofList l).utf8ByteSize = (l.map Char.utf8Size).sum := by
  induction l with
  | nil => rfl
  | cons c l ih =>
    have hsplit : String.ofList (c :: l) = String.singleton c ++ String.ofList l := by
      rw [String.singleton_eq_ofList, ← String.ofList_append]
      rfl
    rw [hsplit, String.utf8ByteSize_append, String.utf8ByteSize_singleton, ih, List.map_cons,
      List.sum_cons]

theorem utf8ByteSize_eq_sum (s : String) : s.utf8ByteSize = (s.toList.map Char.utf8Size).sum := by
  have := utf8ByteSize_ofList_sum s.toList
  rwa [String.ofList_toList] at this

theorem length_le_utf8ByteSize (s : String) : s.toList.length ≤ s.utf8ByteSize := by
  rw [utf8ByteSize_eq_sum]
  induction s.toList with
  | nil => exact Nat.le_refl _
  | cons c l ih =>
    have := Char.utf8Size_pos c
    rw [List.length_cons, List.map_cons, List.sum_cons]
    omega

/-- Escaping makes at most six bytes of one. -/
theorem escapedSize_le (c : Char) : escapedSize c ≤ 6 * c.utf8Size := by
  have hpos : 1 ≤ c.utf8Size := Char.utf8Size_pos c
  unfold escapedSize
  split_ifs <;> omega

theorem textSize_le (s : String) : textSize s ≤ 6 * s.utf8ByteSize + 2 := by
  have hsum : ∀ l : List Char, (l.map escapedSize).sum ≤ 6 * (l.map Char.utf8Size).sum := by
    intro l
    induction l with
    | nil => exact Nat.le_refl _
    | cons c l ih =>
      have := escapedSize_le c
      simp only [List.map_cons, List.sum_cons]
      omega
  unfold textSize
  rw [utf8ByteSize_eq_sum]
  exact Nat.add_le_add_right (hsum _) 2

/-- A character that is written as it is. -/
def isPlain (c : Char) : Bool := isBase64 c || c == '=' || c == '-' || c == ':' || c == '_'

theorem toNat_of_isPlain {c : Char} (h : isPlain c = true) :
    (97 ≤ c.toNat ∧ c.toNat ≤ 122) ∨ (65 ≤ c.toNat ∧ c.toNat ≤ 90) ∨
      (48 ≤ c.toNat ∧ c.toNat ≤ 58) ∨ c.toNat = 43 ∨ c.toNat = 45 ∨ c.toNat = 47 ∨ c.toNat = 61 ∨
        c.toNat = 95 := by
  unfold isPlain isBase64 at h
  simp only [Bool.or_eq_true, beq_iff_eq] at h
  rcases h with ((((((h | rfl) | rfl) | rfl) | rfl) | rfl) | rfl)
  · have := isAlnum_iff.1 h
    omega
  all_goals decide

theorem escapedSize_plain {c : Char} (h : isPlain c = true) : escapedSize c = 1 := by
  have hrange := toNat_of_isPlain h
  have hne : ∀ d : Char, (d.toNat < 43 ∨ d.toNat = 60 ∨ d.toNat = 62 ∨ d.toNat = 92) → c ≠ d := by
    rintro d hd rfl
    omega
  have hhtml : isHTML c = false := by
    unfold isHTML
    simp only [Bool.or_eq_false_iff, beq_eq_false_iff_ne]
    refine ⟨⟨⟨⟨hne _ ?_, hne _ ?_⟩, hne _ ?_⟩, by omega⟩, by omega⟩
    all_goals decide
  have hsize : c.utf8Size = 1 := Char.utf8Size_eq_one_iff.2 (by change c.toNat ≤ 127; omega)
  unfold escapedSize
  rw [if_neg, if_neg, hsize]
  · rw [hhtml]
    simp only [Bool.false_eq_true, or_false]
    omega
  · simp only [not_or]
    refine ⟨hne _ ?_, hne _ ?_, by omega, by omega, hne _ ?_, hne _ ?_, hne _ ?_⟩
    all_goals decide

/-- Such a text only gets its quotes. -/
theorem textSize_plain {s : String} (h : s.toList.all isPlain = true) :
    textSize s = s.toList.length + 2 := by
  have hsum : ∀ l : List Char, l.all isPlain = true → (l.map escapedSize).sum = l.length := by
    intro l hl
    induction l with
    | nil => rfl
    | cons c l ih =>
      rw [List.all_cons, Bool.and_eq_true] at hl
      rw [List.map_cons, List.sum_cons, escapedSize_plain hl.1, ih hl.2, List.length_cons,
        Nat.add_comm]
  unfold textSize
  rw [hsum _ h]

theorem isPlain_base64Encode (bytes : List UInt8) :
    (base64Encode bytes).toList.all isPlain = true := by
  rw [base64Encode, String.toList_ofList, List.all_eq_true]
  intro c hc
  unfold isPlain
  rcases Base64.mem_base64Chars bytes c hc with h | rfl
  · simp [h]
  · decide

/-- A number takes one byte for each digit. -/
theorem size_toString (n : ℕ) : (toString n).utf8ByteSize = (Nat.toDigits 10 n).length := by
  have hdigits : ∀ d ∈ Nat.toDigits 10 n, d.utf8Size = 1 := by
    intro d hd
    have hdigit := Nat.isDigit_of_mem_toDigits (by decide) (by decide) hd
    simp only [Char.isDigit, ge_iff_le, Bool.and_eq_true, decide_eq_true_eq] at hdigit
    refine Char.utf8Size_eq_one_iff.2 ?_
    exact Nat.le_trans (UInt32.le_iff_toNat_le.1 hdigit.2) (by decide)
  have htext : toString n = n.repr := rfl
  rw [htext, Nat.repr_eq_ofList_toDigits, utf8ByteSize_ofList hdigits]

/-- A number below a power of ten has no more digits than the exponent. -/
theorem size_toString_le {n : ℤ} {k : ℕ} (hk : 0 < k) (hn : 0 ≤ n) (hlt : n < 10 ^ k) :
    (toString n).utf8ByteSize ≤ k := by
  obtain ⟨m, rfl⟩ := Int.eq_ofNat_of_zero_le hn
  have htext : toString (m : ℤ) = toString m := rfl
  rw [htext, size_toString]
  exact (Nat.length_toDigits_le_iff (by decide) hk).2 (by exact_mod_cast hlt)

/-- A larger number takes no fewer bytes. -/
theorem size_toString_mono {m n : ℕ} (hle : m ≤ n) :
    (toString m).utf8ByteSize ≤ (toString n).utf8ByteSize := by
  rw [size_toString, size_toString]
  have hpos : 0 < (Nat.toDigits 10 n).length := Nat.length_toDigits_pos
  have hlt := (Nat.length_toDigits_le_iff (n := n) (by decide : 1 < 10) hpos).1 (Nat.le_refl _)
  exact (Nat.length_toDigits_le_iff (by decide) hpos).2 (Nat.lt_of_le_of_lt hle hlt)

/-- A string member with its comma, however much is escaped. -/
theorem textWeight_le (name s : String) :
    textWeight name s ≤ name.utf8ByteSize + 6 * s.utf8ByteSize + 6 := by
  have := textSize_le s
  unfold textWeight
  split_ifs <;> omega

theorem textWeight_plain_le (name : String) {s : String} (h : s.toList.all isPlain = true) :
    textWeight name s ≤ name.utf8ByteSize + s.toList.length + 6 := by
  unfold textWeight
  rw [textSize_plain h]
  split_ifs <;> omega

theorem weight_optInt_le (name : String) {n : ℤ} {k : ℕ} (hk : 0 < k) (hn : 0 ≤ n)
    (hlt : n < 10 ^ k) : weight (optInt name n) ≤ name.utf8ByteSize + k + 4 := by
  have := size_toString_le hk hn hlt
  unfold optInt
  split_ifs
  · exact Nat.zero_le _
  · rw [weight_cons, weight_nil, size_member]
    omega

end GoJson
