import LanChat.Lib.Json
import LanChat.Lib.GoStrings
import Mathlib.Data.List.TakeWhile
import Mathlib.Order.WithBot

/-!
# Reading JSON texts

A pushdown automaton that goes through a text character by character, as the parsers of
`encoding/json` and `nlohmann::json` do.

* `Reader`, `Reader.step`, `parse`: what has been read of a string, a number or a literal, and the
  arrays and objects that are open;
* `Dialect`: where the two parsers differ;
* `Reads`: wherever a value may stand, a text is read as the given one; `reads_quote`, `reads_int`,
  `Reads.array`, `Reads.object` put such texts together as a writer does;
* `reads_compact`: so is a raw text that has been through `compact`;
* `written_parse`: what is accepted can be written again.
-/

namespace JsonReader

/-! ### Strings, numbers and literals -/

/-- A piece of a string: a character, or one half of a surrogate pair. -/
inductive Piece
  | char (c : Char)
  | surrogate (code : ℕ)

/-- Where parsers differ: the character for a half of a surrogate pair that stands alone, the text
kept of a number that is no integer of 64 bits, whether a byte order mark is skipped and NUL ends
the text, how deep values nest, and what the members of an object, latest first, are made into. -/
structure Dialect where
  lone : Option Char
  float : String → Option String
  padded : Bool
  maxDepth : WithTop ℕ
  close : List (String × Json) → List (String × Json)

/-- The characters of a string. -/
def joinPieces (lone : Option Char) : List Piece → Option (List Char)
  | [] => some []
  | .char c :: ps => (joinPieces lone ps).map (c :: ·)
  | .surrogate hi :: .surrogate lo :: ps =>
    if hi < 0xDC00 ∧ 0xDC00 ≤ lo then
      (joinPieces lone ps).map
        (Char.ofNat (0x10000 + (hi - 0xD800) * 1024 + (lo - 0xDC00)) :: ·)
    else lone.bind fun c => (joinPieces lone (.surrogate lo :: ps)).map (c :: ·)
  | .surrogate _ :: ps => lone.bind fun c => (joinPieces lone ps).map (c :: ·)

/-- The piece that four hexadecimal digits stand for. -/
def pieceOf (code : ℕ) : Piece :=
  if 0xD800 ≤ code ∧ code < 0xE000 then .surrogate code else .char (Char.ofNat code)

/-- The value of a hexadecimal digit. -/
def hexValue (c : Char) : Option ℕ :=
  if c.isDigit then some (c.toNat - 48)
  else if 'a' ≤ c ∧ c ≤ 'f' then some (c.toNat - 87)
  else if 'A' ≤ c ∧ c ≤ 'F' then some (c.toNat - 55) else none

/-- The character after a backslash, `u` apart. -/
def unescape : Char → Option Char
  | '"' => some '"'
  | '\\' => some '\\'
  | '/' => some '/'
  | 'b' => some (Char.ofNat 8)
  | 'f' => some (Char.ofNat 12)
  | 'n' => some '\n'
  | 'r' => some '\r'
  | 't' => some '\t'
  | _ => none

/-- An exponent, or nothing. -/
def isExponent : List Char → Bool
  | [] => true
  | c :: cs =>
    let digits := match cs with
      | '+' :: ds => ds
      | '-' :: ds => ds
      | ds => ds
    (c == 'e' || c == 'E') && digits ≠ [] && digits.all Char.isDigit

/-- A fraction and an exponent, or nothing. -/
def isFraction : List Char → Bool
  | '.' :: cs => cs.takeWhile Char.isDigit ≠ [] && isExponent (cs.dropWhile Char.isDigit)
  | cs => isExponent cs

/-- A number; of one that is no integer of 64 bits `float` says what is kept. -/
def number? (float : String → Option String) (cs : List Char) : Option Json :=
  let body := if cs.head? = some '-' then cs.tail else cs
  let whole := body.takeWhile Char.isDigit
  let rest := body.dropWhile Char.isDigit
  if whole = [] ∨ (whole.head? = some '0' ∧ whole.length ≠ 1) ∨ isFraction rest = false then none
  else
    let n : ℤ := Nat.ofDigitChars 10 whole 0
    let n := if cs.head? = some '-' then -n else n
    if rest = [] ∧ -2 ^ 63 ≤ n ∧ n < 2 ^ 64 then some (.int n)
    else (float (String.ofList cs)).map .float

/-- A literal or a number. -/
def scalar? (float : String → Option String) (cs : List Char) : Option Json :=
  if cs = ['n', 'u', 'l', 'l'] then some .null
  else if cs = ['t', 'r', 'u', 'e'] then some (.bool true)
  else if cs = ['f', 'a', 'l', 's', 'e'] then some (.bool false)
  else number? float cs

/-- A character of a literal or a number. -/
def isBare (c : Char) : Bool := c.isAlphanum || c == '-' || c == '+' || c == '.'

/-- A blank. -/
def isBlank (c : Char) : Bool := c == ' ' || c == '\t' || c == '\n' || c == '\r'

/-! ### The open arrays and objects -/

/-- An open array, or an open object at the value of a member; the latest entry stands first. -/
inductive Frame
  | array (values : List Json)
  | object (members : List (String × Json)) (name : String)

/-- What must come: a value, the name of a member, a colon, or what may follow a value. -/
inductive State
  | value (stack : List Frame)
  | member (members : List (String × Json)) (stack : List Frame)
  | colon (members : List (String × Json)) (name : String) (stack : List Frame)
  | after (v : Json) (stack : List Frame)

/-- A token. -/
inductive Token
  | beginArray | endArray | beginObject | endObject | comma | colon
  | text (s : String)
  | scalar (v : Json)

/-- The token of a single character. -/
def punctuation : Char → Option Token
  | '[' => some .beginArray
  | ']' => some .endArray
  | '\x7b' => some .beginObject
  | '\x7d' => some .endObject
  | ',' => some .comma
  | ':' => some .colon
  | _ => none

section Automaton

variable (d : Dialect)

/-- One more container fits around the values. -/
def Dialect.fits (n : ℕ) : Prop := WithTop.some (n + 1) ≤ d.maxDepth

instance (n : ℕ) : Decidable (d.fits n) := by
  unfold Dialect.fits
  infer_instance

/-- A token is read. -/
def State.step : State → Token → Option State
  | .value stack, .scalar v => some (.after v stack)
  | .value stack, .text s => some (.after (.text s) stack)
  | .value stack, .beginArray =>
    if d.fits stack.length then some (.value (.array [] :: stack)) else none
  | .value stack, .beginObject => if d.fits stack.length then some (.member [] stack) else none
  | .value (.array [] :: stack), .endArray => some (.after (.array []) stack)
  | .member [] stack, .endObject => some (.after (.object []) stack)
  | .member members stack, .text s => some (.colon members s stack)
  | .colon members name stack, .colon => some (.value (.object members name :: stack))
  | .after v (.array values :: stack), .comma => some (.value (.array (v :: values) :: stack))
  | .after v (.array values :: stack), .endArray =>
    some (.after (.array (v :: values).reverse) stack)
  | .after v (.object members name :: stack), .comma =>
    some (.member ((name, v) :: members) stack)
  | .after v (.object members name :: stack), .endObject =>
    some (.after (.object (d.close ((name, v) :: members))) stack)
  | _, _ => none

/-- Where in a token the reader is; what has been read of it stands in reverse. -/
inductive Mode
  | between
  | bare (digits : List Char)
  | string (pieces : List Piece)
  | escape (pieces : List Piece)
  | unicode (pieces : List Piece) (count code : ℕ)

/-- The automaton. -/
structure Reader where
  mode : Mode
  state : State

/-- The state when a literal or number that is being read ends here; `none` inside a string. -/
def Reader.settle (r : Reader) : Option State :=
  match r.mode with
  | .between => some r.state
  | .bare digits => (scalar? d.float digits.reverse).bind fun v => r.state.step d (.scalar v)
  | _ => none

/-- A character between tokens. -/
def start (st : State) (c : Char) : Option Reader :=
  if isBlank c then some ⟨.between, st⟩
  else if c = '"' then some ⟨.string [], st⟩
  else if isBare c then some ⟨.bare [c], st⟩
  else (punctuation c).bind fun t => (st.step d t).map fun st => ⟨.between, st⟩

/-- A character is read. -/
def Reader.step (r : Reader) (c : Char) : Option Reader :=
  match r.mode with
  | .between => start d r.state c
  | .bare digits =>
    if isBare c then some ⟨.bare (c :: digits), r.state⟩
    else (r.settle d).bind fun st => start d st c
  | .string pieces =>
    if c = '"' then (joinPieces d.lone pieces.reverse).bind fun s =>
      (r.state.step d (.text (String.ofList s))).map fun st => ⟨.between, st⟩
    else if c = '\\' then some ⟨.escape pieces, r.state⟩
    else if c.toNat < 32 then none
    else some ⟨.string (.char c :: pieces), r.state⟩
  | .escape pieces =>
    if c = 'u' then some ⟨.unicode pieces 0 0, r.state⟩
    else (unescape c).map fun e => ⟨.string (.char e :: pieces), r.state⟩
  | .unicode pieces count code => (hexValue c).map fun n =>
    if count = 3 then ⟨.string (pieceOf (16 * code + n) :: pieces), r.state⟩
    else ⟨.unicode pieces (count + 1) (16 * code + n), r.state⟩

/-- A text is read. -/
def run (r : Reader) (cs : List Char) : Option Reader := cs.foldlM (Reader.step d) r

/-- The value of a whole text. -/
def State.done : State → Option Json
  | .after v [] => some v
  | _ => none

/-- The value of a text that nothing pads. -/
def value? (cs : List Char) : Option Json :=
  ((run d ⟨.between, .value []⟩ cs).bind (Reader.settle d)).bind State.done

/-- The byte order mark. -/
def byteOrderMark : Char := Char.ofNat 0xFEFF

/-- What is read of a text.  A parser that takes NUL for the end of its input does so between tokens
and refuses it within one, as it refuses a token that the end of the text cuts off. -/
def Dialect.trim (cs : List Char) : List Char :=
  if d.padded then
    (if cs.head? = some byteOrderMark then cs.tail else cs).takeWhile (· ≠ Char.ofNat 0)
  else cs

/-- `json.Unmarshal` into a value and `nlohmann::json::parse`. -/
def parse (text : String) : Option Json := value? d (d.trim text.toList)

end Automaton

/-! ### Runs -/

variable {d : Dialect} {r : Reader} {st : State} {c : Char} {cs ds : List Char} {n : ℕ} {v : Json}

@[simp] theorem run_nil (d : Dialect) (r : Reader) : run d r [] = some r := rfl

theorem run_cons (d : Dialect) (r : Reader) (c : Char) (cs : List Char) :
    run d r (c :: cs) = (r.step d c).bind fun r => run d r cs := by
  simp [run, List.foldlM_cons]

theorem run_append (d : Dialect) (r : Reader) (cs ds : List Char) :
    run d r (cs ++ ds) = (run d r cs).bind fun r => run d r ds := by
  simp [run, List.foldlM_append]

/-- Behind a token that may end, a character that does not belong to it starts the next one. -/
theorem step_of_settle (h : r.settle d = some st) (hc : isBare c = false) :
    r.step d c = start d st c := by
  obtain ⟨mode, state⟩ := r
  cases mode with
  | between =>
    obtain rfl := Option.some.inj h
    rfl
  | bare digits => simp [Reader.step, hc, h]
  | string _ => cases h
  | escape _ => cases h
  | unicode _ _ _ => cases h

theorem not_blank_of_isBare (h : isBare c = true) : isBlank c = false ∧ c ≠ '"' := by
  constructor
  · by_contra hblank
    simp only [isBlank, Bool.not_eq_false, Bool.or_eq_true, beq_iff_eq] at hblank
    rcases hblank with ((rfl | rfl) | rfl) | rfl <;> exact absurd h (by decide)
  · rintro rfl
    exact absurd h (by decide)

theorem run_bare (hcs : ∀ c ∈ cs, isBare c = true) (ds : List Char) (st : State) :
    run d ⟨.bare ds, st⟩ cs = some ⟨.bare (cs.reverse ++ ds), st⟩ := by
  induction cs generalizing ds with
  | nil => rfl
  | cons c cs ih =>
    have hstep : Reader.step d ⟨.bare ds, st⟩ c = some ⟨.bare (c :: ds), st⟩ := by
      simp [Reader.step, hcs c List.mem_cons_self]
    rw [run_cons, hstep, Option.bind_some, ih fun c hc => hcs c (List.mem_cons_of_mem _ hc)]
    simp

/-- A value does not begin with a byte order mark. -/
theorem step_mark (st : State) : Reader.step d ⟨.between, st⟩ byteOrderMark = none := by
  simp [Reader.step, start, byteOrderMark, show isBlank (Char.ofNat 0xFEFF) = false by decide,
    show Char.ofNat 0xFEFF ≠ '"' by decide, show isBare (Char.ofNat 0xFEFF) = false by decide,
    show punctuation (Char.ofNat 0xFEFF) = none by decide]

/-- NUL has no meaning between tokens, nor in one. -/
theorem step_nul (r : Reader) : r.step d (Char.ofNat 0) = none := by
  have hstart : ∀ st, start d st (Char.ofNat 0) = none := fun _ => rfl
  obtain ⟨mode, state⟩ := r
  cases mode with
  | between => exact hstart state
  | bare digits => simp [Reader.step, hstart, show isBare (Char.ofNat 0) = false by decide]
  | string pieces => rfl
  | escape pieces => rfl
  | unicode pieces count code => rfl

theorem ne_nul_of_run {r' : Reader} (h : run d r cs = some r') (hc : c ∈ cs) : c ≠ Char.ofNat 0 := by
  induction cs generalizing r with
  | nil => cases hc
  | cons c' cs ih =>
    rw [run_cons] at h
    obtain ⟨r₁, hstep, hrun⟩ := Option.bind_eq_some_iff.1 h
    rcases List.mem_cons.1 hc with rfl | hc
    · rintro rfl
      rw [step_nul] at hstep
      cases hstep
    · exact ih hrun hc

/-! ### Reading a value -/

/-- Wherever a value may stand inside `n` containers, the text is read as the given one. -/
def Reads (d : Dialect) (n : ℕ) (cs : List Char) (v : Json) : Prop :=
  ∀ stack : List Frame, stack.length = n → ∃ r, run d ⟨.between, .value stack⟩ cs = some r ∧
    r.settle d = some (.after v stack)

theorem value?_of_reads (h : Reads d 0 cs v) : value? d cs = some v := by
  obtain ⟨r, hrun, hsettle⟩ := h [] rfl
  simp [value?, hrun, hsettle, State.done]

theorem value?_eq (h : value? d cs = some v) : ∃ r, run d ⟨.between, .value []⟩ cs = some r ∧
    r.settle d = some (.after v []) := by
  obtain ⟨st, hsettled, hdone⟩ := Option.bind_eq_some_iff.1 h
  obtain ⟨r, hrun, hsettle⟩ := Option.bind_eq_some_iff.1 hsettled
  unfold State.done at hdone
  split at hdone
  · rw [Option.some.inj hdone] at hsettle
    exact ⟨r, hrun, hsettle⟩
  · cases hdone

/-- A text that is read without padding has none. -/
theorem parse_of_value? {text : String} (h : value? d text.toList = some v) :
    parse d text = some v := by
  obtain ⟨r, hrun, -⟩ := value?_eq h
  rw [parse, Dialect.trim]
  split_ifs with hpadded hmark
  · obtain ⟨cs, hcs⟩ := List.head?_eq_some_iff.1 hmark
    rw [hcs, run_cons, step_mark] at hrun
    cases hrun
  · rwa [List.takeWhile_eq_self_iff.2 fun c hc => by simpa using ne_nul_of_run hrun hc]
  · exact h

theorem parse_of_reads {text : String} (h : Reads d 0 text.toList v) : parse d text = some v :=
  parse_of_value? (value?_of_reads h)

/-- A literal or a number. -/
theorem reads_scalar (hne : cs ≠ []) (hbare : ∀ c ∈ cs, isBare c = true)
    (hscalar : scalar? d.float cs = some v) : Reads d n cs v := by
  intro stack _
  obtain ⟨c, cs, rfl⟩ := List.exists_cons_of_ne_nil hne
  have hc := hbare c List.mem_cons_self
  obtain ⟨hblank, hquote⟩ := not_blank_of_isBare hc
  have hstep : Reader.step d ⟨.between, .value stack⟩ c = some ⟨.bare [c], .value stack⟩ := by
    simp [Reader.step, start, hblank, hquote, hc]
  refine ⟨⟨.bare (cs.reverse ++ [c]), .value stack⟩, ?_, ?_⟩
  · rw [run_cons, hstep, Option.bind_some, run_bare fun c hc => hbare c (List.mem_cons_of_mem _ hc)]
  · have hreverse : (cs.reverse ++ [c]).reverse = c :: cs := by simp
    simp [Reader.settle, hscalar, State.step]

theorem reads_null : Reads d n "null".toList .null :=
  reads_scalar (List.cons_ne_nil _ _) (List.all_eq_true.1 rfl) rfl

theorem reads_bool (b : Bool) : Reads d n (if b then "true" else "false").toList (.bool b) := by
  cases b with
  | false => exact reads_scalar (List.cons_ne_nil _ _) (List.all_eq_true.1 rfl) rfl
  | true => exact reads_scalar (List.cons_ne_nil _ _) (List.all_eq_true.1 rfl) rfl

/-! ### Numbers -/

/-- Only the number zero starts with the digit zero. -/
theorem toDigits_head_zero (n : ℕ) (h : (Nat.toDigits 10 n).head? = some '0') : n = 0 := by
  induction n using Nat.strongRecOn with
  | ind n ih =>
    by_cases hlt : n < 10
    · rw [Nat.toDigits_of_lt_base hlt] at h
      have hall : ∀ k : Fin 10, [Nat.digitChar k].head? = some '0' → k = 0 := by decide
      simpa using congrArg Fin.val (hall ⟨n, hlt⟩ h)
    · rw [Nat.toDigits_of_base_le (by decide) (by omega),
        List.head?_append_of_ne_nil _ Nat.toDigits_ne_nil] at h
      have := ih (n / 10) (by omega) h
      omega

theorem isBare_of_isDigit (h : c.isDigit = true) : isBare c = true := by
  simp [isBare, Char.isAlphanum, h]

theorem ne_minus_of_isDigit (h : c.isDigit = true) : c ≠ '-' := by
  rintro rfl
  exact absurd h (by decide)

/-- The digits of a number, with the sign that stands before them. -/
theorem number?_digits {k : ℕ} {sign : List Char} (hsign : sign = [] ∨ sign = ['-'])
    {m : ℤ} (hm : m = if sign = [] then (k : ℤ) else -k) (hlow : -2 ^ 63 ≤ m) (hhigh : m < 2 ^ 64) :
    number? d.float (sign ++ Nat.toDigits 10 k) = some (.int m) := by
  have hdigit : ∀ c ∈ Nat.toDigits 10 k, c.isDigit = true := fun c hc =>
    Nat.isDigit_of_mem_toDigits (by decide) (by decide) hc
  have hnil : Nat.toDigits 10 k ≠ [] := Nat.toDigits_ne_nil
  have htake : (Nat.toDigits 10 k).takeWhile Char.isDigit = Nat.toDigits 10 k :=
    List.takeWhile_eq_self_iff.2 hdigit
  have hdrop : (Nat.toDigits 10 k).dropWhile Char.isDigit = [] :=
    List.dropWhile_eq_nil_iff.2 hdigit
  -- no zero stands in front, but for the number zero itself
  have hzero : ¬ ((Nat.toDigits 10 k).head? = some '0' ∧ (Nat.toDigits 10 k).length ≠ 1) := by
    rintro ⟨hhead, hlength⟩
    obtain rfl := toDigits_head_zero k hhead
    exact hlength rfl
  have hhead : (Nat.toDigits 10 k).head? ≠ some '-' := by
    intro hminus
    exact ne_minus_of_isDigit (hdigit _ (List.mem_of_mem_head? hminus)) rfl
  rcases hsign with rfl | rfl
  · simp only [number?, List.nil_append, hhead, if_false, htake, hdrop, hnil, hzero,
      Nat.ofDigitChars_ten_toDigits]
    simp only [if_true] at hm
    simpa [isFraction, isExponent, ← hm] using ⟨hlow, hhigh⟩
  · simp only [number?, List.singleton_append, List.head?_cons, if_true, List.tail_cons, htake,
      hdrop, hnil, hzero, Nat.ofDigitChars_ten_toDigits]
    simp only [List.cons_ne_nil, if_false] at hm
    simpa [isFraction, isExponent, ← hm] using ⟨hlow, hhigh⟩

theorem reads_int {k : ℤ} (hlow : -2 ^ 63 ≤ k) (hhigh : k < 2 ^ 64) :
    Reads d n (toString k).toList (.int k) := by
  obtain ⟨sign, m, hsign, htext, hk⟩ : ∃ sign m, (sign = [] ∨ sign = ['-']) ∧
      (toString k).toList = sign ++ Nat.toDigits 10 m ∧
      k = if sign = [] then (m : ℤ) else -(m : ℤ) := by
    cases k with
    | ofNat m => exact ⟨[], m, .inl rfl, Nat.toList_repr, rfl⟩
    | negSucc m =>
      refine ⟨['-'], m + 1, .inr rfl, ?_, by simp [Int.negSucc_eq]⟩
      rw [show toString (Int.negSucc m) = "-" ++ (m + 1).repr from rfl, String.toList_append,
        Nat.toList_repr]
      rfl
  have hchars : ∀ c ∈ sign ++ Nat.toDigits 10 m, c = '-' ∨ c.isDigit = true := by
    intro c hc
    rcases List.mem_append.1 hc with hc | hc
    · rcases hsign with rfl | rfl
      · cases hc
      · exact .inl (List.mem_singleton.1 hc)
    · exact .inr (Nat.isDigit_of_mem_toDigits (by decide) (by decide) hc)
  -- so the text is none of the three literals
  have hliteral : ∀ c, c ∈ sign ++ Nat.toDigits 10 m → c ≠ 'n' ∧ c ≠ 't' ∧ c ≠ 'f' := by
    intro c hc
    rcases hchars c hc with rfl | hdigit
    · decide
    · refine ⟨?_, ?_, ?_⟩ <;> rintro rfl <;> exact absurd hdigit (by decide)
  rw [htext]
  refine reads_scalar (by simp [Nat.toDigits_ne_nil]) ?_ ?_
  · intro c hc
    rcases hchars c hc with rfl | hdigit
    · decide
    · exact isBare_of_isDigit hdigit
  · have hne : ∀ c cs, (c = 'n' ∨ c = 't' ∨ c = 'f') →
        sign ++ Nat.toDigits 10 m ≠ c :: cs := by
      intro c cs hc heq
      obtain ⟨hn, ht, hf⟩ := hliteral c (heq ▸ List.mem_cons_self)
      rcases hc with rfl | rfl | rfl <;> contradiction
    rw [scalar?, if_neg (hne _ _ (by simp)), if_neg (hne _ _ (by simp)),
      if_neg (hne _ _ (by simp))]
    exact number?_digits hsign hk hlow hhigh

/-! ### Strings -/

/-- Inside a string every character is read from its text. -/
def ReadsBack (d : Dialect) (text : Char → String) : Prop :=
  ∀ c pieces st, run d ⟨.string pieces, st⟩ (text c).toList =
    some ⟨.string (.char c :: pieces), st⟩

/-- A string in quotes. -/
def quoted (text : Char → String) (s : String) : String :=
  "\"" ++ GoJson.concat (s.toList.map text) ++ "\""

theorem joinPieces_chars (lone : Option Char) (s : List Char) :
    joinPieces lone (s.map .char) = some s := by
  induction s with
  | nil => rfl
  | cons c s ih => simp [joinPieces, ih]

/-- Between quotes stands the text of a string. -/
theorem run_string {s : String}
    (h : run d ⟨.string [], st⟩ cs = some ⟨.string (s.toList.map .char).reverse, st⟩) :
    run d ⟨.between, st⟩ ('"' :: (cs ++ ['"'])) =
      (st.step d (.text s)).map fun st => ⟨.between, st⟩ := by
  have hopen : Reader.step d ⟨.between, st⟩ '"' = some ⟨.string [], st⟩ := rfl
  rw [run_cons, hopen, Option.bind_some, run_append, h, Option.bind_some, run_cons]
  simp only [Reader.step, if_true, List.reverse_reverse, joinPieces_chars, Option.bind_some,
    String.ofList_toList]
  cases st.step d (.text s) <;> rfl

section Quoted

variable {text : Char → String}

theorem run_concat (h : ReadsBack d text) (s : List Char) (pieces : List Piece) (st : State) :
    run d ⟨.string pieces, st⟩ (GoJson.concat (s.map text)).toList =
      some ⟨.string ((s.map .char).reverse ++ pieces), st⟩ := by
  induction s generalizing pieces with
  | nil => rfl
  | cons c s ih =>
    rw [List.map_cons, GoJson.concat, String.toList_append, run_append, h c, Option.bind_some, ih]
    simp

/-- A string in quotes is one token. -/
theorem run_quoted (h : ReadsBack d text) (s : String) (st : State) :
    run d ⟨.between, st⟩ (quoted text s).toList =
      (st.step d (.text s)).map fun st => ⟨.between, st⟩ := by
  have htext : (quoted text s).toList =
      '"' :: ((GoJson.concat (s.toList.map text)).toList ++ ['"']) := by
    simp [quoted, String.toList_append]
  rw [htext]
  refine run_string ?_
  rw [run_concat h, List.append_nil]

theorem reads_quoted (h : ReadsBack d text) (s : String) :
    Reads d n (quoted text s).toList (.text s) := by
  intro stack _
  refine ⟨⟨.between, .after (.text s) stack⟩, ?_, rfl⟩
  rw [run_quoted h]
  rfl

end Quoted

/-- A character that stands for itself inside a string. -/
def isVerbatim (c : Char) : Bool := c != '"' && c != '\\' && decide (32 ≤ c.toNat)

theorem step_plain (h : isVerbatim c = true) (pieces : List Piece) (st : State) :
    Reader.step d ⟨.string pieces, st⟩ c = some ⟨.string (.char c :: pieces), st⟩ := by
  simp only [isVerbatim, Bool.and_eq_true, bne_iff_ne, decide_eq_true_eq] at h
  obtain ⟨⟨hquote, hbackslash⟩, hlow⟩ := h
  simp [Reader.step, hquote, hbackslash, Nat.not_lt.2 hlow]

theorem run_plain (h : cs.all isVerbatim = true) (pieces : List Piece) (st : State) :
    run d ⟨.string pieces, st⟩ cs = some ⟨.string ((cs.map .char).reverse ++ pieces), st⟩ := by
  induction cs generalizing pieces with
  | nil => rfl
  | cons c cs ih =>
    rw [List.all_cons, Bool.and_eq_true] at h
    rw [run_cons, step_plain h.1, Option.bind_some, ih h.2]
    simp

theorem hexValue_hexDigit {k : ℕ} (hk : k < 16) : hexValue (GoJson.hexDigit k) = some k := by
  have hall : ∀ k : Fin 16, hexValue (GoJson.hexDigit k) = some k.val := by decide
  exact hall ⟨k, hk⟩

theorem pieceOf_toNat (c : Char) : pieceOf c.toNat = .char c := by
  have hvalid : c.toNat < 0xD800 ∨ (0xDFFF < c.toNat ∧ c.toNat < 0x110000) := c.valid
  rw [pieceOf, if_neg (by omega), Char.ofNat_toNat]

theorem run_unicodeEscape (hc : c.toNat < 0x10000) (pieces : List Piece) (st : State) :
    run d ⟨.string pieces, st⟩ (GoJson.unicodeEscape c).toList =
      some ⟨.string (.char c :: pieces), st⟩ := by
  have htext : (GoJson.unicodeEscape c).toList =
      ['\\', 'u', GoJson.hexDigit (c.toNat / 4096 % 16), GoJson.hexDigit (c.toNat / 256 % 16),
        GoJson.hexDigit (c.toNat / 16 % 16), GoJson.hexDigit (c.toNat % 16)] := by
    simp [GoJson.unicodeEscape]
  have hopen : Reader.step d ⟨.string pieces, st⟩ '\\' = some ⟨.escape pieces, st⟩ := rfl
  have hu : Reader.step d ⟨.escape pieces, st⟩ 'u' = some ⟨.unicode pieces 0 0, st⟩ := rfl
  have hmod : ∀ k : ℕ, k % 16 < 16 := fun k => Nat.mod_lt _ (by decide)
  -- the four digits together are the number of the character
  have hcode : 16 * (16 * (16 * (16 * 0 + c.toNat / 4096 % 16) + c.toNat / 256 % 16) +
      c.toNat / 16 % 16) + c.toNat % 16 = c.toNat := by omega
  rw [htext, run_cons, hopen, Option.bind_some, run_cons, hu, Option.bind_some]
  simp only [run_cons, run_nil, Reader.step, hexValue_hexDigit (hmod _), Option.map_some,
    Option.bind_some, Nat.reduceEqDiff, if_false, if_true, zero_add, Nat.reduceAdd]
  rw [hcode, pieceOf_toNat]

theorem isVerbatim_of_isHTML (h : GoJson.isHTML c = true) :
    isVerbatim c = true ∧ c.toNat < 0x10000 := by
  simp only [GoJson.isHTML, Bool.or_eq_true, beq_iff_eq] at h
  rcases h with (((rfl | rfl) | rfl) | h) | h
  · decide
  · decide
  · decide
  · obtain rfl : c = Char.ofNat 0x2028 := by rw [← h, Char.ofNat_toNat]
    decide
  · obtain rfl : c = Char.ofNat 0x2029 := by rw [← h, Char.ofNat_toNat]
    decide

/-- `json.Marshal` writes a character so that it is read back. -/
theorem readsBack_escapeChar (d : Dialect) : ReadsBack d GoJson.escapeChar := by
  intro c pieces st
  have hcode : ∀ k : ℕ, c.toNat = k → c = Char.ofNat k := by
    rintro k rfl
    exact (Char.ofNat_toNat c).symm
  unfold GoJson.escapeChar
  split_ifs with hquote hbackslash h8 h12 hn hr ht hescape
  · subst hquote
    rfl
  · subst hbackslash
    rfl
  · rw [hcode 8 h8]
    rfl
  · rw [hcode 12 h12]
    rfl
  · subst hn
    rfl
  · subst hr
    rfl
  · subst ht
    rfl
  · refine run_unicodeEscape ?_ pieces st
    rcases hescape with hlow | hhtml
    · omega
    · exact (isVerbatim_of_isHTML hhtml).2
  · have hplain : isVerbatim c = true := by
      simp only [not_or, Nat.not_lt] at hescape
      simp [isVerbatim, hquote, hbackslash, hescape.1]
    rw [String.toList_singleton, run_cons, step_plain hplain, Option.bind_some, run_nil]

/-- So does a writer that escapes no HTML. -/
theorem readsBack_plainChar (d : Dialect) : ReadsBack d GoJson.plainChar := by
  intro c pieces st
  unfold GoJson.plainChar
  split_ifs with hhtml
  · rw [String.toList_singleton, run_cons, step_plain (isVerbatim_of_isHTML hhtml).1,
      Option.bind_some, run_nil]
  · exact readsBack_escapeChar d c pieces st

theorem reads_quote (s : String) : Reads d n (GoJson.quote s).toList (.text s) :=
  reads_quoted (readsBack_escapeChar d) s

theorem reads_plainQuote (s : String) : Reads d n (GoJson.plainQuote s).toList (.text s) :=
  reads_quoted (readsBack_plainChar d) s

/-! ### Arrays and objects -/

/-- Entries with commas between them, up to the closing bracket: `opened` is the state before an
entry and `last` the one after it. -/
theorem run_sequence {α : Type} {reads : String → α → Prop} (opened : List α → State)
    (last : α → List α → State) (closed : List α → State) {bracket : Char}
    (hread : ∀ t a acc, reads t a → ∃ r, run d ⟨.between, opened acc⟩ t.toList = some r ∧
      r.settle d = some (last a acc))
    (hcomma : ∀ a acc, start d (last a acc) ',' = some ⟨.between, opened (a :: acc)⟩)
    (hclose : ∀ a acc, start d (last a acc) bracket = some ⟨.between, closed (a :: acc)⟩)
    (hbare : isBare bracket = false) {texts : List String} {as : List α}
    (h : List.Forall₂ reads texts as) (hne : texts ≠ []) (acc : List α) :
    run d ⟨.between, opened acc⟩ ((GoJson.commaJoin texts).toList ++ [bracket]) =
      some ⟨.between, closed (as.reverse ++ acc)⟩ := by
  -- the last entry meets the bracket, every other one a comma
  induction h generalizing acc with
  | nil => exact absurd rfl hne
  | @cons t a ts as hta hrest ih =>
    obtain ⟨r, hrun, hsettle⟩ := hread t a acc hta
    cases ts with
    | nil =>
      cases hrest
      rw [GoJson.commaJoin, run_append, hrun, Option.bind_some, run_cons,
        step_of_settle hsettle hbare, hclose]
      rfl
    | cons t' ts =>
      rw [GoJson.commaJoin, String.toList_append, String.toList_append, List.append_assoc,
        List.append_assoc, run_append, hrun, Option.bind_some]
      change run d r (',' :: ((GoJson.commaJoin (t' :: ts)).toList ++ [bracket])) = _
      rw [run_cons, step_of_settle hsettle (by decide), hcomma, Option.bind_some,
        ih (List.cons_ne_nil _ _)]
      simp

theorem Reads.array (hfits : d.fits n) {texts : List String} {values : List Json}
    (h : List.Forall₂ (fun t v => Reads d (n + 1) t.toList v) texts values) :
    Reads d n (GoJson.array texts).toList (.array values) := by
  intro stack hlength
  refine ⟨⟨.between, .after (.array values) stack⟩, ?_, rfl⟩
  have hopen : Reader.step d ⟨.between, .value stack⟩ '[' =
      some ⟨.between, .value (.array [] :: stack)⟩ := by
    subst hlength
    simp [Reader.step, start, isBlank, isBare, punctuation, State.step, hfits]
  have htext : (GoJson.array texts).toList = '[' :: ((GoJson.commaJoin texts).toList ++ [']']) := by
    simp [GoJson.array, String.toList_append]
  rw [htext, run_cons, hopen, Option.bind_some]
  cases texts with
  | nil =>
    cases h
    rfl
  | cons t ts =>
    rw [run_sequence (fun acc => .value (.array acc :: stack))
      (fun v acc => .after v (.array acc :: stack)) (fun acc => .after (.array acc.reverse) stack)
      ?_ (fun _ _ => rfl) (fun _ _ => rfl) (by decide) h (List.cons_ne_nil _ _)]
    · simp
    · intro t v acc hread
      exact hread (.array acc :: stack) (by simp [hlength])

/-- In an object inside `n` containers the text is read as the member. -/
def ReadsMember (d : Dialect) (n : ℕ) (text : String) (m : String × Json) : Prop :=
  ∀ members (stack : List Frame), stack.length = n →
    ∃ r, run d ⟨.between, .member members stack⟩ text.toList = some r ∧
      r.settle d = some (.after m.2 (.object members m.1 :: stack))

theorem Reads.object (hfits : d.fits n) {texts : List String} {members : List (String × Json)}
    (h : List.Forall₂ (ReadsMember d n) texts members) (hclose : d.close members.reverse = members) :
    Reads d n (GoJson.object texts).toList (.object members) := by
  intro stack hlength
  refine ⟨⟨.between, .after (.object members) stack⟩, ?_, rfl⟩
  have hopen : Reader.step d ⟨.between, .value stack⟩ '\x7b' =
      some ⟨.between, .member [] stack⟩ := by
    subst hlength
    simp [Reader.step, start, isBlank, isBare, punctuation, State.step, hfits]
  have htext : (GoJson.object texts).toList =
      '\x7b' :: ((GoJson.commaJoin texts).toList ++ ['\x7d']) := by
    simp [GoJson.object, String.toList_append]
  rw [htext, run_cons, hopen, Option.bind_some]
  cases texts with
  | nil =>
    cases h
    rfl
  | cons t ts =>
    rw [run_sequence (fun acc => .member acc stack)
      (fun m acc => .after m.2 (.object acc m.1 :: stack))
      (fun acc => .after (.object (d.close acc)) stack) ?_ (fun _ _ => rfl) (fun _ _ => rfl)
      (by decide) h (List.cons_ne_nil _ _)]
    · simp [hclose]
    · intro t m acc hread
      exact hread acc stack hlength

theorem step_name (members : List (String × Json)) (stack : List Frame) (name : String) :
    State.step d (.member members stack) (.text name) = some (.colon members name stack) := by
  cases members <;> rfl

/-- A member, under a name in quotes. -/
theorem Reads.member_quoted {text : Char → String} (htext : ReadsBack d text) (name : String)
    {value : String} (h : Reads d (n + 1) value.toList v) :
    ReadsMember d n (quoted text name ++ ":" ++ value) (name, v) := by
  intro members stack hlength
  obtain ⟨r, hrun, hsettle⟩ := h (.object members name :: stack) (by simp [hlength])
  refine ⟨r, ?_, hsettle⟩
  rw [String.toList_append, String.toList_append, run_append, run_append, run_quoted htext,
    step_name]
  exact hrun

/-- A member, under a name that needs no escapes. -/
theorem Reads.member {name : String} (hname : name.toList.all isVerbatim = true) {value : String}
    (h : Reads d (n + 1) value.toList v) :
    ReadsMember d n (GoJson.member name value) (name, v) := by
  intro members stack hlength
  obtain ⟨r, hrun, hsettle⟩ := h (.object members name :: stack) (by simp [hlength])
  refine ⟨r, ?_, hsettle⟩
  have htext : (GoJson.member name value).toList =
      '"' :: (name.toList ++ ['"']) ++ ':' :: value.toList := by
    simp [GoJson.member, String.toList_append]
  have hplain := run_plain (d := d) hname [] (.member members stack)
  rw [List.append_nil] at hplain
  rw [htext, run_append, run_string hplain, step_name]
  exact hrun

/-! ### Raw texts -/

section Compact

variable {outer : List Frame}

/-- The state inside further containers. -/
def State.inside (outer : List Frame) : State → State
  | .value stack => .value (stack ++ outer)
  | .member members stack => .member members (stack ++ outer)
  | .colon members name stack => .colon members name (stack ++ outer)
  | .after v stack => .after v (stack ++ outer)

/-- The reader inside further containers. -/
def Reader.inside (outer : List Frame) (r : Reader) : Reader := ⟨r.mode, r.state.inside outer⟩

theorem State.step_inside (hdepth : d.maxDepth = ⊤) {t : Token} {st' : State}
    (h : st.step d t = some st') : (st.inside outer).step d t = some (st'.inside outer) := by
  have hfits : ∀ k, d.fits k := fun k => by simp [Dialect.fits, hdepth]
  unfold State.step at h
  split at h
  -- the two tokens that open a container ask for its depth
  case h_3 | h_4 =>
    rw [if_pos (hfits _)] at h
    obtain rfl := Option.some.inj h
    simp [State.inside, State.step, hfits]
  case h_7 =>
    obtain rfl := Option.some.inj h
    exact step_name _ _ _
  case h_13 => cases h
  all_goals
    obtain rfl := Option.some.inj h
    rfl

theorem settle_inside (hdepth : d.maxDepth = ⊤) (h : r.settle d = some st) :
    (r.inside outer).settle d = some (st.inside outer) := by
  obtain ⟨mode, state⟩ := r
  cases mode with
  | between =>
    obtain rfl := Option.some.inj h
    rfl
  | bare digits =>
    obtain ⟨v, hv, hstep⟩ := Option.bind_eq_some_iff.1 h
    exact Option.bind_eq_some_iff.2 ⟨v, hv, State.step_inside hdepth hstep⟩
  | string _ => cases h
  | escape _ => cases h
  | unicode _ _ _ => cases h

theorem start_inside (hdepth : d.maxDepth = ⊤) {r : Reader} (h : start d st c = some r) :
    start d (st.inside outer) c = some (r.inside outer) := by
  unfold start at h ⊢
  split_ifs at h ⊢
  · obtain rfl := Option.some.inj h
    rfl
  · obtain rfl := Option.some.inj h
    rfl
  · obtain rfl := Option.some.inj h
    rfl
  · obtain ⟨t, ht, hmap⟩ := Option.bind_eq_some_iff.1 h
    obtain ⟨st', hstep, rfl⟩ := Option.map_eq_some_iff.1 hmap
    rw [ht, Option.bind_some, State.step_inside hdepth hstep]
    rfl

theorem step_inside (hdepth : d.maxDepth = ⊤) {r' : Reader} (h : r.step d c = some r') :
    (r.inside outer).step d c = some (r'.inside outer) := by
  obtain ⟨mode, state⟩ := r
  cases mode with
  | between => exact start_inside hdepth h
  | bare digits =>
    simp only [Reader.step, Reader.inside] at h ⊢
    split_ifs at h ⊢
    · obtain rfl := Option.some.inj h
      rfl
    · obtain ⟨st, hsettle, hstart⟩ := Option.bind_eq_some_iff.1 h
      exact Option.bind_eq_some_iff.2
        ⟨_, settle_inside hdepth hsettle, start_inside hdepth hstart⟩
  | string pieces =>
    simp only [Reader.step, Reader.inside] at h ⊢
    split_ifs at h ⊢
    · obtain ⟨s, hs, hmap⟩ := Option.bind_eq_some_iff.1 h
      obtain ⟨st', hstep, rfl⟩ := Option.map_eq_some_iff.1 hmap
      rw [hs, Option.bind_some, State.step_inside hdepth hstep]
      rfl
    · obtain rfl := Option.some.inj h
      rfl
    · obtain rfl := Option.some.inj h
      rfl
  | escape pieces =>
    simp only [Reader.step, Reader.inside] at h ⊢
    split_ifs at h ⊢
    · obtain rfl := Option.some.inj h
      rfl
    · obtain ⟨e, he, rfl⟩ := Option.map_eq_some_iff.1 h
      rw [he]
      rfl
  | unicode pieces count code =>
    simp only [Reader.step, Reader.inside] at h ⊢
    obtain ⟨k, hk, rfl⟩ := Option.map_eq_some_iff.1 h
    rw [hk, Option.map_some]
    split_ifs <;> rfl

theorem step_scalar_after (v w : Json) (stack : List Frame) :
    State.step d (.after v stack) (.scalar w) = none := by
  rcases stack with _ | ⟨_ | _, _⟩ <;> rfl

/-- A literal or number right behind a value is never read to its end. -/
theorem dead_run {digits : List Char} {stack : List Frame} {r' : Reader}
    (h : run d ⟨.bare digits, .after v stack⟩ cs = some r') : r'.settle d = none := by
  induction cs generalizing digits with
  | nil =>
    obtain rfl := Option.some.inj h
    simp [Reader.settle, step_scalar_after]
  | cons c cs ih =>
    rw [run_cons] at h
    obtain ⟨r₁, hstep, hrun⟩ := Option.bind_eq_some_iff.1 h
    simp only [Reader.step] at hstep
    split_ifs at hstep
    · obtain rfl := Option.some.inj hstep
      exact ih hrun
    · exfalso
      obtain ⟨st, hsettle, -⟩ := Option.bind_eq_some_iff.1 hstep
      simp only [Reader.settle] at hsettle
      obtain ⟨w, -, hw⟩ := Option.bind_eq_some_iff.1 hsettle
      rw [step_scalar_after] at hw
      cases hw

/-- Inside a string, as `compact` sees it. -/
def Mode.inString : Mode → Bool
  | .between => false
  | .bare _ => false
  | _ => true

/-- Behind a backslash. -/
def Mode.escaped : Mode → Bool
  | .escape _ => true
  | _ => false

/-- The reader of the raw text and the reader of the compact one.  They are at the same place,
unless the first has seen the blank that ends a literal or a number. -/
def Follows (d : Dialect) (outer : List Frame) (r q : Reader) : Prop :=
  q = r.inside outer ∨ r.mode = .between ∧ (∃ digits, q.mode = .bare digits) ∧
    (∃ v stack, r.state = .after v stack) ∧ q.settle d = some (r.state.inside outer)

/-- A character that is escaped for HTML has no meaning outside strings, nor in an escape. -/
theorem html_facts (h : GoJson.isHTML c = true) : isBlank c = false ∧ c ≠ '"' ∧ isBare c = false ∧
    (punctuation c).isNone = true ∧ c ≠ '\\' ∧ c ≠ 'u' ∧ unescape c = none ∧ hexValue c = none ∧
    32 ≤ c.toNat := by
  simp only [GoJson.isHTML, Bool.or_eq_true, beq_iff_eq] at h
  rcases h with (((rfl | rfl) | rfl) | h) | h
  · decide
  · decide
  · decide
  · obtain rfl : c = Char.ofNat 0x2028 := by rw [← h, Char.ofNat_toNat]
    decide
  · obtain rfl : c = Char.ofNat 0x2029 := by rw [← h, Char.ofNat_toNat]
    decide

theorem step_html (h : GoJson.isHTML c = true) {r' : Reader} (hstep : r.step d c = some r') :
    ∃ pieces, r.mode = .string pieces ∧ r' = ⟨.string (.char c :: pieces), r.state⟩ := by
  obtain ⟨hblank, hquote, hbare, hnone, hbackslash, hu, hunescape, hhex, hlow⟩ := html_facts h
  have hstart : ∀ st, start d st c = none := by
    intro st
    simp [start, hblank, hquote, hbare, Option.isNone_iff_eq_none.1 hnone]
  obtain ⟨mode, state⟩ := r
  cases mode with
  | between => exact absurd hstep (by simp [Reader.step, hstart])
  | bare digits => exact absurd hstep (by simp [Reader.step, hbare, hstart])
  | string pieces =>
    simp only [Reader.step, hquote, hbackslash, Nat.not_lt.2 hlow, if_false] at hstep
    exact ⟨pieces, rfl, (Option.some.inj hstep).symm⟩
  | escape pieces => exact absurd hstep (by simp [Reader.step, hu, hunescape])
  | unicode pieces count code => exact absurd hstep (by simp [Reader.step, hhex])

/-- What `compact` writes for a character. -/
def copied (inString : Bool) (c : Char) : List Char :=
  if !inString && isBlank c then []
  else if GoJson.isHTML c then (GoJson.unicodeEscape c).toList else [c]

theorem compactFrom_cons (inString escaped : Bool) (c : Char) (cs : List Char) :
    (GoJson.compactFrom inString escaped (c :: cs)).toList = copied inString c ++
      (GoJson.compactFrom (if inString then escaped || c != '"' else c == '"')
        (inString && !escaped && c == '\\') cs).toList := by
  rw [GoJson.compactFrom, copied]
  cases inString
  · by_cases hblank : isBlank c = true
    · have hblank' : (c == ' ' || c == '\t' || c == '\n' || c == '\r') = true := hblank
      simp [hblank, hblank']
    · have hblank' : (c == ' ' || c == '\t' || c == '\n' || c == '\r') = false := by
        simpa [isBlank] using hblank
      by_cases hhtml : GoJson.isHTML c = true <;>
        simp [hblank, hblank', hhtml, String.toList_append]
  · by_cases hhtml : GoJson.isHTML c = true <;> simp [hhtml, String.toList_append]

/-- `compact` knows whether it is in a string. -/
theorem flags_step {r' : Reader} (h : r.step d c = some r') :
    r'.mode.inString = (if r.mode.inString then r.mode.escaped || c != '"' else c == '"') ∧
      r'.mode.escaped = (r.mode.inString && !r.mode.escaped && c == '\\') := by
  have hstart : ∀ st, start d st c = some r' →
      r'.mode.inString = (c == '"') ∧ r'.mode.escaped = false := by
    intro st hst
    unfold start at hst
    split_ifs at hst with hblank hquote hbare
    · obtain rfl := Option.some.inj hst
      have hne : c ≠ '"' := by
        rintro rfl
        exact absurd hblank (by decide)
      simp [Mode.inString, Mode.escaped, hne]
    · obtain rfl := Option.some.inj hst
      simp [Mode.inString, Mode.escaped, hquote]
    · obtain rfl := Option.some.inj hst
      simp [Mode.inString, Mode.escaped, hquote]
    · obtain ⟨t, -, hmap⟩ := Option.bind_eq_some_iff.1 hst
      obtain ⟨st', -, rfl⟩ := Option.map_eq_some_iff.1 hmap
      simp [Mode.inString, Mode.escaped, hquote]
  obtain ⟨mode, state⟩ := r
  cases mode with
  | between => simpa [Mode.inString, Mode.escaped] using hstart state h
  | bare digits =>
    simp only [Reader.step] at h
    split_ifs at h with hbare
    · obtain rfl := Option.some.inj h
      simp [Mode.inString, Mode.escaped, (not_blank_of_isBare hbare).2]
    · obtain ⟨st, -, hst⟩ := Option.bind_eq_some_iff.1 h
      simpa [Mode.inString, Mode.escaped] using hstart st hst
  | string pieces =>
    simp only [Reader.step] at h
    split_ifs at h with hquote hbackslash
    · obtain ⟨s, -, hmap⟩ := Option.bind_eq_some_iff.1 h
      obtain ⟨st', -, rfl⟩ := Option.map_eq_some_iff.1 hmap
      subst hquote
      simp [Mode.inString, Mode.escaped]
    · obtain rfl := Option.some.inj h
      subst hbackslash
      simp [Mode.inString, Mode.escaped]
    · obtain rfl := Option.some.inj h
      simp [Mode.inString, Mode.escaped, hquote, hbackslash]
  | escape pieces =>
    simp only [Reader.step] at h
    split_ifs at h with hu
    · obtain rfl := Option.some.inj h
      simp [Mode.inString, Mode.escaped]
    · obtain ⟨e, -, rfl⟩ := Option.map_eq_some_iff.1 h
      simp [Mode.inString, Mode.escaped]
  | unicode pieces count code =>
    simp only [Reader.step] at h
    obtain ⟨k, hk, rfl⟩ := Option.map_eq_some_iff.1 h
    have hquote : c ≠ '"' := by
      rintro rfl
      exact absurd hk (by simp [show hexValue '"' = none by decide])
    have hbackslash : c ≠ '\\' := by
      rintro rfl
      exact absurd hk (by simp [show hexValue '\\' = none by decide])
    by_cases hcount : count = 3 <;> simp [hcount, Mode.inString, Mode.escaped, hquote, hbackslash]

/-- What `compact` writes for a character leads the reader of the compact text after the reader of
the raw one. -/
theorem follows_step (hdepth : d.maxDepth = ⊤) {q r' : Reader} (hf : Follows d outer r q)
    (hstep : r.step d c = some r')
    (halive : ∀ digits v stack, r' ≠ ⟨.bare digits, .after v stack⟩) :
    ∃ q', run d q (copied r.mode.inString c) = some q' ∧ Follows d outer r' q' := by
  by_cases hblank : r.mode.inString = false ∧ isBlank c = true
  · -- nothing is written, and a literal or number may end
    refine ⟨q, by simp [copied, hblank.1, hblank.2], ?_⟩
    obtain ⟨mode, state⟩ := r
    cases mode with
    | between =>
      have hr' : r' = ⟨.between, state⟩ := by
        simpa [Reader.step, start, hblank.2, eq_comm] using hstep
      rw [hr']
      exact hf
    | bare digits =>
      have hbare : isBare c = false := by
        by_contra hbare
        rw [Bool.not_eq_false] at hbare
        exact absurd (not_blank_of_isBare hbare).1 (by simp [hblank.2])
      rcases hf with rfl | ⟨hmode, -⟩
      · simp only [Reader.step, hbare, Bool.false_eq_true, if_false] at hstep
        obtain ⟨st, hsettle, hstart⟩ := Option.bind_eq_some_iff.1 hstep
        have hr' : r' = ⟨.between, st⟩ := by simpa [start, hblank.2, eq_comm] using hstart
        obtain ⟨v, -, hscalar⟩ := Option.bind_eq_some_iff.1 hsettle
        -- a value must have been due where a literal or number has ended
        have hafter : ∃ v stack, st = .after v stack := by
          cases state with
          | value stack => exact ⟨v, stack, (Option.some.inj hscalar).symm⟩
          | member members stack => cases members <;> cases hscalar
          | colon _ _ _ => cases hscalar
          | after w stack =>
            rw [step_scalar_after] at hscalar
            cases hscalar
        subst hr'
        exact .inr ⟨rfl, ⟨digits, rfl⟩, hafter, settle_inside hdepth hsettle⟩
      · cases hmode
    | string _ => exact absurd hblank.1 (by simp [Mode.inString])
    | escape _ => exact absurd hblank.1 (by simp [Mode.inString])
    | unicode _ _ _ => exact absurd hblank.1 (by simp [Mode.inString])
  · have hcopied : copied r.mode.inString c =
        if GoJson.isHTML c then (GoJson.unicodeEscape c).toList else [c] := by
      rw [copied, if_neg]
      simpa [not_and] using hblank
    rw [hcopied]
    rcases hf with rfl | ⟨hmode, ⟨digits, hbare⟩, ⟨v, stack, hafter⟩, hsettle⟩
    · refine ⟨r'.inside outer, ?_, .inl rfl⟩
      by_cases hhtml : GoJson.isHTML c = true
      · obtain ⟨pieces, hmode, rfl⟩ := step_html hhtml hstep
        rw [if_pos hhtml, Reader.inside, hmode,
          run_unicodeEscape (isVerbatim_of_isHTML hhtml).2]
        rfl
      · rw [if_neg hhtml, run_cons, step_inside hdepth hstep]
        rfl
    -- the compact reader still has the literal open, and this character ends it
    · have hhtml : ¬ GoJson.isHTML c = true := by
        intro hhtml
        obtain ⟨pieces, hstring, -⟩ := step_html hhtml hstep
        rw [hmode] at hstring
        cases hstring
      have hstart : start d r.state c = some r' := by
        obtain ⟨mode, state⟩ := r
        subst hmode
        exact hstep
      have hnotbare : isBare c = false := by
        by_contra hc
        rw [Bool.not_eq_false] at hc
        obtain ⟨hb, hquote⟩ := not_blank_of_isBare hc
        have hr' : r' = ⟨.bare [c], r.state⟩ := by
          simpa [start, hb, hquote, hc, eq_comm] using hstart
        exact halive [c] v stack (hr'.trans (by rw [hafter]))
      refine ⟨r'.inside outer, ?_, .inl rfl⟩
      rw [if_neg hhtml, run_cons, step_of_settle hsettle hnotbare, start_inside hdepth hstart]
      rfl

theorem run_compactFrom (hdepth : d.maxDepth = ⊤) {q r' : Reader} (hf : Follows d outer r q)
    (hrun : run d r cs = some r') (hdone : r'.settle d = some st) :
    ∃ q', run d q (GoJson.compactFrom r.mode.inString r.mode.escaped cs).toList = some q' ∧
      q'.settle d = some (st.inside outer) := by
  induction cs generalizing r q with
  | nil =>
    obtain rfl := Option.some.inj hrun
    refine ⟨q, rfl, ?_⟩
    rcases hf with rfl | ⟨hmode, -, -, hsettle⟩
    · exact settle_inside hdepth hdone
    · rw [hsettle]
      obtain ⟨mode, state⟩ := r
      subst hmode
      rw [Option.some.inj hdone]
  | cons c cs ih =>
    rw [run_cons] at hrun
    obtain ⟨r₁, hstep, hrun⟩ := Option.bind_eq_some_iff.1 hrun
    -- a literal that starts behind a value would keep the run from ending
    have halive : ∀ digits v stack, r₁ ≠ ⟨.bare digits, .after v stack⟩ := by
      rintro digits v stack rfl
      rw [dead_run hrun] at hdone
      cases hdone
    obtain ⟨q₁, hq₁, hf₁⟩ := follows_step hdepth hf hstep halive
    obtain ⟨q', hq', hsettle⟩ := ih hf₁ hrun
    obtain ⟨hinString, hescaped⟩ := flags_step hstep
    refine ⟨q', ?_, hsettle⟩
    rw [compactFrom_cons, run_append, hq₁, Option.bind_some, ← hinString, ← hescaped, hq']

/-- A raw text that has been through `compact` is read as before, inside any containers. -/
theorem reads_compact (hdepth : d.maxDepth = ⊤) {raw : String}
    (h : value? d raw.toList = some v) : Reads d n (GoJson.compact raw).toList v := by
  intro stack _
  obtain ⟨r, hrun, hsettle⟩ := value?_eq h
  have hstart : Follows d stack ⟨.between, .value []⟩ ⟨.between, .value stack⟩ := .inl rfl
  have hcompact := run_compactFrom hdepth hstart hrun hsettle
  exact hcompact

end Compact

/-! ### What is accepted can be written -/

/-- A value that a parser can return from inside `n` containers. -/
inductive Written (d : Dialect) : ℕ → Json → Prop
  | null {n : ℕ} : Written d n .null
  | bool {n : ℕ} (b : Bool) : Written d n (.bool b)
  | int {n : ℕ} {k : ℤ} : -2 ^ 63 ≤ k → k < 2 ^ 64 → Written d n (.int k)
  | float {n : ℕ} {digits : String} : (∀ c ∈ digits.toList, isBare c = true) →
      scalar? d.float digits.toList = some (.float digits) → Written d n (.float digits)
  | text {n : ℕ} (s : String) : Written d n (.text s)
  | array {n : ℕ} {values : List Json} : d.fits n → (∀ v ∈ values, Written d (n + 1) v) →
      Written d n (.array values)
  | object {n : ℕ} {members : List (String × Json)} : d.fits n →
      (members.map Prod.fst).Nodup → (∀ m ∈ members, Written d (n + 1) m.2) →
      Written d n (.object members)

/-- A dialect whose objects have one member of each name, and which reads what it has kept of a
number as that again. -/
structure Dialect.Regular (d : Dialect) : Prop where
  float : ∀ digits kept, d.float digits = some kept →
    (∀ c ∈ kept.toList, isBare c = true) ∧ scalar? d.float kept.toList = some (.float kept)
  nodup : ∀ members, ((d.close members).map Prod.fst).Nodup
  mem : ∀ members, ∀ m ∈ d.close members, m ∈ members

theorem number?_eq {float : String → Option String} (h : number? float cs = some v) :
    (∃ k, v = .int k ∧ -2 ^ 63 ≤ k ∧ k < 2 ^ 64) ∨
      ∃ kept, float (String.ofList cs) = some kept ∧ v = .float kept := by
  simp only [number?, Option.ite_none_left_eq_some] at h
  rcases ite_eq_iff.1 h.2 with ⟨hint, hv⟩ | ⟨-, hv⟩
  · exact .inl ⟨_, (Option.some.inj hv).symm, hint.2⟩
  · obtain ⟨kept, hkept, rfl⟩ := Option.map_eq_some_iff.1 hv
    exact .inr ⟨kept, hkept, rfl⟩

/-- A number that is kept as it stands is read the same by all. -/
theorem scalar?_of_kept {float : String → Option String} {u : String}
    (h : scalar? some u.toList = some (.float u)) (hkept : float u = some u) :
    scalar? float u.toList = some (.float u) := by
  unfold scalar? at h ⊢
  split_ifs at h ⊢
  · cases h
  · cases h
  · cases h
  · simp only [number?, Option.ite_none_left_eq_some] at h ⊢
    refine ⟨h.1, ?_⟩
    rcases ite_eq_iff.1 h.2 with ⟨-, hv⟩ | ⟨hint, -⟩
    · cases hv
    · rw [if_neg hint, String.ofList_toList, hkept]
      rfl

theorem written_scalar (hd : d.Regular) (h : scalar? d.float cs = some v) : Written d n v := by
  unfold scalar? at h
  split_ifs at h
  · obtain rfl := Option.some.inj h
    exact .null
  · obtain rfl := Option.some.inj h
    exact .bool true
  · obtain rfl := Option.some.inj h
    exact .bool false
  · rcases number?_eq h with ⟨k, rfl, hlow, hhigh⟩ | ⟨kept, hkept, rfl⟩
    · exact .int hlow hhigh
    · exact .float (hd.float _ _ hkept).1 (hd.float _ _ hkept).2

/-- The values in the open containers. -/
def Stacked (d : Dialect) : List Frame → Prop
  | [] => True
  | .array values :: stack =>
    d.fits stack.length ∧ (∀ v ∈ values, Written d (stack.length + 1) v) ∧ Stacked d stack
  | .object members _ :: stack =>
    d.fits stack.length ∧ (∀ m ∈ members, Written d (stack.length + 1) m.2) ∧ Stacked d stack

/-- The values in a state. -/
def State.Good (d : Dialect) : State → Prop
  | .value stack => Stacked d stack
  | .member members stack => Stacked d (.object members "" :: stack)
  | .colon members _ stack => Stacked d (.object members "" :: stack)
  | .after v stack => Written d stack.length v ∧ Stacked d stack

/-- A token as the reader makes it. -/
def Token.Good (d : Dialect) : Token → Prop
  | .scalar v => ∀ n, Written d n v
  | _ => True

theorem State.good_step (hd : d.Regular) {t : Token} {st' : State} (hst : st.Good d)
    (ht : t.Good d) (h : st.step d t = some st') : st'.Good d := by
  unfold State.step at h
  split at h
  case h_3 =>
    split_ifs at h with hfits
    obtain rfl := Option.some.inj h
    exact ⟨hfits, by simp, hst⟩
  case h_4 =>
    split_ifs at h with hfits
    obtain rfl := Option.some.inj h
    exact ⟨hfits, by simp, hst⟩
  case h_13 => cases h
  all_goals obtain rfl := Option.some.inj h
  case h_1 => exact ⟨ht _, hst⟩
  case h_2 => exact ⟨.text _, hst⟩
  case h_5 => exact ⟨.array hst.1 (by simp), hst.2.2⟩
  case h_6 => exact ⟨.object hst.1 List.nodup_nil (by simp), hst.2.2⟩
  case h_7 => exact hst
  case h_8 => exact hst
  case h_9 =>
    obtain ⟨hv, hfits, hvalues, hstack⟩ := hst
    exact ⟨hfits, List.forall_mem_cons.2 ⟨hv, hvalues⟩, hstack⟩
  case h_10 =>
    obtain ⟨hv, hfits, hvalues, hstack⟩ := hst
    refine ⟨.array hfits fun w hw => ?_, hstack⟩
    exact List.forall_mem_cons.2 ⟨hv, hvalues⟩ w (List.mem_reverse.1 hw)
  case h_11 =>
    obtain ⟨hv, hfits, hmembers, hstack⟩ := hst
    refine ⟨hfits, fun m hm => ?_, hstack⟩
    rcases List.mem_cons.1 hm with rfl | hm
    · exact hv
    · exact hmembers m hm
  -- of members with one name `close` keeps some, and adds none
  case h_12 =>
    obtain ⟨hv, hfits, hmembers, hstack⟩ := hst
    refine ⟨.object hfits (hd.nodup _) fun m hm => ?_, hstack⟩
    rcases List.mem_cons.1 (hd.mem _ m hm) with rfl | hm
    · exact hv
    · exact hmembers m hm

theorem good_settle (hd : d.Regular) (hr : r.state.Good d) (h : r.settle d = some st) :
    st.Good d := by
  obtain ⟨mode, state⟩ := r
  cases mode with
  | between =>
    obtain rfl := Option.some.inj h
    exact hr
  | bare digits =>
    obtain ⟨v, hv, hstep⟩ := Option.bind_eq_some_iff.1 h
    have htoken : Token.Good d (.scalar v) := fun n => written_scalar hd hv
    exact State.good_step hd hr htoken hstep
  | string _ => cases h
  | escape _ => cases h
  | unicode _ _ _ => cases h

theorem good_start (hd : d.Regular) (hst : st.Good d) (h : start d st c = some r) :
    r.state.Good d := by
  unfold start at h
  split_ifs at h with hblank hquote hbare
  · obtain rfl := Option.some.inj h
    exact hst
  · obtain rfl := Option.some.inj h
    exact hst
  · obtain rfl := Option.some.inj h
    exact hst
  · obtain ⟨t, ht, hmap⟩ := Option.bind_eq_some_iff.1 h
    obtain ⟨st', hstep, rfl⟩ := Option.map_eq_some_iff.1 hmap
    refine State.good_step hd hst ?_ hstep
    unfold punctuation at ht
    split at ht <;> cases ht <;> exact trivial

theorem good_step (hd : d.Regular) {r' : Reader} (hr : r.state.Good d) (h : r.step d c = some r') :
    r'.state.Good d := by
  obtain ⟨mode, state⟩ := r
  cases mode with
  | between => exact good_start hd hr h
  | bare digits =>
    simp only [Reader.step] at h
    split_ifs at h with hbare
    · obtain rfl := Option.some.inj h
      exact hr
    · obtain ⟨st, hsettle, hstart⟩ := Option.bind_eq_some_iff.1 h
      exact good_start hd (good_settle hd hr hsettle) hstart
  | string pieces =>
    simp only [Reader.step] at h
    split_ifs at h
    · obtain ⟨s, -, hmap⟩ := Option.bind_eq_some_iff.1 h
      obtain ⟨st', hstep, rfl⟩ := Option.map_eq_some_iff.1 hmap
      have htoken : Token.Good d (.text (String.ofList s)) := trivial
      exact State.good_step hd hr htoken hstep
    · obtain rfl := Option.some.inj h
      exact hr
    · obtain rfl := Option.some.inj h
      exact hr
  | escape pieces =>
    simp only [Reader.step] at h
    split_ifs at h
    · obtain rfl := Option.some.inj h
      exact hr
    · obtain ⟨e, -, rfl⟩ := Option.map_eq_some_iff.1 h
      exact hr
  | unicode pieces count code =>
    simp only [Reader.step] at h
    obtain ⟨k, -, rfl⟩ := Option.map_eq_some_iff.1 h
    split_ifs <;> exact hr

theorem good_run (hd : d.Regular) {r' : Reader} (hr : r.state.Good d) (h : run d r cs = some r') :
    r'.state.Good d := by
  induction cs generalizing r with
  | nil =>
    obtain rfl := Option.some.inj h
    exact hr
  | cons c cs ih =>
    rw [run_cons] at h
    obtain ⟨r₁, hstep, hrun⟩ := Option.bind_eq_some_iff.1 h
    exact ih (good_step hd hr hstep) hrun

/-- A value that is accepted nests as deep as is allowed, and each of its objects has one member of
each name. -/
theorem written_parse (hd : d.Regular) {text : String} (h : parse d text = some v) :
    Written d 0 v := by
  obtain ⟨r, hrun, hsettle⟩ := value?_eq h
  have hstart : (State.value []).Good d := trivial
  exact (good_settle hd (good_run hd hstart hrun) hsettle).1

end JsonReader
