import LanChat.Lib.GoStrings
import Mathlib.Data.List.Basic

/-!
# Base64 texts

* `Text`: the texts of RFC 4648 with padding, the bits behind the padding not looked at;
* `quanta_iff`: a decoder that goes through the quanta accepts exactly the texts;
* `scan_iff`: so does a scan that counts padding characters and knows where the text ends;
* `collect_base64Chars`: a decoder that skips what it does not know reads an encoded text back.
-/

namespace Base64

open GoStrings

/-- Characters of the alphabet, then at most so many padding characters. -/
def Shape (limit : ℕ) (cs : List Char) : Prop :=
  ∃ body n, cs = body ++ List.replicate n '=' ∧ (∀ c ∈ body, isBase64 c = true) ∧ n ≤ limit

/-- Whole quanta of four characters, the last one possibly padded. -/
def Text (cs : List Char) : Prop := Shape 2 cs ∧ cs.length % 4 = 0

theorem isBase64_ne_pad {c : Char} (h : isBase64 c = true) : c ≠ '=' := by
  rintro rfl
  revert h
  decide

theorem shape_nil (limit : ℕ) : Shape limit [] :=
  ⟨[], 0, rfl, fun _ h => absurd h List.not_mem_nil, Nat.zero_le _⟩

theorem shape_cons {limit : ℕ} {c : Char} {cs : List Char} (hc : isBase64 c = true) :
    Shape limit (c :: cs) ↔ Shape limit cs := by
  constructor
  · rintro ⟨body, n, hcs, hbody, hn⟩
    cases body with
    | nil =>
      cases n with
      | zero => cases hcs
      | succ n =>
        rw [List.nil_append, List.replicate_succ, List.cons.injEq] at hcs
        exact absurd hcs.1 (isBase64_ne_pad hc)
    | cons x body =>
      rw [List.cons_append, List.cons.injEq] at hcs
      exact ⟨body, n, hcs.2, fun y hy => hbody y (List.mem_cons_of_mem _ hy), hn⟩
  · rintro ⟨body, n, rfl, hbody, hn⟩
    refine ⟨c :: body, n, rfl, ?_, hn⟩
    intro x hx
    rcases List.mem_cons.1 hx with rfl | hx
    · exact hc
    · exact hbody x hx

/-- After a padding character only padding follows. -/
theorem shape_pad {limit : ℕ} {cs : List Char} :
    Shape limit ('=' :: cs) ↔ ∃ n, cs = List.replicate n '=' ∧ n + 1 ≤ limit := by
  constructor
  · rintro ⟨body, n, hcs, hbody, hn⟩
    cases body with
    | nil =>
      cases n with
      | zero => cases hcs
      | succ n =>
        rw [List.nil_append, List.replicate_succ, List.cons.injEq] at hcs
        exact ⟨n, hcs.2, hn⟩
    | cons x body =>
      rw [List.cons_append, List.cons.injEq] at hcs
      have hpad := hbody x List.mem_cons_self
      rw [← hcs.1] at hpad
      exact absurd rfl (isBase64_ne_pad hpad)
  · rintro ⟨n, rfl, hn⟩
    exact ⟨[], n + 1, rfl, fun _ h => absurd h List.not_mem_nil, hn⟩

/-- Nothing else occurs. -/
theorem Shape.head {limit : ℕ} {c : Char} {cs : List Char} (h : Shape limit (c :: cs)) :
    isBase64 c = true ∨ c = '=' := by
  obtain ⟨body, n, hcs, hbody, -⟩ := h
  have hc : c ∈ body ++ List.replicate n '=' := hcs ▸ List.mem_cons_self
  rcases List.mem_append.1 hc with hc | hc
  · exact .inl (hbody c hc)
  · exact .inr (List.eq_of_mem_replicate hc)

theorem Shape.mem {limit : ℕ} {cs : List Char} (h : Shape limit cs) {c : Char} (hc : c ∈ cs) :
    isBase64 c = true ∨ c = '=' := by
  obtain ⟨body, n, rfl, hbody, -⟩ := h
  rcases List.mem_append.1 hc with hc | hc
  · exact .inl (hbody c hc)
  · exact .inr (List.eq_of_mem_replicate hc)

/-- A shape, taken apart at its first padding character. -/
theorem shape_iff_parts {limit : ℕ} {cs : List Char} :
    Shape limit cs ↔ (∀ c ∈ cs.takeWhile (· != '='), isBase64 c = true) ∧
      (∀ c ∈ cs.drop (cs.takeWhile (· != '=')).length, c = '=') ∧
        (cs.drop (cs.takeWhile (· != '=')).length).length ≤ limit := by
  constructor
  · rintro ⟨body, n, rfl, hbody, hn⟩
    have htake : (body ++ List.replicate n '=').takeWhile (· != '=') = body := by
      rw [List.takeWhile_append_of_pos fun c hc => by simpa using isBase64_ne_pad (hbody c hc)]
      cases n with
      | zero => rw [List.replicate_zero, List.takeWhile_nil, List.append_nil]
      | succ n =>
        rw [List.replicate_succ, List.takeWhile_cons_of_neg (by decide), List.append_nil]
    rw [htake, List.drop_left]
    exact ⟨hbody, fun c hc => List.eq_of_mem_replicate hc, by rwa [List.length_replicate]⟩
  · rintro ⟨hbody, hpad, hlen⟩
    refine ⟨_, (cs.drop (cs.takeWhile (· != '=')).length).length, ?_, hbody, hlen⟩
    rw [← List.eq_replicate_of_mem hpad]
    have hprefix := List.takeWhile_prefix (l := cs) (· != '=')
    exact (List.prefix_iff_eq_append.1 hprefix).symm

/-! ### A decoder -/

/-- A padding character is among the last two of a quantum. -/
theorem not_shape_pad {x y : Char} {cs : List Char} : ¬ Shape 2 ('=' :: x :: y :: cs) := by
  rw [shape_pad]
  rintro ⟨n, hcs, hn⟩
  have hlen := congrArg List.length hcs
  simp only [List.length_cons, List.length_replicate] at hlen
  omega

/-- Going through the quanta accepts exactly the texts. -/
theorem quanta_iff : ∀ cs : List Char, base64Quanta cs = true ↔ Text cs
  | [] => ⟨fun _ => ⟨shape_nil 2, rfl⟩, fun _ => rfl⟩
  | [_] | [_, _] | [_, _, _] => by
    constructor
    · intro h
      cases h
    · rintro ⟨-, hlen⟩
      cases hlen
  | a :: b :: c :: d :: rest => by
    have hlen : (a :: b :: c :: d :: rest).length % 4 = 0 ↔ rest.length % 4 = 0 := by
      simp only [List.length_cons]
      omega
    unfold Text
    rw [hlen, base64Quanta]
    by_cases ha : isBase64 a = true
    · by_cases hb : isBase64 b = true
      · rw [if_pos (by rw [ha, hb]; rfl), shape_cons ha, shape_cons hb]
        by_cases hpad : c = '='
        · -- the quantum stands for one byte
          subst hpad
          rw [if_pos (by decide), shape_pad, Bool.and_eq_true, beq_iff_eq, List.isEmpty_iff]
          constructor
          · rintro ⟨rfl, rfl⟩
            exact ⟨⟨1, rfl, Nat.le_refl _⟩, rfl⟩
          · rintro ⟨⟨n, hn, hle⟩, -⟩
            obtain rfl : n = 1 := by
              have := congrArg List.length hn
              simp only [List.length_cons, List.length_replicate] at this
              omega
            simpa using hn
        · rw [if_neg (by simpa using hpad)]
          by_cases hc : isBase64 c = true
          · rw [if_pos hc, shape_cons hc]
            by_cases hd : d = '='
            · -- it stands for two
              subst hd
              rw [if_pos (by decide), shape_pad, List.isEmpty_iff]
              constructor
              · rintro rfl
                exact ⟨⟨0, rfl, by omega⟩, rfl⟩
              · rintro ⟨⟨n, rfl, hle⟩, hmod⟩
                rw [List.length_replicate] at hmod
                obtain rfl : n = 0 := by omega
                rfl
            · rw [if_neg (by simpa using hd), Bool.and_eq_true]
              by_cases hd' : isBase64 d = true
              · rw [shape_cons hd', quanta_iff rest]
                exact ⟨fun h => h.2, fun h => ⟨hd', h⟩⟩
              · exact ⟨fun h => absurd h.1 hd', fun h => absurd h.1.head (by simp [hd, hd'])⟩
          · rw [if_neg hc]
            exact ⟨fun h => (Bool.false_ne_true h).elim,
              fun h => absurd h.1.head (by simp [hpad, hc])⟩
      · rw [if_neg (by simp [hb]), shape_cons ha]
        refine ⟨fun h => (Bool.false_ne_true h).elim, fun h => ?_⟩
        obtain rfl := h.1.head.resolve_left hb
        exact absurd h.1 not_shape_pad
    · rw [if_neg (by simp [ha])]
      refine ⟨fun h => (Bool.false_ne_true h).elim, fun h => ?_⟩
      obtain rfl := h.1.head.resolve_left ha
      exact absurd h.1 not_shape_pad

/-! ### A scan -/

/-- A scan from left to right: `size` is the length of the whole text, `index` the place of the next
character, `padding` the number of padding characters so far. -/
def scan (size : ℕ) : (index padding : ℕ) → List Char → Bool
  | _, _, [] => true
  | index, padding, c :: cs =>
    if c = '=' then
      if index < size - 2 ∨ 2 < padding + 1 then false else scan size (index + 1) (padding + 1) cs
    else if !isBase64 c || padding != 0 then false
    else scan size (index + 1) padding cs

/-- The scan accepts no other characters. -/
theorem scan_mem {size index padding : ℕ} {cs : List Char}
    (h : scan size index padding cs = true) : ∀ c ∈ cs, isBase64 c = true ∨ c = '=' := by
  induction cs generalizing index padding with
  | nil => exact fun _ h => absurd h List.not_mem_nil
  | cons c cs ih =>
    rw [scan] at h
    intro x hx
    split at h
    · rename_i hpad
      split at h
      · cases h
      rcases List.mem_cons.1 hx with rfl | hx
      · exact .inr hpad
      · exact ih h x hx
    · split at h
      · cases h
      rename_i hok
      rcases List.mem_cons.1 hx with rfl | hx
      · simp only [Bool.or_eq_true, Bool.not_eq_true', not_or, Bool.not_eq_false] at hok
        exact .inl hok.1
      · exact ih h x hx

/-- Once it has seen padding the scan accepts only more of it. -/
theorem scan_padding {size index padding : ℕ} {cs : List Char} (hpadding : padding ≠ 0)
    (hindex : size ≤ index + 2) :
    scan size index padding cs = true ↔
      ∃ n, cs = List.replicate n '=' ∧ (n = 0 ∨ n + padding ≤ 2) := by
  induction cs generalizing index padding with
  | nil => exact ⟨fun _ => ⟨0, rfl, .inl rfl⟩, fun _ => rfl⟩
  | cons c cs ih =>
    rw [scan]
    by_cases hc : c = '='
    · subst hc
      rw [if_pos rfl]
      by_cases hlimit : 2 < padding + 1
      · rw [if_pos (.inr hlimit)]
        refine ⟨fun h => (Bool.false_ne_true h).elim, ?_⟩
        rintro ⟨n, hcs, hn⟩
        have hlen := congrArg List.length hcs
        simp only [List.length_cons, List.length_replicate] at hlen
        omega
      · rw [if_neg (by omega), ih (by omega) (by omega)]
        constructor
        · rintro ⟨n, rfl, hn⟩
          exact ⟨n + 1, rfl, .inr (by omega)⟩
        · rintro ⟨n, hcs, hn⟩
          cases n with
          | zero => cases hcs
          | succ n =>
            rw [List.replicate_succ, List.cons.injEq] at hcs
            exact ⟨n, hcs.2, .inr (by omega)⟩
    · rw [if_neg hc, if_pos (by simp [hpadding])]
      refine ⟨fun h => (Bool.false_ne_true h).elim, ?_⟩
      rintro ⟨n, hcs, -⟩
      have hmem : c ∈ List.replicate n '=' := hcs ▸ List.mem_cons_self
      exact absurd (List.eq_of_mem_replicate hmem) hc

/-- The scan accepts exactly the texts, lengths aside. -/
theorem scan_iff {size index : ℕ} {cs : List Char} (hsize : index + cs.length = size) :
    scan size index 0 cs = true ↔ Shape 2 cs := by
  induction cs generalizing index with
  | nil => exact ⟨fun _ => shape_nil 2, fun _ => rfl⟩
  | cons c cs ih =>
    rw [List.length_cons] at hsize
    rw [scan]
    by_cases hc : c = '='
    · subst hc
      rw [if_pos rfl, shape_pad]
      by_cases hearly : index < size - 2
      · rw [if_pos (.inl hearly)]
        refine ⟨fun h => (Bool.false_ne_true h).elim, ?_⟩
        rintro ⟨n, rfl, hn⟩
        rw [List.length_replicate] at hsize
        omega
      · rw [if_neg (by omega), scan_padding (by omega) (by omega)]
        refine ⟨fun ⟨n, hcs, hn⟩ => ⟨n, hcs, by omega⟩, fun ⟨n, hcs, hn⟩ => ⟨n, hcs, by omega⟩⟩
    · rw [if_neg hc]
      by_cases ha : isBase64 c = true
      · rw [if_neg (by simp [ha]), shape_cons ha]
        exact ih (by omega)
      · rw [if_pos (by simp [ha])]
        exact ⟨fun h => (Bool.false_ne_true h).elim, fun h => absurd h.head (by simp [hc, ha])⟩

/-! ### An encoder -/

theorem isBase64_base64Char {n : ℕ} (hn : n < 64) : isBase64 (base64Char n) = true := by
  have hall : ∀ k : Fin 64, isBase64 (base64Char k) = true := by decide
  exact hall ⟨n, hn⟩

/-- An encoded text has the characters of one. -/
theorem mem_base64Chars : ∀ (bytes : List UInt8), ∀ c ∈ base64Chars bytes,
    isBase64 c = true ∨ c = '='
  | [], c, hc => absurd hc List.not_mem_nil
  | [x], c, hc => by
    have hx := x.toNat_lt
    simp only [base64Chars, List.mem_cons, List.not_mem_nil, or_false] at hc
    rcases hc with rfl | rfl | rfl | rfl
    · exact .inl (isBase64_base64Char (by omega))
    · exact .inl (isBase64_base64Char (by omega))
    · exact .inr rfl
    · exact .inr rfl
  | [x, y], c, hc => by
    have hx := x.toNat_lt
    have hy := y.toNat_lt
    simp only [base64Chars, List.mem_cons, List.not_mem_nil, or_false] at hc
    rcases hc with rfl | rfl | rfl | rfl
    · exact .inl (isBase64_base64Char (by omega))
    · exact .inl (isBase64_base64Char (by omega))
    · exact .inl (isBase64_base64Char (by omega))
    · exact .inr rfl
  | x :: y :: z :: rest, c, hc => by
    have hx := x.toNat_lt
    have hy := y.toNat_lt
    have hz := z.toNat_lt
    simp only [base64Chars, List.mem_cons] at hc
    rcases hc with rfl | rfl | rfl | rfl | hc
    · exact .inl (isBase64_base64Char (by omega))
    · exact .inl (isBase64_base64Char (by omega))
    · exact .inl (isBase64_base64Char (by omega))
    · exact .inl (isBase64_base64Char (by omega))
    · exact mem_base64Chars rest c hc

theorem length_base64Chars : ∀ bytes : List UInt8,
    (base64Chars bytes).length = (bytes.length + 2) / 3 * 4
  | [] => by simp [base64Chars]
  | [_] => by simp [base64Chars]
  | [_, _] => by simp [base64Chars]
  | x :: y :: z :: rest => by
    rw [base64Chars]
    simp only [List.length_cons, length_base64Chars rest]
    omega

/-! ### A decoder that skips -/

/-- The bytes of a text, six bits a character: `buffer` holds `bits` of them that are not written
yet.  A character outside the alphabet is skipped, and bits that fill no byte are dropped. -/
def collect : (bits buffer : ℕ) → List Char → List UInt8
  | _, _, [] => []
  | bits, buffer, c :: cs =>
    if isBase64 c then
      let buffer := buffer * 64 + base64Value c
      if bits + 6 < 8 then collect (bits + 6) buffer cs
      else (buffer / 2 ^ (bits - 2)).toUInt8 :: collect (bits - 2) (buffer % 2 ^ (bits - 2)) cs
    else collect bits buffer cs

theorem base64Value_base64Char {n : ℕ} (hn : n < 64) : base64Value (base64Char n) = n := by
  have hall : ∀ k : Fin 64, base64Value (base64Char k) = k := by decide
  exact hall ⟨n, hn⟩

section Collect

variable {n : ℕ} (hn : n < 64) (buffer : ℕ) (cs : List Char)

include hn

/-- Six bits are kept. -/
theorem collect_first :
    collect 0 buffer (base64Char n :: cs) = collect 6 (buffer * 64 + n) cs := by
  rw [collect, if_pos (isBase64_base64Char hn), base64Value_base64Char hn]
  rfl

/-- With six bits before them, four are left. -/
theorem collect_second : collect 6 buffer (base64Char n :: cs) =
    ((buffer * 64 + n) / 16).toUInt8 :: collect 4 ((buffer * 64 + n) % 16) cs := by
  rw [collect, if_pos (isBase64_base64Char hn), base64Value_base64Char hn]
  rfl

theorem collect_third : collect 4 buffer (base64Char n :: cs) =
    ((buffer * 64 + n) / 4).toUInt8 :: collect 2 ((buffer * 64 + n) % 4) cs := by
  rw [collect, if_pos (isBase64_base64Char hn), base64Value_base64Char hn]
  rfl

theorem collect_fourth : collect 2 buffer (base64Char n :: cs) =
    (buffer * 64 + n).toUInt8 :: collect 0 0 cs := by
  rw [collect, if_pos (isBase64_base64Char hn), base64Value_base64Char hn]
  have hdiv : (buffer * 64 + n) / 2 ^ (2 - 2) = buffer * 64 + n := Nat.div_one _
  have hmod : (buffer * 64 + n) % 2 ^ (2 - 2) = 0 := Nat.mod_one _
  rw [if_neg (by omega), hdiv, hmod]

end Collect

theorem collect_pad (bits buffer : ℕ) (cs : List Char) :
    collect bits buffer ('=' :: cs) = collect bits buffer cs := by
  rw [collect, if_neg (by decide)]

theorem toUInt8_toNat {x : UInt8} {n : ℕ} (h : n % 256 = x.toNat) : n.toUInt8 = x := by
  refine UInt8.toNat_inj.1 ?_
  change n % 2 ^ 8 = x.toNat
  omega

/-- Such a decoder reads an encoded text back. -/
theorem collect_base64Chars : ∀ bytes : List UInt8, collect 0 0 (base64Chars bytes) = bytes
  | [] => rfl
  | [x] => by
    have hx := x.toNat_lt
    rw [base64Chars, collect_first (by omega), collect_second (by omega), collect_pad, collect_pad,
      collect, toUInt8_toNat (x := x) (by omega)]
  | [x, y] => by
    have hx := x.toNat_lt
    have hy := y.toNat_lt
    rw [base64Chars, collect_first (by omega), collect_second (by omega), collect_third (by omega),
      collect_pad, collect, toUInt8_toNat (x := x) (by omega), toUInt8_toNat (x := y) (by omega)]
  | x :: y :: z :: rest => by
    have hx := x.toNat_lt
    have hy := y.toNat_lt
    have hz := z.toNat_lt
    rw [base64Chars, collect_first (by omega), collect_second (by omega), collect_third (by omega),
      collect_fourth (by omega), toUInt8_toNat (x := x) (by omega),
      toUInt8_toNat (x := y) (by omega), toUInt8_toNat (x := z) (by omega),
      collect_base64Chars rest]

end Base64
