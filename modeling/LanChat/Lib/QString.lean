import LanChat.Lib.GoStrings

/-!
# The case functions of Qt

`QByteArray::toLower` is `GoStrings.asciiLower`.
-/

namespace QString

open GoStrings (asciiLower toList_asciiLower isAlnum ascii_of_alnum)
open UnicodeCase (foldRune foldRune_of_ascii toNat_toLower char_toLower_toLower toLower_of_ascii)

/-- Qt folds a character only when its full folding is one character; of the others these have a
simple folding. -/
def foldsLong (n : ℕ) : Bool :=
  n == 0x1E9E || (0x1F88 ≤ n && n ≤ 0x1F8F) || (0x1F98 ≤ n && n ≤ 0x1F9F) ||
    (0x1FA8 ≤ n && n ≤ 0x1FAF) || n == 0x1FBC || n == 0x1FCC || n == 0x1FFC

/-- `QChar::toCaseFolded`. -/
def toCaseFolded (c : Char) : Char := if foldsLong c.toNat then c else foldRune c

/-- `QString::compare` with `Qt::CaseInsensitive` finds no difference. -/
def equalFold (a b : String) : Bool := a.toList.map toCaseFolded == b.toList.map toCaseFolded

/-- `QString::toLower`: the lower case of `İ` is two characters. -/
def toLower (s : String) : String :=
  String.ofList (s.toList.flatMap fun c =>
    if c.toNat = 0x130 then ['i', '\u0307'] else [UnicodeCase.toLower c])

theorem toCaseFolded_of_ascii {c : Char} (hc : c.toNat < 0x80) : toCaseFolded c = c.toLower := by
  have hshort : foldsLong c.toNat = false := by
    simp only [foldsLong, Bool.or_eq_false_iff, Bool.and_eq_false_iff, decide_eq_false_iff_not,
      beq_eq_false_iff_ne]
    omega
  unfold toCaseFolded
  rw [hshort, if_neg Bool.false_ne_true, foldRune_of_ascii hc]

theorem toCaseFolded_toLower (c : Char) : toCaseFolded c.toLower = toCaseFolded c := by
  have hlower := toNat_toLower c
  by_cases hc : 65 ≤ c.toNat ∧ c.toNat ≤ 90
  · rw [if_pos hc] at hlower
    rw [toCaseFolded_of_ascii (by omega), toCaseFolded_of_ascii (by omega), char_toLower_toLower]
  · rw [if_neg hc] at hlower
    rw [Char.ext (UInt32.toNat_inj.1 hlower)]

theorem equalFold_iff {a b : String} :
    equalFold a b = true ↔ a.toList.map toCaseFolded = b.toList.map toCaseFolded := by
  unfold equalFold
  exact beq_iff_eq

theorem equalFold_comm {a b : String} : equalFold a b = equalFold b a := Bool.beq_comm

theorem equalFold_trans {a b c : String} (hab : equalFold a b = true)
    (hbc : equalFold b c = true) : equalFold a c = true :=
  equalFold_iff.2 ((equalFold_iff.1 hab).trans (equalFold_iff.1 hbc))

/-- Texts that differ in the case of ASCII letters are folded alike. -/
theorem equalFold_of_asciiLower {a b : String} (h : asciiLower a = asciiLower b) :
    equalFold a b = true := by
  have hfold : ∀ s : String, s.toList.map toCaseFolded =
      (asciiLower s).toList.map toCaseFolded := by
    intro s
    rw [toList_asciiLower, List.map_map]
    exact List.map_congr_left fun c _ => (toCaseFolded_toLower c).symm
  rw [equalFold_iff, hfold a, hfold b, h]

/-- Of texts of ASCII letters and digits no others are folded alike. -/
theorem equalFold_iff_of_alnum {a b : String} (ha : a.toList.all isAlnum = true)
    (hb : b.toList.all isAlnum = true) :
    equalFold a b = true ↔ asciiLower a = asciiLower b := by
  have hfold : ∀ {s : String}, s.toList.all isAlnum = true →
      s.toList.map toCaseFolded = (asciiLower s).toList := by
    intro s hs
    rw [toList_asciiLower]
    exact List.map_congr_left fun c hc =>
      toCaseFolded_of_ascii (ascii_of_alnum (List.all_eq_true.1 hs c hc))
  rw [equalFold_iff, hfold ha, hfold hb, String.toList_inj]

/-- A text in ASCII without capital letters stays. -/
theorem toLower_eq_self {s : String} (h : ∀ c ∈ s.toList, c.toNat < 0x80 ∧ c.toLower = c) :
    toLower s = s := by
  have hchar : ∀ c ∈ s.toList,
      (if c.toNat = 0x130 then ['i', '\u0307'] else [UnicodeCase.toLower c]) = [c] := by
    intro c hc
    obtain ⟨hascii, hlower⟩ := h c hc
    rw [if_neg (by omega), toLower_of_ascii hascii, hlower]
  unfold toLower
  rw [List.flatMap_congr hchar, List.flatMap_singleton', String.ofList_toList]

end QString
