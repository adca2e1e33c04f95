import Mathlib.Data.String.Basic
import Mathlib.Data.Nat.Basic
import Mathlib.Tactic.IntervalCases
import Mathlib.Tactic.SplitIfs

/-!
# The text of an instant in UTC (`time.RFC3339Nano`)

An instant is the number of nanoseconds since the first of January of the year 1.  The text drops
the trailing zeros of the fraction, so that texts are not in the order of the instants.

* `Sorts`: texts of one length that are in the order of their numbers;
* `yearDay`, `monthDay`, `secondText`: the date and the clock, which sort before the year 10000;
* `fractionText`: the fraction, where a text sorts after those that extend it;
* `rfc3339Nano_le_iff`: the order of two texts.
-/

namespace Rfc3339

/-! ### Lists in lexicographic order -/

theorem append_lt_append_iff {α : Type*} [LinearOrder α] {a b c d : List α}
    (hlength : a.length = b.length) : a ++ c < b ++ d ↔ a < b ∨ a = b ∧ c < d := by
  induction a generalizing b with
  | nil =>
    obtain rfl := List.length_eq_zero_iff.1 hlength.symm
    simp
  | cons x a ih =>
    cases b with
    | nil => cases hlength
    | cons y b =>
      rw [List.cons_append, List.cons_append, List.cons_lt_cons_iff, List.cons_lt_cons_iff,
        ih (Nat.succ.inj hlength), List.cons.injEq]
      constructor
      · rintro (hxy | ⟨hxy, hab | ⟨hab, hcd⟩⟩)
        · exact .inl (.inl hxy)
        · exact .inl (.inr ⟨hxy, hab⟩)
        · exact .inr ⟨⟨hxy, hab⟩, hcd⟩
      · rintro ((hxy | ⟨hxy, hab⟩) | ⟨⟨hxy, hab⟩, hcd⟩)
        · exact .inl hxy
        · exact .inr ⟨hxy, .inl hab⟩
        · exact .inr ⟨hxy, .inr ⟨hab, hcd⟩⟩

theorem cons_le_cons_iff {α : Type*} [LinearOrder α] {x y : α} {a b : List α} :
    x :: a ≤ y :: b ↔ x < y ∨ x = y ∧ a ≤ b := by
  rw [← not_lt, ← not_lt, List.cons_lt_cons_iff]
  constructor
  · intro hnot
    rcases lt_trichotomy x y with hxy | hxy | hxy
    · exact .inl hxy
    · exact .inr ⟨hxy, fun hlt => hnot (.inr ⟨hxy.symm, hlt⟩)⟩
    · exact absurd (.inl hxy) hnot
  · rintro (hxy | ⟨hxy, hle⟩) (hyx | ⟨hyx, hlt⟩)
    · exact lt_asymm hxy hyx
    · exact absurd hyx.symm hxy.ne
    · exact absurd hxy.symm hyx.ne
    · exact hle hlt

/-- Below `bound`, the texts have `width` characters and the order of their numbers. -/
def Sorts (width bound : ℕ) (text : ℕ → List Char) : Prop :=
  (∀ m < bound, (text m).length = width) ∧
    ∀ m < bound, ∀ n < bound, (text m < text n ↔ m < n)

theorem Sorts.eq_iff {width bound : ℕ} {text : ℕ → List Char} (ht : Sorts width bound text)
    {m n : ℕ} (hm : m < bound) (hn : n < bound) : text m = text n ↔ m = n := by
  refine ⟨fun heq => ?_, fun heq => heq ▸ rfl⟩
  have hlt := ht.2 m hm n hn
  have hgt := ht.2 n hn m hm
  rw [heq] at hlt hgt
  have hirrefl : ¬ text n < text n := lt_irrefl _
  have h₁ := mt hlt.2 hirrefl
  have h₂ := mt hgt.2 hirrefl
  omega

/-- A separator in front. -/
theorem Sorts.cons {width bound : ℕ} {text : ℕ → List Char} (ht : Sorts width bound text)
    (c : Char) : Sorts (width + 1) bound fun n => c :: text n := by
  constructor
  · intro m hm
    rw [List.length_cons, ht.1 m hm]
  · intro m hm n hn
    rw [List.cons_lt_cons_iff, ht.2 m hm n hn]
    simp

/-- Two texts one after the other, the first for the leading part of the number. -/
theorem Sorts.append {w₁ w₂ b₁ b₂ bound : ℕ} {f g : ℕ → List Char} {q r : ℕ → ℕ}
    (hf : Sorts w₁ b₁ f) (hg : Sorts w₂ b₂ g) (hq : ∀ n < bound, q n < b₁)
    (hr : ∀ n < bound, r n < b₂)
    (horder : ∀ m < bound, ∀ n < bound, (m < n ↔ q m < q n ∨ q m = q n ∧ r m < r n)) :
    Sorts (w₁ + w₂) bound fun n => f (q n) ++ g (r n) := by
  constructor
  · intro m hm
    rw [List.length_append, hf.1 _ (hq m hm), hg.1 _ (hr m hm)]
  · intro m hm n hn
    rw [append_lt_append_iff ((hf.1 _ (hq m hm)).trans (hf.1 _ (hq n hn)).symm),
      hf.2 _ (hq m hm) _ (hq n hn), hf.eq_iff (hq m hm) (hq n hn),
      hg.2 _ (hr m hm) _ (hr n hn), horder m hm n hn]

theorem lt_iff_div_mod {k : ℕ} (hk : 0 < k) (m n : ℕ) :
    m < n ↔ m / k < n / k ∨ m / k = n / k ∧ m % k < n % k := by
  have hm := Nat.div_add_mod m k
  have hn := Nat.div_add_mod n k
  have hmk := Nat.mod_lt m hk
  have hnk := Nat.mod_lt n hk
  constructor
  · intro hlt
    rcases Nat.lt_or_eq_of_le (Nat.div_le_div_right (c := k) hlt.le) with hq | hq
    · exact .inl hq
    · rw [hq] at hm
      exact .inr ⟨hq, by omega⟩
  · rintro (hq | ⟨hq, hr⟩)
    · have hstep : k * (m / k + 1) ≤ k * (n / k) := Nat.mul_le_mul_left k hq
      rw [Nat.mul_add, Nat.mul_one] at hstep
      omega
    · rw [hq] at hm
      omega

/-- The quotient and the remainder of a number, one after the other. -/
theorem Sorts.divMod {w₁ w₂ b k : ℕ} {f g : ℕ → List Char} (hk : 0 < k) (hf : Sorts w₁ b f)
    (hg : Sorts w₂ k g) : Sorts (w₁ + w₂) (b * k) fun n => f (n / k) ++ g (n % k) :=
  hf.append hg (fun _ hn => Nat.div_lt_of_lt_mul (Nat.mul_comm b k ▸ hn))
    (fun _ _ => Nat.mod_lt _ hk) fun m _ n _ => lt_iff_div_mod hk m n

/-! ### Digits -/

/-- A number with `width` decimal digits. -/
def padded : ℕ → ℕ → List Char
  | 0, _ => []
  | width + 1, n => Nat.digitChar (n / 10 ^ width) :: padded width (n % 10 ^ width)

theorem digitChar_lt_iff {x y : ℕ} (hx : x < 10) (hy : y < 10) :
    Nat.digitChar x < Nat.digitChar y ↔ x < y := by
  have hall : ∀ x < 10, ∀ y < 10, (Nat.digitChar x < Nat.digitChar y ↔ x < y) := by decide
  exact hall x hx y hy

theorem digitChar_eq_iff {x y : ℕ} (hx : x < 10) (hy : y < 10) :
    Nat.digitChar x = Nat.digitChar y ↔ x = y := by
  have hall : ∀ x < 10, ∀ y < 10, (Nat.digitChar x = Nat.digitChar y ↔ x = y) := by decide
  exact hall x hx y hy

theorem sorts_padded (width : ℕ) : Sorts width (10 ^ width) (padded width) := by
  induction width with
  | zero =>
    constructor
    · exact fun _ _ => rfl
    · intro m hm n hn
      have hnil : ¬ padded 0 m < padded 0 n := lt_irrefl ([] : List Char)
      simp only [hnil, false_iff]
      omega
  | succ width ih =>
    have hdigit : Sorts 1 10 fun n => [Nat.digitChar n] := by
      constructor
      · exact fun _ _ => rfl
      · intro m hm n hn
        rw [List.cons_lt_cons_iff, digitChar_lt_iff hm hn]
        simp
    have hpair := hdigit.divMod (Nat.pow_pos (n := width) (by decide : 0 < 10)) ih
    rw [Nat.add_comm, Nat.mul_comm, ← Nat.pow_succ] at hpair
    exact hpair

/-! ### The date -/

/-- The day of the first of January, `y` years after the year 1. -/
def yearStart (y : ℕ) : ℕ := 365 * y + y / 4 - y / 100 + y / 400

/-- The years since the year 1 and the day of the year: cycles of 400, 100, 4 years and one year,
where the last cycle of 100 years and of one year is a day longer. -/
def yearDay (day : ℕ) : ℕ × ℕ :=
  let n₄₀₀ := day / 146097
  let day := day % 146097
  let n₁₀₀ := day / 36524 - day / 36524 / 4
  let day := day - 36524 * n₁₀₀
  let n₄ := day / 1461
  let day := day % 1461
  let n₁ := day / 365 - day / 365 / 4
  (400 * n₄₀₀ + 100 * n₁₀₀ + 4 * n₄ + n₁, day - 365 * n₁)

/-- Four cycles of one length, of which the last one may be a day longer: the remainder is at most
the length, and only in the last cycle it reaches it. -/
theorem last_cycle_spec {length d : ℕ} (hpos : 0 < length) (hd : d ≤ 4 * length) :
    d / length - d / length / 4 ≤ 3 ∧ length * (d / length - d / length / 4) ≤ d ∧
      d ≤ length * (d / length - d / length / 4) + length ∧
      (d = length * (d / length - d / length / 4) + length →
        d / length - d / length / 4 = 3) := by
  have hq : d / length ≤ 4 := Nat.div_le_of_le_mul (by omega)
  have hdiv := Nat.div_add_mod d length
  have hmod := Nat.mod_lt d hpos
  generalize d / length = q at hq hdiv
  interval_cases q <;> omega

/-- The year that begins `a` cycles of 400, `b` of 100, `c` of 4 years and `e` years after the
first. -/
theorem yearStart_cycles (a : ℕ) {b c e : ℕ} (hb : b ≤ 3) (hc : c ≤ 24) (he : e ≤ 3) :
    yearStart (400 * a + 100 * b + 4 * c + e) =
      146097 * a + 36524 * b + 1461 * c + 365 * e := by
  have hquarter : (400 * a + 100 * b + 4 * c + e) / 4 = 100 * a + 25 * b + c := by omega
  have hcentury : (400 * a + 100 * b + 4 * c + e) / 100 = 4 * a + b := by omega
  have hcycle : (400 * a + 100 * b + 4 * c + e) / 400 = a := by omega
  unfold yearStart
  rw [hquarter, hcentury, hcycle]
  omega

theorem yearStart_succ (y : ℕ) : yearStart y + 365 ≤ yearStart (y + 1) := by
  unfold yearStart
  omega

theorem yearDay_spec (day : ℕ) :
    day = yearStart (yearDay day).1 + (yearDay day).2 ∧
      day < yearStart ((yearDay day).1 + 1) := by
  -- the cycles, from the longest to one year
  obtain ⟨a, d₁, hd₁, rfl⟩ : ∃ a d₁, d₁ < 146097 ∧ day = 146097 * a + d₁ :=
    ⟨day / 146097, day % 146097, Nat.mod_lt _ (by decide), (Nat.div_add_mod _ _).symm⟩
  have hq : (146097 * a + d₁) / 146097 = a := by omega
  have hr : (146097 * a + d₁) % 146097 = d₁ := by omega
  unfold yearDay
  dsimp only
  rw [hq, hr]
  obtain ⟨hb, hbd, hdb, hlong⟩ := last_cycle_spec (by decide) (by omega : d₁ ≤ 4 * 36524)
  generalize d₁ / 36524 - d₁ / 36524 / 4 = b at *
  obtain ⟨d₂, rfl⟩ := Nat.exists_eq_add_of_le hbd
  rw [Nat.add_sub_cancel_left]
  have hc : d₂ / 1461 ≤ 24 := by omega
  have hd₂ := Nat.div_add_mod d₂ 1461
  have hd₃ := Nat.mod_lt d₂ (by decide : 0 < 1461)
  generalize d₂ / 1461 = c at *
  generalize d₂ % 1461 = d₃ at *
  obtain ⟨he, hed, hde, hleap⟩ := last_cycle_spec (by decide) (by omega : d₃ ≤ 4 * 365)
  generalize d₃ / 365 - d₃ / 365 / 4 = e at *
  obtain ⟨d, rfl⟩ := Nat.exists_eq_add_of_le hed
  rw [Nat.add_sub_cancel_left, yearStart_cycles a hb hc he]
  have hfirst := yearStart_cycles a hb hc he
  have hnext := yearStart_succ (400 * a + 100 * b + 4 * c + e)
  refine ⟨by omega, ?_⟩
  -- only the last day of a leap year reaches beyond 365 days
  by_cases hlast : d = 365
  · have he₃ : e = 3 := hleap (by omega)
    subst he₃
    by_cases hc₂₄ : c = 24
    · have hb₃ : b = 3 := hlong (by omega)
      have hcycle := yearStart_cycles (a + 1) (b := 0) (c := 0) (e := 0) (by decide) (by decide)
        (by decide)
      rw [show 400 * a + 100 * b + 4 * c + 3 + 1 = 400 * (a + 1) + 100 * 0 + 4 * 0 + 0 by omega,
        hcycle]
      omega
    · have hcycle := yearStart_cycles a hb (c := c + 1) (e := 0) (by omega) (by decide)
      rw [show 400 * a + 100 * b + 4 * c + 3 + 1 = 400 * a + 100 * b + 4 * (c + 1) + 0 by omega,
        hcycle]
      omega
  · omega

theorem yearStart_mono {y z : ℕ} (hyz : y ≤ z) : yearStart y ≤ yearStart z := by
  induction z, hyz using Nat.le_induction with
  | base => exact le_rfl
  | succ z _ ih =>
    have hnext := yearStart_succ z
    omega

/-- Days are in the order of their years, and within a year in that of the days. -/
theorem yearDay_lt_iff (m n : ℕ) : m < n ↔
    (yearDay m).1 < (yearDay n).1 ∨
      (yearDay m).1 = (yearDay n).1 ∧ (yearDay m).2 < (yearDay n).2 := by
  obtain ⟨hm, hm'⟩ := yearDay_spec m
  obtain ⟨hn, hn'⟩ := yearDay_spec n
  constructor
  · intro hlt
    rcases lt_trichotomy (yearDay m).1 (yearDay n).1 with hy | hy | hy
    · exact .inl hy
    · rw [hy] at hm
      exact .inr ⟨hy, by omega⟩
    · have hle := yearStart_mono (Nat.succ_le_of_lt hy)
      rw [Nat.succ_eq_add_one] at hle
      omega
  · rintro (hy | ⟨hy, hd⟩)
    · have hle := yearStart_mono (Nat.succ_le_of_lt hy)
      rw [Nat.succ_eq_add_one] at hle
      omega
    · rw [hy] at hm
      omega

theorem yearDay_le (day : ℕ) : (yearDay day).2 ≤ 365 := by
  obtain ⟨hday, hnext⟩ := yearDay_spec day
  have hlength : yearStart ((yearDay day).1 + 1) ≤ yearStart (yearDay day).1 + 366 := by
    unfold yearStart
    omega
  omega

/-- The year `y + 1` has a leap day. -/
def isLeap (y : ℕ) : Bool := (y + 1) % 4 = 0 ∧ ((y + 1) % 100 ≠ 0 ∨ (y + 1) % 400 = 0)

/-- The days of a year before each month. -/
def daysBefore : List ℕ := [0, 31, 59, 90, 120, 151, 181, 212, 243, 273, 304, 334, 365]

/-- The month and the day of the month.  A month has 31 days at most, so that a thirty-first part of
the day is the month or the one before. -/
def monthDay (leap : Bool) (yday : ℕ) : ℕ × ℕ :=
  if leap ∧ yday = 59 then (2, 29)
  else
    let day := if leap ∧ 59 < yday then yday - 1 else yday
    let ends := daysBefore.getD (day / 31 + 1) 0
    if ends ≤ day then (day / 31 + 2, day - ends + 1)
    else (day / 31 + 1, day - daysBefore.getD (day / 31) 0 + 1)

/-- The month and the day as one number. -/
def monthDayKey (leap : Bool) (yday : ℕ) : ℕ :=
  (monthDay leap yday).1 * 32 + (monthDay leap yday).2

theorem monthDay_bounds (leap : Bool) {yday : ℕ} (hyday : yday ≤ 365) :
    (monthDay leap yday).1 < 14 ∧ (monthDay leap yday).2 < 32 := by
  have hall : ∀ leap, ∀ yday < 366, (monthDay leap yday).1 < 14 ∧ (monthDay leap yday).2 < 32 := by
    decide +kernel
  exact hall leap yday (by omega)

theorem monthDayKey_lt_iff (leap : Bool) {m n : ℕ} (hm : m ≤ 365) (hn : n ≤ 365) :
    monthDayKey leap m < monthDayKey leap n ↔ m < n := by
  have hnext : ∀ leap, ∀ yday < 365, monthDayKey leap yday < monthDayKey leap (yday + 1) := by
    decide +kernel
  have hlt : ∀ n ≤ 365, ∀ m < n, monthDayKey leap m < monthDayKey leap n := by
    intro n
    induction n with
    | zero => exact fun _ m hm => absurd hm (Nat.not_lt_zero m)
    | succ n ih =>
      intro hn m hm
      have hstep := hnext leap n (by omega)
      rcases Nat.lt_succ_iff_lt_or_eq.1 hm with hm | rfl
      · exact (ih (by omega) m hm).trans hstep
      · exact hstep
  constructor
  · intro hkey
    by_contra hnot
    rcases Nat.lt_or_eq_of_le (Nat.not_lt.1 hnot) with hnm | rfl
    · exact absurd hkey (Nat.lt_asymm (hlt m hm n hnm))
    · exact absurd hkey (lt_irrefl _)
  · exact hlt n hn m

/-! ### The text -/

/-- The year with four digits at least. -/
def yearText (year : ℕ) : List Char := if year < 10000 then padded 4 year else Nat.toDigits 10 year

/-- The date of a day. -/
def dateText (day : ℕ) : List Char :=
  let (y, yday) := yearDay day
  let (month, mday) := monthDay (isLeap y) yday
  yearText (y + 1) ++ ('-' :: padded 2 month ++ '-' :: padded 2 mday)

/-- The clock of a second of a day. -/
def clockText (second : ℕ) : List Char :=
  padded 2 (second / 3600) ++
    (':' :: padded 2 (second % 3600 / 60) ++ ':' :: padded 2 (second % 3600 % 60))

/-- The date and the clock. -/
def secondText (second : ℕ) : List Char :=
  dateText (second / 86400) ++ 'T' :: clockText (second % 86400)

/-- The digits of a fraction without its trailing zeros. -/
def fractionDigits : ℕ → ℕ → List Char
  | 0, _ => []
  | width + 1, n =>
    if n = 0 then []
    else Nat.digitChar (n / 10 ^ width) :: fractionDigits width (n % 10 ^ width)

/-- The fraction of a second and the zone. -/
def fractionText (nanosecond : ℕ) : List Char :=
  if nanosecond = 0 then ['Z'] else '.' :: fractionDigits 9 nanosecond ++ ['Z']

/-- `Format(time.RFC3339Nano)`. -/
def rfc3339Nano (instant : ℕ) : String :=
  String.ofList (secondText (instant / 10 ^ 9) ++ fractionText (instant % 10 ^ 9))

example : rfc3339Nano 63844847999250000000 = "2024-02-29T23:59:59.25Z" := by decide +kernel

/-! ### Its order -/

theorem Sorts.below {width bound bound' : ℕ} {text : ℕ → List Char} (ht : Sorts width bound text)
    (hle : bound' ≤ bound) : Sorts width bound' text :=
  ⟨fun m hm => ht.1 m (hm.trans_le hle),
    fun m hm n hn => ht.2 m (hm.trans_le hle) n (hn.trans_le hle)⟩

theorem Sorts.congr {width bound : ℕ} {f g : ℕ → List Char} (hf : Sorts width bound f)
    (heq : ∀ n < bound, g n = f n) : Sorts width bound g := by
  constructor
  · intro m hm
    rw [heq m hm, hf.1 m hm]
  · intro m hm n hn
    rw [heq m hm, heq n hn, hf.2 m hm n hn]

/-- The number of days before the year 10000. -/
def fourDigitDays : ℕ := yearStart 9999

theorem sorts_dateText : Sorts 10 fourDigitDays dateText := by
  have hyear : Sorts 4 9999 fun y => padded 4 (y + 1) := by
    constructor
    · exact fun m hm => (sorts_padded 4).1 (m + 1) (by omega)
    · intro m hm n hn
      rw [(sorts_padded 4).2 (m + 1) (by omega) (n + 1) (by omega)]
      omega
  have hmonthDay : Sorts 6 (14 * 32) fun key => '-' :: padded 2 (key / 32) ++
      '-' :: padded 2 (key % 32) :=
    (((sorts_padded 2).below (by decide : 14 ≤ 10 ^ 2)).cons '-').divMod (by decide)
      (((sorts_padded 2).below (by decide : 32 ≤ 10 ^ 2)).cons '-')
  have hbound : ∀ day < fourDigitDays, (yearDay day).1 < 9999 := by
    intro day hday
    by_contra hnot
    have hle := yearStart_mono (Nat.not_lt.1 hnot)
    have hspec := (yearDay_spec day).1
    unfold fourDigitDays at hday
    omega
  have hkey : ∀ day, monthDayKey (isLeap (yearDay day).1) (yearDay day).2 < 14 * 32 := by
    intro day
    have hmd := monthDay_bounds (isLeap (yearDay day).1) (yearDay_le day)
    unfold monthDayKey
    omega
  refine (hyear.append hmonthDay hbound (fun day _ => hkey day) fun m _ n _ => ?_).congr
    fun day hday => ?_
  · rw [yearDay_lt_iff]
    refine or_congr_right (and_congr_right fun hy => ?_)
    rw [hy, monthDayKey_lt_iff _ (yearDay_le m) (yearDay_le n)]
  · have hmd := monthDay_bounds (isLeap (yearDay day).1) (yearDay_le day)
    have hmonth : monthDayKey (isLeap (yearDay day).1) (yearDay day).2 / 32 =
        (monthDay (isLeap (yearDay day).1) (yearDay day).2).1 := by
      unfold monthDayKey
      omega
    have hmday : monthDayKey (isLeap (yearDay day).1) (yearDay day).2 % 32 =
        (monthDay (isLeap (yearDay day).1) (yearDay day).2).2 := by
      unfold monthDayKey
      omega
    have hyear := hbound day hday
    have htext : yearText ((yearDay day).1 + 1) = padded 4 ((yearDay day).1 + 1) := by
      unfold yearText
      rw [if_pos (by omega)]
    rw [hmonth, hmday, ← htext]
    rfl

theorem sorts_clockText : Sorts 8 86400 clockText :=
  ((sorts_padded 2).below (by decide : 24 ≤ 10 ^ 2)).divMod (k := 3600) (by decide)
    ((((sorts_padded 2).below (by decide : 60 ≤ 10 ^ 2)).cons ':').divMod (k := 60) (by decide)
      (((sorts_padded 2).below (by decide : 60 ≤ 10 ^ 2)).cons ':'))

theorem sorts_secondText : Sorts 19 (fourDigitDays * 86400) secondText :=
  sorts_dateText.divMod (by decide) (sorts_clockText.cons 'T')

/-- One fraction is the beginning of the other. -/
def Extends (a b : ℕ) : Prop :=
  fractionDigits 9 a <+: fractionDigits 9 b ∨ fractionDigits 9 b <+: fractionDigits 9 a

instance (a b : ℕ) : Decidable (Extends a b) := inferInstanceAs (Decidable (_ ∨ _))

/-- The zone sorts after the digits: a fraction comes after those that extend it. -/
theorem fractionDigits_le_iff (width : ℕ) {a b : ℕ} (ha : a < 10 ^ width) (hb : b < 10 ^ width) :
    fractionDigits width a ++ ['Z'] ≤ fractionDigits width b ++ ['Z'] ↔
      if fractionDigits width a <+: fractionDigits width b ∨
        fractionDigits width b <+: fractionDigits width a then b ≤ a else a ≤ b := by
  induction width generalizing a b with
  | zero =>
    obtain rfl : a = 0 := by omega
    obtain rfl : b = 0 := by omega
    simp
  | succ width ih =>
    have hdigit : ∀ {n}, n < 10 ^ (width + 1) → n / 10 ^ width < 10 := by
      intro n hn
      rw [Nat.pow_succ] at hn
      exact Nat.div_lt_of_lt_mul hn
    have hzone : ∀ x < 10, Nat.digitChar x < 'Z' := by decide
    by_cases ha₀ : a = 0
    · subst ha₀
      by_cases hb₀ : b = 0
      · subst hb₀
        simp [fractionDigits]
      · have hlt := hzone _ (hdigit hb)
        simp only [fractionDigits, if_pos, if_neg hb₀, List.nil_append, List.cons_append,
          List.nil_prefix, true_or, cons_le_cons_iff]
        simp [hlt.ne', hlt.not_gt, hb₀]
    · by_cases hb₀ : b = 0
      · subst hb₀
        have hlt := hzone _ (hdigit ha)
        simp [fractionDigits, ha₀, cons_le_cons_iff, hlt]
      · have hx := hdigit ha
        have hy := hdigit hb
        simp only [fractionDigits, if_neg ha₀, if_neg hb₀, List.cons_append, cons_le_cons_iff,
          List.cons_prefix_cons, digitChar_lt_iff hx hy, digitChar_eq_iff hx hy,
          digitChar_eq_iff hy hx]
        have hp : 0 < 10 ^ width := Nat.pow_pos (by decide)
        have hab := lt_iff_div_mod hp a b
        have hba := lt_iff_div_mod hp b a
        by_cases hxy : a / 10 ^ width = b / 10 ^ width
        · have htail := ih (Nat.mod_lt a hp) (Nat.mod_lt b hp)
          simp only [hxy, lt_irrefl, true_and, false_or] at hab hba ⊢
          rw [htail]
          split_ifs
          · omega
          · omega
        · rw [if_neg (fun h => h.elim (fun h => hxy h.1) fun h => hxy h.1.symm)]
          omega

theorem fractionText_le_iff {a b : ℕ} (ha : a < 10 ^ 9) (hb : b < 10 ^ 9) :
    fractionText a ≤ fractionText b ↔ if Extends a b then b ≤ a else a ≤ b := by
  have hdot : '.' < 'Z' := by decide
  have hdigits := fractionDigits_le_iff 9 ha hb
  unfold fractionText
  by_cases ha₀ : a = 0
  · subst ha₀
    by_cases hb₀ : b = 0
    · subst hb₀
      simp
    · simp [Extends, fractionDigits, hb₀, cons_le_cons_iff]
  · by_cases hb₀ : b = 0
    · subst hb₀
      simp [Extends, fractionDigits, ha₀, cons_le_cons_iff, hdot]
    · rw [if_neg ha₀, if_neg hb₀, List.cons_append, List.cons_append, cons_le_cons_iff]
      by_cases hext : fractionDigits 9 a <+: fractionDigits 9 b ∨
        fractionDigits 9 b <+: fractionDigits 9 a
      · have hextends : Extends a b := hext
        rw [if_pos hext] at hdigits
        rw [if_pos hextends, hdigits]
        simp
      · have hplain : ¬ Extends a b := hext
        rw [if_neg hext] at hdigits
        rw [if_neg hplain, hdigits]
        simp

/-- The first instant of the year 10000. -/
def fourDigitYears : ℕ := fourDigitDays * 86400 * 10 ^ 9

/-- Two instants of one second, one of whose fractions is the beginning of the other. -/
def Confused (a b : ℕ) : Prop := a / 10 ^ 9 = b / 10 ^ 9 ∧ Extends (a % 10 ^ 9) (b % 10 ^ 9)

instance (a b : ℕ) : Decidable (Confused a b) := inferInstanceAs (Decidable (_ ∧ _))

/-- Before the year 10000, two texts are in the order of their instants, or in the other one where
these are in one second and one fraction is the beginning of the other. -/
theorem rfc3339Nano_le_iff {a b : ℕ} (ha : a < fourDigitYears) (hb : b < fourDigitYears) :
    rfc3339Nano a ≤ rfc3339Nano b ↔ if Confused a b then b ≤ a else a ≤ b := by
  have hsecond : ∀ {n}, n < fourDigitYears → n / 10 ^ 9 < fourDigitDays * 86400 := by
    intro n hn
    exact Nat.div_lt_of_lt_mul (Nat.mul_comm _ _ ▸ hn)
  have hlength := (sorts_secondText.1 _ (hsecond ha)).trans (sorts_secondText.1 _ (hsecond hb)).symm
  have hfraction := fractionText_le_iff (Nat.mod_lt a (by decide : 0 < 10 ^ 9))
    (Nat.mod_lt b (by decide : 0 < 10 ^ 9))
  rw [String.le_iff_toList_le]
  unfold rfc3339Nano
  rw [String.toList_ofList, String.toList_ofList, ← not_lt,
    append_lt_append_iff hlength.symm, sorts_secondText.2 _ (hsecond hb) _ (hsecond ha),
    sorts_secondText.eq_iff (hsecond hb) (hsecond ha)]
  by_cases hsame : a / 10 ^ 9 = b / 10 ^ 9
  · simp only [hsame, lt_irrefl, true_and, false_or, not_lt]
    rw [hfraction]
    by_cases hext : Extends (a % 10 ^ 9) (b % 10 ^ 9)
    · have hconfused : Confused a b := ⟨hsame, hext⟩
      rw [if_pos hext, if_pos hconfused]
      omega
    · have hplain : ¬ Confused a b := fun h => hext h.2
      rw [if_neg hext, if_neg hplain]
      omega
  · have hplain : ¬ Confused a b := fun h => hsame h.1
    rw [if_neg hplain]
    simp only [Ne.symm hsame, false_and, or_false, not_lt]
    omega

end Rfc3339
