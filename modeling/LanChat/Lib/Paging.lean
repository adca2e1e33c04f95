import Mathlib.Data.List.Basic
import Mathlib.Algebra.Order.Ring.Nat

/-!
# Reading a list back in pages

A list is read from its end: a page is the last `limit` entries before the cursor, and the first
entry of a page gives the next cursor, `cut a` entries from the front.

* `readBack`: the pages, older ones in front; with a cursor after its entry it need not end;
* `readBack_eq_iff`: each entry is read once, in order, exactly when the cursor of every first entry
  is its position;
* `take_length_filter`, `lt_length_filter_iff`: a property that entries pass to those before them
  holds of a front part of the list.
-/

namespace Paging

variable {α : Type*} (xs : List α) (cut : α → ℕ) (limit : ℕ)

/-- The pages of the first `k` entries. -/
def readBack : ℕ → ℕ → Option (List α)
  | 0, _ => none
  | fuel + 1, k =>
    if k ≤ limit then some (xs.take k)
    else match xs[k - limit]? with
      | none => none
      | some a => (readBack fuel (cut a)).map fun older => older ++ (xs.take k).drop (k - limit)

variable {xs cut limit}

theorem readBack_last {fuel k : ℕ} (hk : k ≤ limit) :
    readBack xs cut limit (fuel + 1) k = some (xs.take k) := by
  rw [readBack, if_pos hk]

theorem readBack_more {fuel k : ℕ} {a : α} (hk : limit < k) (ha : xs[k - limit]? = some a) :
    readBack xs cut limit (fuel + 1) k =
      (readBack xs cut limit fuel (cut a)).map
        fun older => older ++ (xs.take k).drop (k - limit) := by
  rw [readBack, if_neg (Nat.not_le.2 hk), ha]

/-- The first entry of a page that is not the last one. -/
theorem exists_first {k : ℕ} (hlimit : 0 < limit) (hk : limit < k) (hlen : k ≤ xs.length) :
    ∃ a, xs[k - limit]? = some a :=
  ⟨_, List.getElem?_eq_getElem (by omega)⟩

/-- The first page ends with the entry before the cursor. -/
theorem getLast?_readBack (hlimit : 0 < limit) {fuel k : ℕ} {ys : List α} (hlen : k ≤ xs.length)
    (hread : readBack xs cut limit fuel k = some ys) : ys.getLast? = (xs.take k).getLast? := by
  cases fuel with
  | zero => cases hread
  | succ fuel =>
    by_cases hk : k ≤ limit
    · rw [readBack_last hk] at hread
      cases hread
      rfl
    · obtain ⟨a, ha⟩ := exists_first hlimit (Nat.not_le.1 hk) hlen
      rw [readBack_more (Nat.not_le.1 hk) ha] at hread
      obtain ⟨older, -, rfl⟩ := Option.map_eq_some_iff.1 hread
      have hpage : (xs.take k).drop (k - limit) ≠ [] := by
        intro hnil
        have hlength := congrArg List.length hnil
        rw [List.length_drop, List.length_take, List.length_nil] at hlength
        omega
      rw [List.getLast?_append_of_ne_nil _ hpage, List.getLast?_drop, if_neg]
      rw [List.length_take]
      omega

/-- A front part is read back from its own end only, when no entry is there twice. -/
theorem eq_of_readBack_take (hlimit : 0 < limit) (hnodup : xs.Nodup) {fuel j k : ℕ}
    (hj : j ≤ xs.length) (hk : k ≤ xs.length)
    (hread : readBack xs cut limit fuel k = some (xs.take j)) : k = j := by
  have hlast := getLast?_readBack hlimit hk hread
  have hentry : ∀ {n}, n ≤ xs.length → (xs.take n).getLast? = if n = 0 then none else xs[n - 1]? := by
    intro n hn
    split_ifs with hzero
    · rw [hzero]
      rfl
    · rw [List.getLast?_eq_getElem?, List.length_take, Nat.min_eq_left hn,
        List.getElem?_take_of_lt (by omega)]
  rw [hentry hj, hentry hk] at hlast
  split_ifs at hlast with hzero hzero'
  · rw [hzero, hzero']
  · rw [List.getElem?_eq_getElem (by omega)] at hlast
    cases hlast
  · rw [List.getElem?_eq_getElem (by omega)] at hlast
    cases hlast
  · have hsame : k - 1 = j - 1 := (List.getElem?_inj (by omega) hnodup).1 hlast.symm
    omega

/-- What is read is the front part exactly when every page that is not the last one starts at its own
cursor. -/
theorem readBack_eq_take_iff (hlimit : 0 < limit) (hnodup : xs.Nodup)
    (hcut : ∀ a ∈ xs, cut a ≤ xs.length) {k : ℕ} (hlen : k ≤ xs.length) :
    (∃ fuel, readBack xs cut limit fuel k = some (xs.take k)) ↔
      ∀ i a, xs[i]? = some a → 0 < i → i < k → limit ∣ k - i → cut a = i := by
  induction k using Nat.strong_induction_on with
  | _ k ih =>
    by_cases hk : k ≤ limit
    · refine ⟨fun _ i a _ hpos hlt hdvd => ?_, fun _ => ⟨1, readBack_last hk⟩⟩
      have hge := Nat.le_of_dvd (by omega) hdvd
      omega
    · obtain ⟨a, ha⟩ := exists_first hlimit (Nat.not_le.1 hk) hlen
      have hsplit : xs.take k = xs.take (k - limit) ++ (xs.take k).drop (k - limit) := by
        conv_lhs => rw [← List.take_append_drop (k - limit) (xs.take k), List.take_take,
          Nat.min_eq_left (Nat.sub_le _ _)]
      have ih := ih (k - limit) (by omega) (by omega)
      constructor
      · rintro ⟨fuel, hread⟩ i b hb hpos hlt hdvd
        cases fuel with
        | zero => cases hread
        | succ fuel =>
          rw [readBack_more (Nat.not_le.1 hk) ha] at hread
          obtain ⟨older, holder, hpages⟩ := Option.map_eq_some_iff.1 hread
          -- the older pages are the entries before this one, so they are read from there
          have hfront : older = xs.take (k - limit) := by
            generalize (xs.take k).drop (k - limit) = page at hsplit hpages
            rw [hsplit] at hpages
            exact List.append_cancel_right hpages
          rw [hfront] at holder
          have hcuta := eq_of_readBack_take hlimit hnodup (by omega)
            (hcut a (List.mem_of_getElem? ha)) holder
          rcases Nat.lt_trichotomy i (k - limit) with hi | rfl | hi
          · rw [hcuta] at holder
            refine ih.1 ⟨fuel, holder⟩ i b hb hpos hi ?_
            rw [Nat.sub_right_comm]
            exact Nat.dvd_sub hdvd (Nat.dvd_refl _)
          · rw [ha] at hb
            cases hb
            exact hcuta
          · have hge := Nat.le_of_dvd (by omega) hdvd
            omega
      · intro hall
        have hcuta : cut a = k - limit := by
          refine hall _ a ha (by omega) (by omega) ?_
          rw [Nat.sub_sub_self (by omega)]
        obtain ⟨fuel, hfuel⟩ := ih.2 fun i b hb hpos hlt hdvd => by
          refine hall i b hb hpos (by omega) ?_
          have hsum : k - i = (k - limit - i) + limit := by omega
          rw [hsum]
          exact Nat.dvd_add hdvd (Nat.dvd_refl _)
        refine ⟨fuel + 1, ?_⟩
        rw [readBack_more (Nat.not_le.1 hk) ha, hcuta, hfuel, Option.map_some, ← hsplit]

/-- Reading back from the end yields the list exactly when every page that is not the last one
starts at its own cursor. -/
theorem readBack_eq_iff (hlimit : 0 < limit) (hnodup : xs.Nodup)
    (hcut : ∀ a ∈ xs, cut a ≤ xs.length) :
    (∃ fuel, readBack xs cut limit fuel xs.length = some xs) ↔
      ∀ i a, xs[i]? = some a → 0 < i → limit ∣ xs.length - i → cut a = i := by
  have hiff := readBack_eq_take_iff hlimit hnodup hcut (Nat.le_refl _)
  rw [List.take_length] at hiff
  rw [hiff]
  constructor
  · intro hall i a ha hpos hdvd
    exact hall i a ha hpos (List.getElem?_eq_some_iff.1 ha).1 hdvd
  · intro hall i a ha hpos _ hdvd
    exact hall i a ha hpos hdvd

/-! ### Front parts -/

/-- What holds of entries and of those before them holds of a front part. -/
theorem take_length_filter {p : α → Bool}
    (hp : xs.Pairwise fun a b => p b = true → p a = true) :
    xs.take (xs.filter p).length = xs.filter p := by
  induction xs with
  | nil => rfl
  | cons a xs ih =>
    obtain ⟨hhead, htail⟩ := List.pairwise_cons.1 hp
    by_cases ha : p a = true
    · rw [List.filter_cons_of_pos ha, List.length_cons, List.take_succ_cons, ih htail]
    · have hnone : xs.filter p = [] := by
        rw [List.filter_eq_nil_iff]
        intro b hb hpb
        exact ha (hhead b hb hpb)
      rw [List.filter_cons_of_neg ha, hnone]
      rfl

/-- The property holds of an entry exactly when the entry is in that part. -/
theorem lt_length_filter_iff {p : α → Bool}
    (hp : xs.Pairwise fun a b => p b = true → p a = true) {i : ℕ} {a : α}
    (ha : xs[i]? = some a) : i < (xs.filter p).length ↔ p a = true := by
  induction xs generalizing i with
  | nil => simp at ha
  | cons b xs ih =>
    obtain ⟨hhead, htail⟩ := List.pairwise_cons.1 hp
    cases i with
    | zero =>
      obtain rfl : b = a := Option.some_injective _ ha
      by_cases hb : p b = true
      · simp [hb]
      · have hnone : ∀ c ∈ xs, ¬ p c = true := fun c hc hpc => hb (hhead c hc hpc)
        rw [List.filter_cons_of_neg hb, List.filter_eq_nil_iff.2 hnone]
        simp [hb]
    | succ i =>
      have ha' : xs[i]? = some a := ha
      by_cases hb : p b = true
      · rw [List.filter_cons_of_pos hb, List.length_cons, Nat.succ_lt_succ_iff]
        exact ih htail ha'
      · have hnone : ∀ c ∈ xs, ¬ p c = true := fun c hc hpc => hb (hhead c hc hpc)
        rw [List.filter_cons_of_neg hb, List.filter_eq_nil_iff.2 hnone]
        simp [hnone a (List.mem_of_getElem? ha')]

end Paging
