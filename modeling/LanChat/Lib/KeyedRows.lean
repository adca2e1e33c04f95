import Mathlib.Data.List.Basic
import Mathlib.Data.List.DropRight
import Mathlib.Data.List.Nodup

/-!
# Rows with keys

A row has a key or none; rows with one key are one row, and a later one is merged into an earlier
one.

* `Distinct`: no two rows of a list have one key;
* `absorb`: a row after all rows of its key in a list have been merged into it;
* `fresh`: what a list of rows adds to the keys that are there, duplicates merged into the first;
* `modify_eq_map`: merging one row at its position is merging it wherever its key is;
* `fresh_concat`: what one more row adds;
* `rtake_append`, `rtake_append_rtake`: the last rows of two lists;
* `Follows order keys`: the keys that occur in an order stand in this order, `follows_append` and
  `follows_of_sublist`.
-/

namespace KeyedRows

variable {ρ κ : Type*} [DecidableEq κ]

section Merge

variable (key : ρ → Option κ) (merge : ρ → ρ → ρ)

/-- No two rows have one key. -/
def Distinct (rows : List ρ) : Prop := (rows.filterMap key).Nodup

/-- A row meets another one: it is merged into when the other one has its key. -/
def meet (row other : ρ) : ρ :=
  if (key other).isSome ∧ key other = key row then merge row other else row

/-- A row after the rows of a list have met it. -/
def absorb (row : ρ) (others : List ρ) : ρ := others.foldl (meet key merge) row

/-- The rows of a list that have no key or a key that was not seen yet, each with the later rows of
its key. -/
def fresh (seen : List κ) : List ρ → List ρ
  | [] => []
  | row :: rest =>
    match key row with
    | none => row :: fresh seen rest
    | some k =>
      if k ∈ seen then fresh seen rest
      else absorb key merge row rest :: fresh (k :: seen) rest

variable {key merge}

/-- The merged row keeps the key. -/
def KeepsKey (key : ρ → Option κ) (merge : ρ → ρ → ρ) : Prop :=
  ∀ row other, (key other).isSome → key other = key row → key (merge row other) = key row

variable (hkeeps : KeepsKey key merge)
include hkeeps

theorem key_meet (row other : ρ) : key (meet key merge row other) = key row := by
  unfold meet
  split_ifs with h
  · exact hkeeps row other h.1 h.2
  · rfl

theorem key_absorb (row : ρ) (others : List ρ) : key (absorb key merge row others) = key row := by
  induction others generalizing row with
  | nil => rfl
  | cons other rest ih => exact (ih _).trans (key_meet hkeeps row other)

theorem map_key_meet (rows : List ρ) (other : ρ) :
    (rows.map fun row => meet key merge row other).map key = rows.map key := by
  rw [List.map_map]
  exact List.map_congr_left fun row _ => key_meet hkeeps row other

theorem filterMap_map_absorb (rows others : List ρ) :
    (rows.map fun row => absorb key merge row others).filterMap key = rows.filterMap key := by
  rw [List.filterMap_map]
  exact List.filterMap_congr fun row _ => key_absorb hkeeps row others

omit hkeeps in
theorem absorb_concat (row : ρ) (others : List ρ) (last : ρ) :
    absorb key merge row (others ++ [last]) =
      meet key merge (absorb key merge row others) last := by
  unfold absorb
  rw [List.foldl_append]
  rfl

omit hkeeps in
/-- A row that meets no row of its key changes nothing. -/
theorem map_meet_of_not_mem {rows : List ρ} {other : ρ}
    (hnone : ∀ k, key other = some k → k ∉ rows.filterMap key) :
    (rows.map fun row => meet key merge row other) = rows := by
  refine (List.map_congr_left fun row hrow => ?_).trans (List.map_id rows)
  unfold meet
  rw [if_neg]
  · rfl
  · rintro ⟨hsome, hsame⟩
    obtain ⟨k, hk⟩ := Option.isSome_iff_exists.1 hsome
    exact hnone k hk (List.mem_filterMap.2 ⟨row, hrow, hsame.symm.trans hk⟩)

omit hkeeps in
/-- Merging a row at the position of its key is merging it wherever its key is. -/
theorem modify_eq_map {rows : List ρ} {other : ρ} {k : κ} (hdistinct : Distinct key rows)
    (hk : key other = some k) {i : ℕ} (hi : i < rows.length) (hkey : key rows[i] = some k) :
    (rows.modify i fun row => merge row other) = rows.map fun row => meet key merge row other := by
  induction rows generalizing i with
  | nil => exact absurd hi (Nat.not_lt_zero i)
  | cons row rest ih =>
    cases i with
    | zero =>
      have hmeet : meet key merge row other = merge row other := by
        unfold meet
        rw [if_pos]
        exact ⟨by rw [hk]; rfl, hk.trans hkey.symm⟩
      rw [List.getElem_cons_zero] at hkey
      rw [List.modify_zero_cons, List.map_cons, hmeet, map_meet_of_not_mem]
      intro k' hk' hmem
      unfold Distinct at hdistinct
      rw [List.filterMap_cons_some hkey, List.nodup_cons] at hdistinct
      obtain rfl : k = k' := Option.some.inj (hk.symm.trans hk')
      exact hdistinct.1 hmem
    | succ i =>
      have hrest : Distinct key rest := by
        unfold Distinct at hdistinct ⊢
        exact hdistinct.sublist ((List.sublist_cons_self row rest).filterMap key)
      have hlt : i < rest.length := Nat.lt_of_succ_lt_succ hi
      have hmeet : meet key merge row other = row := by
        unfold meet
        rw [if_neg]
        rintro ⟨-, hsame⟩
        unfold Distinct at hdistinct
        rw [List.filterMap_cons_some (hsame.symm.trans hk), List.nodup_cons] at hdistinct
        exact hdistinct.1 (List.mem_filterMap.2 ⟨rest[i], List.getElem_mem hlt, hkey⟩)
      rw [List.modify_succ_cons, List.map_cons, hmeet]
      exact congrArg (row :: ·) (ih hrest hlt hkey)

/-- What a list adds has the keys of the list that were not seen yet. -/
theorem mem_fresh (seen : List κ) (rows : List ρ) (k : κ) :
    k ∈ (fresh key merge seen rows).filterMap key ↔ k ∉ seen ∧ k ∈ rows.filterMap key := by
  induction rows generalizing seen with
  | nil => simp [fresh]
  | cons row rest ih =>
    cases hrow : key row with
    | none => simp only [fresh, hrow, List.filterMap_cons_none hrow, ih]
    | some k' =>
      simp only [fresh, hrow, List.filterMap_cons_some hrow, List.mem_cons]
      by_cases hseen : k' ∈ seen
      · rw [if_pos hseen, ih]
        refine and_congr_right fun hnot => ⟨.inr, fun hmem => hmem.resolve_left ?_⟩
        rintro rfl
        exact hnot hseen
      · rw [if_neg hseen, List.filterMap_cons_some ((key_absorb hkeeps row rest).trans hrow),
          List.mem_cons, ih, List.mem_cons]
        by_cases hk : k = k'
        · subst hk
          exact iff_of_true (.inl rfl) ⟨hseen, .inl rfl⟩
        · simp only [hk, false_or]

theorem distinct_fresh (seen : List κ) (rows : List ρ) :
    Distinct key (fresh key merge seen rows) := by
  induction rows generalizing seen with
  | nil => exact List.nodup_nil
  | cons row rest ih =>
    unfold Distinct fresh
    split
    · rename_i hnone
      rw [List.filterMap_cons_none hnone]
      exact ih seen
    · rename_i k hsome
      split_ifs
      · exact ih seen
      · rw [List.filterMap_cons_some ((key_absorb hkeeps row rest).trans hsome), List.nodup_cons]
        exact ⟨fun hmem => ((mem_fresh hkeeps _ rest k).1 hmem).1 List.mem_cons_self, ih _⟩

omit hkeeps in
/-- What one more row adds: nothing when its key has been seen, in the list or before. -/
theorem fresh_concat (seen : List κ) (rows : List ρ) (last : ρ) :
    fresh key merge seen (rows ++ [last]) =
      (fresh key merge seen rows).map (fun row => meet key merge row last) ++
        (if ∃ k, key last = some k ∧ (k ∈ seen ∨ k ∈ rows.filterMap key) then [] else [last]) := by
  induction rows generalizing seen with
  | nil =>
    cases hlast : key last with
    | none => simp [fresh, hlast]
    | some k => by_cases hseen : k ∈ seen <;> simp [fresh, absorb, hlast, hseen]
  | cons row rest ih =>
    cases hrow : key row with
    | none =>
      have hmeet : meet key merge row last = row := by
        unfold meet
        rw [hrow, if_neg]
        rintro ⟨hsome, hnone⟩
        rw [hnone] at hsome
        cases hsome
      simp only [List.cons_append, fresh, hrow, ih seen, List.map_cons, hmeet,
        List.filterMap_cons_none hrow]
    | some k =>
      simp only [List.cons_append, fresh, hrow, List.filterMap_cons_some hrow]
      by_cases hseen : k ∈ seen
      · rw [if_pos hseen, if_pos hseen, ih seen]
        congr 2
        refine propext (exists_congr fun k' => and_congr_right fun _ => ?_)
        rw [List.mem_cons]
        constructor
        · rintro (h | h)
          · exact .inl h
          · exact .inr (.inr h)
        · rintro (h | rfl | h)
          · exact .inl h
          · exact .inl hseen
          · exact .inr h
      · rw [if_neg hseen, if_neg hseen, ih (k :: seen), absorb_concat, List.map_cons,
          List.cons_append]
        congr 3
        refine propext (exists_congr fun k' => and_congr_right fun _ => ?_)
        rw [List.mem_cons, List.mem_cons, or_assoc, or_left_comm]

end Merge

/-! ### The last rows -/

variable {n : ℕ} {rows new : List ρ}

theorem length_rtake (n : ℕ) (rows : List ρ) : (rows.rtake n).length = min n rows.length := by
  unfold List.rtake
  rw [List.length_drop]
  omega

theorem rtake_of_length_le (hle : rows.length ≤ n) : rows.rtake n = rows := by
  unfold List.rtake
  rw [Nat.sub_eq_zero_of_le hle, List.drop_zero]

theorem rtake_sublist (n : ℕ) (rows : List ρ) : (rows.rtake n).Sublist rows :=
  List.drop_sublist _ rows

/-- When the new rows have room, the old rows make room for them. -/
theorem rtake_append (hroom : new.length ≤ n) :
    (rows ++ new).rtake n = rows.drop (rows.length + new.length - n) ++ new := by
  unfold List.rtake
  rw [List.drop_append, List.length_append,
    Nat.sub_eq_zero_of_le (by omega : rows.length + new.length - n ≤ rows.length), List.drop_zero]

/-- When they have none, the last of them are left. -/
theorem rtake_append_of_le (hfull : n ≤ new.length) : (rows ++ new).rtake n = new.rtake n := by
  unfold List.rtake
  rw [List.drop_append, List.length_append, List.drop_eq_nil_of_le (by omega), List.nil_append]
  congr 1
  omega

/-- Rows that are cut away at the front may be cut away before. -/
theorem rtake_append_rtake (n : ℕ) (rows new : List ρ) :
    (rows ++ new.rtake n).rtake n = (rows ++ new).rtake n := by
  rcases Nat.le_total n new.length with hfull | hroom
  · have hlen : (new.rtake n).length = n := (length_rtake n new).trans (min_eq_left hfull)
    rw [rtake_append_of_le hfull, rtake_append_of_le hlen.ge, rtake_of_length_le hlen.le]
  · rw [rtake_of_length_le hroom]

/-! ### An order that is given as a list -/

variable {order keys keys' : List κ}

/-- The first key stands before the second one. -/
def Before (order : List κ) (k k' : κ) : Prop := order.idxOf k < order.idxOf k'

instance (order : List κ) (k k' : κ) : Decidable (Before order k k') :=
  inferInstanceAs (Decidable (order.idxOf k < order.idxOf k'))

/-- The keys that occur in the order stand as they do there. -/
def Follows (order keys : List κ) : Prop :=
  (keys.filter fun k => k ∈ order).Pairwise (Before order)

instance (order keys : List κ) : Decidable (Follows order keys) :=
  inferInstanceAs (Decidable (List.Pairwise (Before order) _))

theorem follows_append :
    Follows order (keys ++ keys') ↔ Follows order keys ∧ Follows order keys' ∧
      ∀ k ∈ keys, k ∈ order → ∀ k' ∈ keys', k' ∈ order → Before order k k' := by
  unfold Follows
  rw [List.filter_append, List.pairwise_append]
  simp only [List.mem_filter, decide_eq_true_eq, and_imp]

/-- A part of the order. -/
theorem follows_of_sublist (hnodup : order.Nodup) (hsub : keys.Sublist order) :
    Follows order keys := by
  have hwhole : order.Pairwise (Before order) := by
    refine List.pairwise_iff_getElem.2 fun i j hi hj hij => ?_
    unfold Before
    rwa [hnodup.idxOf_getElem, hnodup.idxOf_getElem]
  exact (hwhole.sublist hsub).sublist List.filter_sublist

end KeyedRows
