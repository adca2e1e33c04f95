import Mathlib.Algebra.GroupWithZero.Nat
import Mathlib.Data.List.Basic
import Mathlib.Data.List.Pairwise
import Mathlib.Algebra.BigOperators.Group.List.Basic
import Mathlib.Algebra.Order.BigOperators.Group.List
import Mathlib.Algebra.Ring.Int.Defs

/-!
# Relational tables with uniqueness constraints

A table is a list of rows, oldest first, in which no two rows clash; `clash` is the disjunction
of the table's `PRIMARY KEY` and `UNIQUE` constraints.  Because the constraint is a field, a
table that violates it cannot be built: `insert?` refuses a clashing row, `modify` asks for a
proof that the columns of the constraints are left alone.

* `Table.insert?`: `INSERT`, which fails on a clash;
* `Table.modify p f`: `UPDATE … WHERE p`, for an `f` that keeps the key columns;
* `Table.upsert`: `INSERT … ON CONFLICT DO UPDATE`;
* `Table.delete p`: `DELETE … WHERE p`;
* `Table.total p w`: `SELECT SUM(w) … WHERE p`.
-/

universe u

variable {α : Type u}

/-- A table: no two of its rows clash. -/
structure Table (clash : α → α → Bool) where
  rows : List α
  distinct : rows.Pairwise fun a b => clash a b = false ∧ clash b a = false

/-- `f` leaves alone the columns that the constraints speak about. -/
def KeepsKey (clash : α → α → Bool) (f : α → α) : Prop :=
  ∀ a b, clash (f a) b = clash a b ∧ clash b (f a) = clash b a

namespace Table

variable {clash : α → α → Bool}

/-- The table with no row. -/
def empty (clash : α → α → Bool) : Table clash := ⟨[], List.Pairwise.nil⟩

@[simp] theorem rows_empty : (empty clash).rows = [] := rfl

/-- `SELECT … WHERE p`, the oldest row. -/
def find? (t : Table clash) (p : α → Bool) : Option α := t.rows.find? p

theorem mem_of_find? {t : Table clash} {p : α → Bool} {a : α} (h : t.find? p = some a) :
    a ∈ t.rows := List.mem_of_find?_eq_some h

theorem prop_of_find? {t : Table clash} {p : α → Bool} {a : α} (h : t.find? p = some a) :
    p a = true := List.find?_some h

theorem not_of_find?_none {t : Table clash} {p : α → Bool} (h : t.find? p = none) :
    ∀ a ∈ t.rows, p a = false := by
  intro a ha
  simpa using (List.find?_eq_none.1 h) a ha

/-- Rows that clash are the same row. -/
theorem eq_of_clash (t : Table clash) {a b : α} (ha : a ∈ t.rows) (hb : b ∈ t.rows)
    (h : clash a b = true) : a = b := by
  by_contra hne
  have : Std.Symm fun a b => clash a b = false ∧ clash b a = false :=
    ⟨fun _ _ hxy => ⟨hxy.2, hxy.1⟩⟩
  have := (t.distinct.forall ha hb hne).1
  simp [h] at this

/-- A row that satisfies a selection on the key is the one selected. -/
theorem find?_eq_some_of_mem (t : Table clash) {p : α → Bool} {a : α} (ha : a ∈ t.rows)
    (hp : p a = true) (hkey : ∀ b, p b = true → clash b a = true) : t.find? p = some a := by
  cases hf : t.find? p with
  | none =>
    have := not_of_find?_none hf a ha
    simp [hp] at this
  | some b =>
    rw [t.eq_of_clash (mem_of_find? hf) ha (hkey b (prop_of_find? hf))]

/-- `INSERT`: refused when a row clashes with the new one. -/
def insert? (t : Table clash) (r : α) : Option (Table clash) :=
  if h : ∀ a ∈ t.rows, clash a r = false ∧ clash r a = false then
    some ⟨t.rows ++ [r], by
      refine List.pairwise_append.2 ⟨t.distinct, List.pairwise_singleton _ _, ?_⟩
      intro a ha b hb
      rw [List.mem_singleton.1 hb]
      exact h a ha⟩
  else none

theorem rows_of_insert? {t t' : Table clash} {r : α} (h : t.insert? r = some t') :
    t'.rows = t.rows ++ [r] := by
  unfold insert? at h
  split_ifs at h
  cases h
  rfl

theorem not_clash_of_insert? {t t' : Table clash} {r : α} (h : t.insert? r = some t') :
    ∀ a ∈ t.rows, clash a r = false ∧ clash r a = false := by
  unfold insert? at h
  split_ifs at h with hc
  exact hc

theorem mem_insert? {t t' : Table clash} {r a : α} (h : t.insert? r = some t') :
    a ∈ t'.rows ↔ a ∈ t.rows ∨ a = r := by
  rw [rows_of_insert? h]
  simp

theorem insert?_eq_none {t : Table clash} {r : α} (h : t.insert? r = none) :
    ∃ a ∈ t.rows, clash a r = true ∨ clash r a = true := by
  unfold insert? at h
  split_ifs at h with hc
  push Not at hc
  obtain ⟨a, ha, hcl⟩ := hc
  refine ⟨a, ha, ?_⟩
  cases h1 : clash a r with
  | true => exact Or.inl rfl
  | false => exact Or.inr (by simpa using hcl h1)

theorem insert?_isSome {t : Table clash} {r : α}
    (h : ∀ a ∈ t.rows, clash a r = false ∧ clash r a = false) :
    ∃ t', t.insert? r = some t' := by
  unfold insert?
  rw [dif_pos h]
  exact ⟨_, rfl⟩

/-- `UPDATE … WHERE p`. -/
def modify (t : Table clash) (p : α → Bool) (f : α → α) (hf : KeepsKey clash f) : Table clash :=
  ⟨t.rows.map fun a => if p a then f a else a, by
    rw [List.pairwise_map]
    refine t.distinct.imp ?_
    intro a b hab
    split_ifs
    · rw [(hf a _).1, (hf b _).2, (hf b _).1, (hf a _).2]
      exact hab
    · rw [(hf a _).1, (hf a _).2]
      exact hab
    · rw [(hf b _).1, (hf b _).2]
      exact hab
    · exact hab⟩

@[simp] theorem rows_modify (t : Table clash) (p : α → Bool) (f : α → α)
    (hf : KeepsKey clash f) :
    (t.modify p f hf).rows = t.rows.map fun a => if p a then f a else a := rfl

theorem mem_modify {t : Table clash} {p : α → Bool} {f : α → α} {hf : KeepsKey clash f} {a : α} :
    a ∈ (t.modify p f hf).rows ↔
      (a ∈ t.rows ∧ p a = false) ∨ ∃ b ∈ t.rows, p b = true ∧ a = f b := by
  rw [rows_modify, List.mem_map]
  constructor
  · rintro ⟨b, hb, rfl⟩
    by_cases hp : p b = true
    · exact Or.inr ⟨b, hb, hp, by rw [if_pos hp]⟩
    · rw [if_neg hp]
      exact Or.inl ⟨hb, by simpa using hp⟩
  · rintro (⟨ha, hp⟩ | ⟨b, hb, hp, rfl⟩)
    · exact ⟨a, ha, by rw [hp]; rfl⟩
    · exact ⟨b, hb, by rw [if_pos hp]⟩

/-- `INSERT r ON CONFLICT DO UPDATE f`. -/
def upsert (t : Table clash) (r : α) (f : α → α) (hf : KeepsKey clash f) : Table clash :=
  match t.insert? r with
  | some t' => t'
  | none => t.modify (fun a => clash a r || clash r a) f hf

/-- `DELETE … WHERE p`. -/
def delete (t : Table clash) (p : α → Bool) : Table clash :=
  ⟨t.rows.filter fun a => !p a, t.distinct.sublist List.filter_sublist⟩

@[simp] theorem rows_delete (t : Table clash) (p : α → Bool) :
    (t.delete p).rows = t.rows.filter fun a => !p a := rfl

/-! ### Selection by key -/

section Lookup

variable {κ : Type*} [DecidableEq κ] (key : α → κ)

/-- `SELECT … WHERE key = k`. -/
def lookup (t : Table clash) (k : κ) : Option α := t.find? fun a => decide (key a = k)

/-- The constraint of a table whose only key is `key`. -/
def keyClash (key : α → κ) (a b : α) : Bool := decide (key a = key b)

theorem keyClash_of_eq (key : α → κ) {a b : α} (h : key a = key b) :
    keyClash key a b = true := decide_eq_true h

theorem keepsKey_keyClash {key : α → κ} {f : α → α} (hf : ∀ a, key (f a) = key a) :
    KeepsKey (keyClash key) f := by
  intro a b
  simp [keyClash, hf a]

variable {key}

theorem key_of_lookup {t : Table clash} {k : κ} {a : α} (h : t.lookup key k = some a) :
    key a = k := by simpa using prop_of_find? h

theorem mem_of_lookup {t : Table clash} {k : κ} {a : α} (h : t.lookup key k = some a) :
    a ∈ t.rows := mem_of_find? h

theorem lookup_eq_none {t : Table clash} {k : κ} (h : t.lookup key k = none) :
    ∀ a ∈ t.rows, key a ≠ k := by
  intro a ha
  simpa using not_of_find?_none h a ha

variable (hkey : ∀ a b, key a = key b → clash a b = true)
include hkey

theorem lookup_of_mem (t : Table clash) {a : α} (ha : a ∈ t.rows) :
    t.lookup key (key a) = some a :=
  t.find?_eq_some_of_mem ha (by simp) fun b hb => hkey b a (by simpa using hb)

theorem lookup_eq_some {t : Table clash} {k : κ} {a : α} :
    t.lookup key k = some a ↔ a ∈ t.rows ∧ key a = k := by
  constructor
  · intro h
    exact ⟨mem_of_lookup h, key_of_lookup h⟩
  · rintro ⟨ha, rfl⟩
    exact lookup_of_mem hkey t ha

theorem lookup_insert? {t t' : Table clash} {r : α} (h : t.insert? r = some t') (k : κ) :
    t'.lookup key k = if key r = k then some r else t.lookup key k := by
  split_ifs with hk
  · subst hk
    exact lookup_of_mem hkey t' ((mem_insert? h).2 (Or.inr rfl))
  · unfold lookup find?
    rw [rows_of_insert? h, List.find?_append]
    cases hf : List.find? (fun a => decide (key a = k)) t.rows with
    | some a => rfl
    | none => simp [hk]

omit hkey in
theorem lookup_modify (t : Table clash) (p : α → Bool) {f : α → α} (hf : KeepsKey clash f)
    (hfk : ∀ a, key (f a) = key a) (k : κ) :
    (t.modify p f hf).lookup key k = (t.lookup key k).map fun a => if p a then f a else a := by
  unfold lookup find?
  rw [rows_modify, List.find?_map]
  congr 2
  funext a
  simp only [Function.comp_apply]
  split_ifs <;> simp [hfk]

theorem lookup_upsert (t : Table clash) {r : α} {f : α → α} (hf : KeepsKey clash f)
    (hfk : ∀ a, key (f a) = key a) (hclash : ∀ a b, clash a b = true → key a = key b) (k : κ) :
    (t.upsert r f hf).lookup key k =
      if key r = k then some ((t.lookup key k).elim r f) else t.lookup key k := by
  unfold upsert
  cases h : t.insert? r with
  | some t' =>
    rw [lookup_insert? hkey h]
    split_ifs with hk
    · have hnone : t.lookup key k = none := by
        cases hl : t.lookup key k with
        | none => rfl
        | some a =>
          have hfree := (Table.mem_insert? h (a := a)).2 (Or.inl (mem_of_lookup hl))
          have hra := t'.eq_of_clash ((Table.mem_insert? h).2 (Or.inr rfl)) hfree
            (hkey r a (hk.trans (key_of_lookup hl).symm))
          subst hra
          unfold insert? at h
          split_ifs at h with hc
          have := (hc r (mem_of_lookup hl)).1
          simp [hkey r r rfl] at this
      rw [hnone]
      rfl
    · rfl
  | none =>
    obtain ⟨c, hc, hcl⟩ := insert?_eq_none h
    have hck : key c = key r := by
      rcases hcl with hcl | hcl
      · exact hclash c r hcl
      · exact (hclash r c hcl).symm
    rw [lookup_modify t _ hf hfk]
    split_ifs with hk
    · subst hk
      rw [← hck, lookup_of_mem hkey t hc]
      simp [hkey c r hck]
    · cases hl : t.lookup key k with
      | none => rfl
      | some a =>
        have hne : key a ≠ key r := by
          rw [key_of_lookup hl]
          exact fun e => hk e.symm
        have h1 : clash a r = false := by
          by_contra hcon
          exact hne (hclash a r (by simpa using hcon))
        have h2 : clash r a = false := by
          by_contra hcon
          exact hne (hclash r a (by simpa using hcon)).symm
        simp [h1, h2]

end Lookup

/-! ### Sums over the rows -/

/-- `SELECT SUM(w) … WHERE p`, zero when no row is selected. -/
def total (t : Table clash) (p : α → Bool) (w : α → ℤ) : ℤ := ((t.rows.filter p).map w).sum

@[simp] theorem total_empty (p : α → Bool) (w : α → ℤ) : (empty clash).total p w = 0 := rfl

theorem total_nonneg {t : Table clash} {p : α → Bool} {w : α → ℤ}
    (h : ∀ a ∈ t.rows, p a = true → 0 ≤ w a) : 0 ≤ t.total p w := by
  refine List.sum_nonneg ?_
  intro x hx
  obtain ⟨a, ha, rfl⟩ := List.mem_map.1 hx
  exact h a (List.mem_of_mem_filter ha) (List.of_mem_filter ha)

/-- A new row adds its own value, if it is selected. -/
theorem total_insert? {t t' : Table clash} {r : α} (h : t.insert? r = some t') (p : α → Bool)
    (w : α → ℤ) : t'.total p w = t.total p w + if p r then w r else 0 := by
  unfold total
  rw [rows_of_insert? h, List.filter_append, List.map_append, List.sum_append]
  cases hp : p r <;> simp [hp]

/-- A row splits its table, and clashes with no row on either side. -/
theorem exists_split (t : Table clash) {a : α} (ha : a ∈ t.rows) :
    ∃ l₁ l₂, t.rows = l₁ ++ a :: l₂ ∧ ∀ b, b ∈ l₁ ∨ b ∈ l₂ → clash b a = false := by
  obtain ⟨l₁, l₂, hl⟩ := List.append_of_mem ha
  have hd := t.distinct
  rw [hl, List.pairwise_append, List.pairwise_cons] at hd
  obtain ⟨-, ⟨hright, -⟩, hleft⟩ := hd
  refine ⟨l₁, l₂, hl, ?_⟩
  rintro b (hb | hb)
  · exact (hleft b hb a List.mem_cons_self).1
  · exact (hright b hb).2

section OneRow

variable {t : Table clash} {a : α} {q : α → Bool} (ha : a ∈ t.rows) (hqa : q a = true)
  (hq : ∀ b, q b = true → clash b a = true) (p : α → Bool) (w : α → ℤ)
include ha hqa hq

/-- Deleting one row takes its value out of the sum. -/
theorem total_delete :
    (t.delete q).total p w = t.total p w - if p a then w a else 0 := by
  obtain ⟨l₁, l₂, hl, hout⟩ := t.exists_split ha
  have hkeep : ∀ l : List α, (∀ b ∈ l, clash b a = false) → l.filter (fun b => !q b) = l := by
    intro l hlb
    refine List.filter_eq_self.2 ?_
    intro b hb
    cases hqb : q b with
    | false => rfl
    | true =>
      have := hq b hqb
      simp [hlb b hb] at this
  unfold total
  rw [rows_delete, hl, List.filter_append, List.filter_cons_of_neg (by simp [hqa]),
    hkeep l₁ fun b hb => hout b (Or.inl hb), hkeep l₂ fun b hb => hout b (Or.inr hb)]
  cases hp : p a <;> simp [hp]
  omega

/-- Rewriting one row exchanges its value in the sum. -/
theorem total_modify {f : α → α} (hf : KeepsKey clash f) :
    (t.modify q f hf).total p w =
      t.total p w - (if p a then w a else 0) + if p (f a) then w (f a) else 0 := by
  obtain ⟨l₁, l₂, hl, hout⟩ := t.exists_split ha
  have hkeep : ∀ l : List α, (∀ b ∈ l, clash b a = false) →
      (l.map fun b => if q b then f b else b) = l := by
    intro l hlb
    refine (List.map_congr_left ?_).trans (List.map_id l)
    intro b hb
    cases hqb : q b with
    | false => rfl
    | true =>
      have := hq b hqb
      simp [hlb b hb] at this
  unfold total
  rw [rows_modify, hl, List.map_append, List.map_cons, if_pos hqa,
    hkeep l₁ fun b hb => hout b (Or.inl hb), hkeep l₂ fun b hb => hout b (Or.inr hb)]
  cases hp : p a <;> cases hp' : p (f a) <;> simp [hp, hp'] <;> omega

end OneRow

end Table
