import Mathlib.Data.List.Range
import Mathlib.Logic.Relation

/-!
# Regular expressions with backtracking

Expressions over any alphabet, with greedy repetition, look-ahead and assertions about the two
sides of a position.  A matcher tries its choices in order, and its answers are listed in this
order; the first one is what a backtracking engine reports.

* `Matches`: what an expression matches, as a relation between positions of a text;
* `ends`: the positions where a match from a given one ends, in the order of the choices;
* `mem_ends`: the matcher finds exactly these matches;
* `exec`: the search for the first of several expressions from a position on;
* `Found.spec`: what it finds is the leftmost match.
-/

/-- A regular expression; `star` is greedy and has no empty rounds. -/
inductive Regex (α : Type*)
  | empty
  | char (p : α → Bool)
  | seq (r s : Regex α)
  | alt (r s : Regex α)
  | star (r : Regex α)
  | look (r : Regex α)
  | assert (p : Option α → Option α → Bool)

namespace Regex

variable {α : Type*}

/-- One or more. -/
def plus (r : Regex α) : Regex α := .seq r (.star r)

/-- One or none. -/
def opt (r : Regex α) : Regex α := .alt r .empty

/-- The character before a position. -/
def before (text : List α) (i : ℕ) : Option α := if i = 0 then none else text[i - 1]?

/-! ### Matches -/

/-- An expression matches a text from a position to another one. -/
def Matches (text : List α) : Regex α → ℕ → ℕ → Prop
  | .empty, i, j => j = i
  | .char p, i, j => (∃ a, text[i]? = some a ∧ p a = true) ∧ j = i + 1
  | .seq r s, i, j => ∃ k, Matches text r i k ∧ Matches text s k j
  | .alt r s, i, j => Matches text r i j ∨ Matches text s i j
  | .star r, i, j => Relation.ReflTransGen (fun i j => i < j ∧ Matches text r i j) i j
  | .look r, i, j => (∃ k, Matches text r i k) ∧ j = i
  | .assert p, i, j => p (before text i) text[i]? = true ∧ j = i

/-- The length of the shortest match. -/
def least : Regex α → ℕ
  | .empty => 0
  | .char _ => 1
  | .seq r s => r.least + s.least
  | .alt r s => min r.least s.least
  | .star _ => 0
  | .look _ => 0
  | .assert _ => 0

variable {text : List α} {r s : Regex α} {i j : ℕ}

theorem Matches.least_le (h : Matches text r i j) : i + r.least ≤ j := by
  induction r generalizing i j with
  | empty => exact le_of_eq h.symm
  | char p => exact le_of_eq h.2.symm
  | seq r s ihr ihs =>
    obtain ⟨k, hr, hs⟩ := h
    have h1 := ihr hr
    have h2 := ihs hs
    show i + (r.least + s.least) ≤ j
    omega
  | alt r s ihr ihs =>
    show i + min r.least s.least ≤ j
    rcases h with hr | hs
    · have h1 := ihr hr
      omega
    · have h2 := ihs hs
      omega
  | star r ih =>
    show i ≤ j
    induction h with
    | refl => exact le_refl i
    | tail _ hstep hle => exact hle.trans hstep.1.le
  | look r ih => exact le_of_eq h.2.symm
  | assert p => exact le_of_eq h.2.symm

theorem Matches.le (h : Matches text r i j) : i ≤ j :=
  (Nat.le_add_right i r.least).trans h.least_le

/-- A match stays within the text. -/
theorem Matches.le_length (h : Matches text r i j) (hi : i ≤ text.length) : j ≤ text.length := by
  induction r generalizing i j with
  | empty => exact (show j = i from h) ▸ hi
  | char p =>
    obtain ⟨⟨a, hget, -⟩, rfl⟩ := h
    exact (List.getElem?_eq_some_iff.1 hget).1
  | seq r s ihr ihs =>
    obtain ⟨k, hr, hs⟩ := h
    exact ihs hs (ihr hr hi)
  | alt r s ihr ihs =>
    rcases h with hr | hs
    · exact ihr hr hi
    · exact ihs hs hi
  | star r ih =>
    induction h with
    | refl => exact hi
    | tail _ hstep hle => exact ih hstep.2 hle
  | look r ih => exact h.2 ▸ hi
  | assert p => exact h.2 ▸ hi

/-- Nothing but the empty text is matched from the end on. -/
theorem Matches.eq_of_length_le (h : Matches text r i j) (hi : text.length ≤ i) : j = i := by
  induction r generalizing i j with
  | empty => exact h
  | char p =>
    obtain ⟨⟨a, hget, -⟩, -⟩ := h
    rw [List.getElem?_eq_none hi] at hget
    cases hget
  | seq r s ihr ihs =>
    obtain ⟨k, hr, hs⟩ := h
    obtain rfl := ihr hr hi
    exact ihs hs hi
  | alt r s ihr ihs =>
    rcases h with hr | hs
    · exact ihr hr hi
    · exact ihs hs hi
  | star r ih =>
    induction h with
    | refl => rfl
    | tail _ hstep heq =>
      subst heq
      exact ih hstep.2 hi
  | look r ih => exact h.2
  | assert p => exact h.2

/-! ### The matcher -/

/-- Rounds of a repetition, as many as there are; the longest ones come first. -/
def starEnds (f : ℕ → List ℕ) : ℕ → ℕ → List ℕ
  | 0, i => [i]
  | rounds + 1, i => ((f i).filter (i < ·)).flatMap (starEnds f rounds) ++ [i]

/-- The ends of the matches from a position, in the order in which they are tried. -/
def ends (text : List α) : Regex α → ℕ → List ℕ
  | .empty, i => [i]
  | .char p, i => if (text[i]?).any p then [i + 1] else []
  | .seq r s, i => (ends text r i).flatMap (ends text s)
  | .alt r s, i => ends text r i ++ ends text s i
  | .star r, i => starEnds (ends text r) (text.length - i) i
  | .look r, i => if (ends text r i).isEmpty then [] else [i]
  | .assert p, i => if p (before text i) text[i]? then [i] else []

/-- The rounds of a repetition are matches one after the other; there are never more of them than
characters. -/
theorem mem_starEnds {f : ℕ → List ℕ} (hf : ∀ i j, j ∈ f i ↔ Matches text r i j) (rounds : ℕ)
    (hrounds : text.length - i ≤ rounds) :
    j ∈ starEnds f rounds i ↔ Matches text (.star r) i j := by
  induction rounds generalizing i with
  | zero =>
    rw [starEnds, List.mem_singleton]
    exact ⟨fun h => h ▸ .refl, fun h => h.eq_of_length_le (by omega)⟩
  | succ rounds ih =>
    rw [starEnds, List.mem_append, List.mem_flatMap, List.mem_singleton]
    constructor
    · rintro (⟨k, hk, hj⟩ | rfl)
      · obtain ⟨hk, hlt⟩ := List.mem_filter.1 hk
        have hlt := of_decide_eq_true hlt
        exact .head ⟨hlt, (hf i k).1 hk⟩ ((ih (by omega)).1 hj)
      · exact .refl
    · intro h
      rcases Relation.ReflTransGen.cases_head h with rfl | ⟨k, ⟨hlt, hk⟩, hj⟩
      · exact .inr rfl
      · exact .inl ⟨k, List.mem_filter.2 ⟨(hf i k).2 hk, decide_eq_true hlt⟩, (ih (by omega)).2 hj⟩

/-- The matcher finds exactly the matches. -/
theorem mem_ends : j ∈ ends text r i ↔ Matches text r i j := by
  induction r generalizing i j with
  | empty => exact List.mem_singleton
  | char p =>
    rw [ends, Matches]
    cases hget : text[i]? with
    | none => simp
    | some a => cases hp : p a <;> simp [hp]
  | seq r s ihr ihs =>
    rw [ends, Matches, List.mem_flatMap]
    simp only [ihr, ihs]
  | alt r s ihr ihs => rw [ends, Matches, List.mem_append, ihr, ihs]
  | star r ih => exact mem_starEnds (fun _ _ => ih) _ le_rfl
  | look r ih =>
    have hsome : (∃ k, Matches text r i k) ↔ ∃ k, k ∈ ends text r i := by
      simp only [ih]
    rw [ends, Matches, hsome]
    cases ends text r i with
    | nil => simp
    | cons k more => simp
  | assert p =>
    rw [ends, Matches]
    cases p (before text i) text[i]? <;> simp

/-! ### The search -/

/-- What a search finds: where a match starts and ends, and the number of the expression. -/
structure Found where
  index : ℕ
  stop : ℕ
  group : ℕ
  deriving DecidableEq, Repr

/-- The first of several expressions that matches from a position, with the match that is tried
first. -/
def matchAt (text : List α) (rs : List (Regex α)) (i : ℕ) : Option Found :=
  rs.zipIdx.findSome? fun r => (ends text r.1 i).head?.map fun stop => ⟨i, stop, r.2⟩

/-- The search from a position on. -/
def exec (text : List α) (rs : List (Regex α)) (start : ℕ) : Option Found :=
  (List.range' start (text.length + 1 - start)).findSome? (matchAt text rs)

variable {rs : List (Regex α)} {start : ℕ} {m : Found}

theorem matchAt_eq_some (h : matchAt text rs i = some m) :
    m.index = i ∧ ∃ r, rs[m.group]? = some r ∧ Matches text r i m.stop := by
  obtain ⟨⟨r, group⟩, hmem, hfound⟩ := List.exists_of_findSome?_eq_some h
  obtain ⟨stop, hstop, rfl⟩ := Option.map_eq_some_iff.1 hfound
  exact ⟨rfl, r, List.mem_zipIdx_iff_getElem?.1 hmem, mem_ends.1 (List.mem_of_mem_head? hstop)⟩

theorem matchAt_eq_none (h : matchAt text rs i = none) : ∀ r ∈ rs, ¬ Matches text r i j := by
  intro r hr hmatch
  obtain ⟨group, hgroup⟩ := List.mem_iff_getElem?.1 hr
  have hnone := List.findSome?_eq_none_iff.1 h (r, group) (List.mem_zipIdx_iff_getElem?.2 hgroup)
  rw [Option.map_eq_none_iff, List.head?_eq_none_iff] at hnone
  have hmem := mem_ends.2 hmatch
  rw [hnone] at hmem
  cases hmem

/-- The leftmost match from a position on. -/
structure Found.Leftmost (text : List α) (rs : List (Regex α)) (start : ℕ) (m : Found) : Prop where
  start_le : start ≤ m.index
  index_le : m.index ≤ text.length
  found : ∃ r, rs[m.group]? = some r ∧ Matches text r m.index m.stop
  first : ∀ i, start ≤ i → i < m.index → ∀ r ∈ rs, ∀ j, ¬ Matches text r i j

/-- A search finds the leftmost match. -/
theorem Found.spec (h : exec text rs start = some m) : m.Leftmost text rs start := by
  obtain ⟨done, i, rest, hrange, hfound, hnone⟩ := List.findSome?_eq_some_iff.1 h
  obtain ⟨hindex, hmatch⟩ := matchAt_eq_some hfound
  obtain ⟨n, hn, rfl, htail⟩ := List.range'_eq_append_iff.1 hrange
  have hpos : 0 < text.length + 1 - start - n := by
    rw [Nat.pos_iff_ne_zero]
    intro hzero
    rw [hzero] at htail
    cases htail
  obtain ⟨more, hmore⟩ := Nat.exists_eq_add_of_lt hpos
  rw [hmore, Nat.zero_add, List.range'_succ] at htail
  obtain rfl := (List.cons.inj htail).1
  rw [← hindex] at hmatch
  refine ⟨by omega, by omega, hmatch, fun i hi hlt r hr j => ?_⟩
  exact matchAt_eq_none (hnone i (List.mem_range'_1.2 (by omega))) r hr

end Regex
