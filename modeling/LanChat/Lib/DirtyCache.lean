import Mathlib.Data.List.AList

/-!
# A cache that is told what has changed

Values are computed from objects and kept.  An object that is connected tells the cache when it
changes; the cache marks it, and computes the values of the marked objects again when it is asked.

* `Cache`, with `connect`, `notify`, `forget` and `refresh`;
* `Good`: every connected object that is not marked has its value in the cache;
* `good_connect`, `good_notify`, `good_forget`, `good_refresh`: the operations keep this;
* `lookup_refresh`: after a refresh the cache has the values that the objects have.
-/

namespace DirtyCache

variable {ι α : Type*} [DecidableEq ι]

/-- The objects that tell when they change, the ones that are marked, and the values. -/
structure Cache (ι : Type*) (α : Type*) where
  connected : List ι := []
  dirty : List ι := []
  cached : AList fun _ : ι => α := ∅

namespace Cache

/-- An object is connected once; its value is not known yet. -/
def connect (c : Cache ι α) (i : ι) : Cache ι α :=
  if i ∈ c.connected then c
  else { c with connected := i :: c.connected, dirty := c.dirty.insert i }

/-- An object tells that it has changed. -/
def notify (c : Cache ι α) (i : ι) : Cache ι α :=
  if i ∈ c.connected then { c with dirty := c.dirty.insert i } else c

/-- An object is gone. -/
def forget (c : Cache ι α) (i : ι) : Cache ι α :=
  if i ∈ c.connected then
    { connected := c.connected.filter (· ≠ i)
      dirty := c.dirty.filter (· ≠ i)
      cached := c.cached.erase i }
  else c

/-- The values of the marked objects are computed. -/
def refresh (c : Cache ι α) (f : ι → α) : Cache ι α :=
  { c with
    dirty := []
    cached := c.dirty.foldl (fun cached i => cached.insert i (f i)) c.cached }

/-- Only connected objects are marked, and the others of these have their values in the cache. -/
structure Good (c : Cache ι α) (f : ι → α) : Prop where
  dirty : ∀ i ∈ c.dirty, i ∈ c.connected
  current : ∀ i ∈ c.connected, i ∉ c.dirty → c.cached.lookup i = some (f i)

variable {c : Cache ι α} {f f' : ι → α} {i : ι}

omit [DecidableEq ι] in
theorem good_empty (f : ι → α) [DecidableEq ι] : ({} : Cache ι α).Good f :=
  ⟨fun _ h => absurd h List.not_mem_nil, fun _ h => absurd h List.not_mem_nil⟩

theorem mem_connect (c : Cache ι α) (i j : ι) :
    j ∈ (c.connect i).connected ↔ j = i ∨ j ∈ c.connected := by
  unfold connect
  split_ifs with hi
  · exact ⟨.inr, fun h => h.elim (fun h => h ▸ hi) id⟩
  · exact List.mem_cons

theorem mem_notify (c : Cache ι α) (i : ι) : (c.notify i).connected = c.connected := by
  unfold notify
  split_ifs <;> rfl

theorem mem_forget (c : Cache ι α) (i j : ι) :
    j ∈ (c.forget i).connected ↔ j ≠ i ∧ j ∈ c.connected := by
  unfold forget
  split_ifs with hi
  · simp [and_comm]
  · exact ⟨fun h => ⟨fun hj => hi (hj ▸ h), h⟩, And.right⟩

theorem good_connect (h : c.Good f) (i : ι) : (c.connect i).Good f := by
  unfold connect
  split_ifs with hi
  · exact h
  · refine ⟨fun j hj => ?_, fun j hj hclean => ?_⟩
    · rcases List.mem_insert_iff.1 hj with rfl | hj
      · exact List.mem_cons_self
      · exact List.mem_cons_of_mem i (h.dirty j hj)
    · have hne : j ≠ i := fun hj => hclean (List.mem_insert_iff.2 (.inl hj))
      exact h.current j ((List.mem_cons.1 hj).resolve_left hne) fun hj =>
        hclean (List.mem_insert_iff.2 (.inr hj))

/-- The other objects keep their values while one object changes and tells. -/
theorem good_notify (h : c.Good f) (hsame : ∀ j, j ≠ i → f' j = f j) : (c.notify i).Good f' := by
  unfold notify
  split_ifs with hi
  · refine ⟨fun j hj => ?_, fun j hj hclean => ?_⟩
    · exact (List.mem_insert_iff.1 hj).elim (fun hj => hj ▸ hi) (h.dirty j)
    · rw [List.mem_insert_iff, not_or] at hclean
      rw [hsame j hclean.1]
      exact h.current j hj hclean.2
  · refine ⟨h.dirty, fun j hj hclean => ?_⟩
    rw [hsame j fun hji => hi (hji ▸ hj)]
    exact h.current j hj hclean

/-- Only the objects matter that are connected and not marked. -/
theorem good_congr (h : c.Good f) (hsame : ∀ j ∈ c.connected, j ∉ c.dirty → f' j = f j) :
    c.Good f' :=
  ⟨h.dirty, fun j hj hclean =>
    (h.current j hj hclean).trans (congrArg some (hsame j hj hclean).symm)⟩

theorem good_forget (h : c.Good f) (i : ι) : (c.forget i).Good f := by
  unfold forget
  split_ifs with hi
  · refine ⟨fun j hj => ?_, fun j hj hclean => ?_⟩
    · rw [List.mem_filter] at hj ⊢
      exact ⟨h.dirty j hj.1, hj.2⟩
    · obtain ⟨hj, hne⟩ := List.mem_filter.1 hj
      dsimp only
      rw [AList.lookup_erase_ne (of_decide_eq_true hne)]
      exact h.current j hj fun hdirty => hclean (List.mem_filter.2 ⟨hdirty, hne⟩)
  · exact h

theorem lookup_foldl_insert (f : ι → α) (keys : List ι) (cached : AList fun _ : ι => α) (i : ι) :
    (keys.foldl (fun cached j => cached.insert j (f j)) cached).lookup i =
      if i ∈ keys then some (f i) else cached.lookup i := by
  induction keys generalizing cached with
  | nil => rfl
  | cons j rest ih =>
    rw [List.foldl_cons, ih]
    by_cases hi : i = j
    · subst hi
      simp
    · simp [hi, AList.lookup_insert_ne hi]

/-- After a refresh the cache has the values of all connected objects. -/
theorem lookup_refresh (h : c.Good f) (hi : i ∈ c.connected) :
    (c.refresh f).cached.lookup i = some (f i) := by
  unfold refresh
  dsimp only
  rw [lookup_foldl_insert]
  split_ifs with hdirty
  · rfl
  · exact h.current i hi hdirty

theorem good_refresh (h : c.Good f) : (c.refresh f).Good f :=
  ⟨fun _ hi => absurd hi List.not_mem_nil, fun _ hi _ => lookup_refresh h hi⟩

end Cache

end DirtyCache
