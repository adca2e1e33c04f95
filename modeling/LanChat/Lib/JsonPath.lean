import LanChat.Lib.Json

/-!
# Paths into JSON values

A path leads to a part of a value, through the members of objects and the places of arrays.

* `At`: a value is where a path leads to;
* `at_key`, `at_index`: the first step of a path.
-/

namespace Json

/-- A step into a value. -/
inductive Step
  | key (name : String)
  | index (i : ℕ)
  deriving DecidableEq, Repr

/-- A path leads from a value to one of its parts. -/
inductive At : Json → List Step → Json → Prop
  | here {v : Json} : At v [] v
  | member {members : List (String × Json)} {name : String} {v w : Json} {path : List Step} :
      (name, v) ∈ members → At v path w → At (.object members) (.key name :: path) w
  | element {values : List Json} {i : ℕ} {v w : Json} {path : List Step} :
      values[i]? = some v → At v path w → At (.array values) (.index i :: path) w

variable {v w : Json} {path : List Step}

theorem at_nil : At v [] w ↔ w = v := by
  constructor
  · intro h
    cases h
    rfl
  · rintro rfl
    exact .here

theorem at_key {name : String} : At v (.key name :: path) w ↔
    ∃ members, v = .object members ∧ ∃ u, (name, u) ∈ members ∧ At u path w := by
  constructor
  · intro h
    cases h with
    | member hmem hat => exact ⟨_, rfl, _, hmem, hat⟩
  · rintro ⟨members, rfl, u, hmem, hat⟩
    exact .member hmem hat

theorem at_index {i : ℕ} : At v (.index i :: path) w ↔
    ∃ values, v = .array values ∧ ∃ u, values[i]? = some u ∧ At u path w := by
  constructor
  · intro h
    cases h with
    | element hget hat => exact ⟨_, rfl, _, hget, hat⟩
  · rintro ⟨values, rfl, u, hget, hat⟩
    exact .element hget hat

/-- A member of an object that a path leads to is where one more step leads to. -/
theorem At.snoc {members : List (String × Json)} {name : String} {u : Json}
    (h : At v path (.object members)) (hmem : (name, u) ∈ members) :
    At v (path ++ [.key name]) u := by
  generalize hw : Json.object members = w at h
  induction h with
  | here =>
    subst hw
    exact .member hmem .here
  | member hfirst _ ih => exact .member hfirst (ih hw)
  | element hget _ ih => exact .element hget (ih hw)

end Json
