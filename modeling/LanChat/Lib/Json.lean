import LanChat.Lib.GoJson
import Mathlib.Data.Int.Notation

/-!
# JSON values

A value as a parser hands it over: numbers that are integers apart from the others, and objects
whose member names are distinct.  `render` is the text that `encoding/json` writes for a value;
`get?` is the access by name, which finds nothing in a value that is no object.
-/

/-- A JSON value. -/
inductive Json
  | null
  | bool (b : Bool)
  | int (n : ℤ)
  | float (digits : String)
  | text (s : String)
  | array (values : List Json)
  | object (members : List (String × Json))

namespace Json

mutual

/-- The text of a value. -/
def render : Json → String
  | .null => "null"
  | .bool b => if b then "true" else "false"
  | .int n => toString n
  | .float digits => digits
  | .text s => GoJson.quote s
  | .array values => GoJson.array (renderValues values)
  | .object members => GoJson.object (renderMembers members)

/-- The texts of the values of an array. -/
def renderValues : List Json → List String
  | [] => []
  | v :: values => v.render :: renderValues values

/-- The texts of the members of an object. -/
def renderMembers : List (String × Json) → List String
  | [] => []
  | m :: members => renderMember m :: renderMembers members

/-- The text of a member. -/
def renderMember : String × Json → String
  | (name, value) => GoJson.member name value.render

end

theorem renderMembers_append (l l' : List (String × Json)) :
    renderMembers (l ++ l') = renderMembers l ++ renderMembers l' := by
  induction l with
  | nil => rfl
  | cons m l ih => simp [renderMembers, ih]

theorem renderValues_map {α : Type*} (f : α → Json) (l : List α) :
    renderValues (l.map f) = l.map fun a => (f a).render := by
  induction l with
  | nil => rfl
  | cons a l ih => simp [renderValues, ih]

/-! ### Access -/

/-- The member of an object under a name. -/
def get? (v : Json) (name : String) : Option Json :=
  match v with
  | .object members => (members.find? fun m => m.1 == name).map Prod.snd
  | _ => none

theorem get?_none {members : List (String × Json)} {name : String}
    (h : name ∉ members.map Prod.fst) : (Json.object members).get? name = none := by
  unfold get?
  dsimp only
  rw [Option.map_eq_none_iff, List.find?_eq_none]
  intro m hm he
  refine h (List.mem_map.2 ⟨m, hm, ?_⟩)
  simpa using he

theorem get?_cons (m : String × Json) (members : List (String × Json)) (name : String) :
    (Json.object (m :: members)).get? name =
      if m.1 = name then some m.2 else (Json.object members).get? name := by
  unfold get?
  dsimp only
  by_cases h : m.1 = name
  · rw [List.find?_cons_of_pos (by simp [h]), if_pos h]
    rfl
  · rw [List.find?_cons_of_neg (by simp [h]), if_neg h]

theorem get?_append (l l' : List (String × Json)) (name : String) :
    (Json.object (l ++ l')).get? name =
      ((Json.object l).get? name).or ((Json.object l').get? name) := by
  unfold get?
  dsimp only
  rw [List.find?_append]
  cases l.find? fun m => m.1 == name <;> rfl

/-! ### `omitempty` -/

/-- A string member that is left out when it is empty. -/
def optText (name s : String) : List (String × Json) := if s = "" then [] else [(name, .text s)]

/-- A boolean member that is left out when it is false. -/
def optBool (name : String) (b : Bool) : List (String × Json) :=
  if b then [(name, .bool true)] else []

/-- A number member that is left out when it is zero. -/
def optInt (name : String) (n : ℤ) : List (String × Json) := if n = 0 then [] else [(name, .int n)]

/-- An array member that is left out when it is empty. -/
def optArray (name : String) (values : List Json) : List (String × Json) :=
  if values.isEmpty then [] else [(name, .array values)]

theorem renderMembers_optText (name s : String) :
    renderMembers (optText name s) = GoJson.optText GoJson.quote name s := by
  unfold optText GoJson.optText
  split_ifs <;> simp [renderMembers, renderMember, render]

theorem renderMembers_optBool (name : String) (b : Bool) :
    renderMembers (optBool name b) = GoJson.optBool name b := by
  unfold optBool GoJson.optBool
  split_ifs <;> simp [renderMembers, renderMember, render]

theorem renderMembers_optInt (name : String) (n : ℤ) :
    renderMembers (optInt name n) = GoJson.optInt name n := by
  unfold optInt GoJson.optInt
  split_ifs <;> simp [renderMembers, renderMember, render]

theorem renderMembers_optArray {α : Type*} (name : String) (f : α → Json) (l : List α) :
    renderMembers (optArray name (l.map f)) =
      GoJson.optArray name (l.map fun a => (f a).render) := by
  unfold optArray GoJson.optArray
  cases l with
  | nil => rfl
  | cons a l => simp [renderMembers, renderMember, render, renderValues, renderValues_map]

theorem get?_optText (name s key : String) :
    (Json.object (optText name s)).get? key =
      if name = key ∧ s ≠ "" then some (.text s) else none := by
  unfold optText
  split_ifs with h1 h2 h2
  · exact absurd h1 h2.2
  · rfl
  · rw [get?_cons, if_pos h2.1]
  · rw [get?_cons, if_neg fun e => h2 ⟨e, h1⟩]
    rfl

/-! ### Objects with optional members -/

/-- The members that are there. -/
def members (fields : List (String × Option Json)) : List (String × Json) :=
  fields.filterMap fun f => f.2.map (f.1, ·)

/-- The object of the members that are there. -/
def ofFields (fields : List (String × Option Json)) : Json := .object (members fields)

/-- A string that is left out when it is empty. -/
def textField (s : String) : Option Json := if s = "" then none else some (.text s)

/-- A boolean that is left out when it is false. -/
def boolField (b : Bool) : Option Json := if b then some (.bool true) else none

/-- A number that is left out when it is zero. -/
def intField (n : ℤ) : Option Json := if n = 0 then none else some (.int n)

/-- An array that is left out when it is empty. -/
def arrayField (values : List Json) : Option Json :=
  if values.isEmpty then none else some (.array values)

/-- A raw value that is left out when its text is empty; `read` gives the value of a text. -/
def rawField (read : String → Json) (raw : String) : Option Json :=
  if raw = "" then none else some (read raw)

theorem name_of_mem_members {fields : List (String × Option Json)} {name : String}
    (h : name ∈ (members fields).map Prod.fst) : name ∈ fields.map Prod.fst := by
  obtain ⟨m, hm, rfl⟩ := List.mem_map.1 h
  obtain ⟨f, hf, hfm⟩ := List.mem_filterMap.1 hm
  obtain ⟨x, -, rfl⟩ := Option.map_eq_some_iff.1 hfm
  exact List.mem_map.2 ⟨f, hf, rfl⟩

/-- Every field is found under its name. -/
theorem get?_ofFields {fields : List (String × Option Json)}
    (hnodup : (fields.map Prod.fst).Nodup) {name : String} {v : Option Json}
    (h : (name, v) ∈ fields) : (ofFields fields).get? name = v := by
  induction fields with
  | nil => cases h
  | cons f fields ih =>
    obtain ⟨n, w⟩ := f
    rw [List.map_cons, List.nodup_cons] at hnodup
    rcases List.mem_cons.1 h with heq | hmem
    · cases heq
      cases v with
      | none => exact get?_none fun hn => hnodup.1 (name_of_mem_members hn)
      | some x => exact (get?_cons _ _ _).trans (if_pos rfl)
    · have hne : n ≠ name := by
        rintro rfl
        exact hnodup.1 (List.mem_map.2 ⟨_, hmem, rfl⟩)
      cases w with
      | none => exact ih hnodup.2 hmem
      | some x => exact ((get?_cons _ _ _).trans (if_neg hne)).trans (ih hnodup.2 hmem)

section Members

variable (name : String) (fields : List (String × Option Json))

@[simp] theorem members_nil : members [] = [] := rfl

@[simp] theorem members_some (v : Json) :
    members ((name, some v) :: fields) = (name, v) :: members fields := rfl

@[simp] theorem members_none : members ((name, none) :: fields) = members fields := rfl

@[simp] theorem members_text (s : String) :
    members ((name, textField s) :: fields) = optText name s ++ members fields := by
  unfold textField optText
  split_ifs <;> rfl

@[simp] theorem members_bool (b : Bool) :
    members ((name, boolField b) :: fields) = optBool name b ++ members fields := by
  unfold boolField optBool
  split_ifs <;> rfl

@[simp] theorem members_int (n : ℤ) :
    members ((name, intField n) :: fields) = optInt name n ++ members fields := by
  unfold intField optInt
  split_ifs <;> rfl

@[simp] theorem members_array (values : List Json) :
    members ((name, arrayField values) :: fields) = optArray name values ++ members fields := by
  unfold arrayField optArray
  split_ifs <;> rfl

end Members

end Json
