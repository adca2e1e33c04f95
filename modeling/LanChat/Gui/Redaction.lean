import LanChat.Lib.JsonPath

/-!
# Secrets in the state (`client-cpp/gui/src/bridge_protocol.cpp`)

The bridge pushes its state to the web view without the members that hold secrets.

* `withoutSecrets`: the value without them, at every depth;
* `at_withoutSecrets`: what is left is where it was;
* `Alike`: a value and what is left of it have the same shape;
* `withoutSecrets_exact`: the secrets go, and nothing else;
* `safeState_notMem_secretKeys`: none of them is in the text that the web view gets.
-/

namespace LanChat.Gui.Redaction

open Json (At Step at_nil at_key at_index)

/-- `secretKeys`. -/
def secretKeys : List String := ["password", "privateKey", "privateKeyFile", "keyFile"]

mutual

/-- `withoutSecrets`. -/
def withoutSecrets : Json → Json
  | .null => .null
  | .bool b => .bool b
  | .int n => .int n
  | .float digits => .float digits
  | .text s => .text s
  | .array values => .array (withoutSecretsValues values)
  | .object members => .object (withoutSecretsMembers members)

/-- The loop over an array. -/
def withoutSecretsValues : List Json → List Json
  | [] => []
  | v :: values => withoutSecrets v :: withoutSecretsValues values

/-- The loop over an object; its keys are distinct, so that every insertion adds a member. -/
def withoutSecretsMembers : List (String × Json) → List (String × Json)
  | [] => []
  | m :: members =>
    if m.1 ∈ secretKeys then withoutSecretsMembers members
    else withoutSecretsMember m :: withoutSecretsMembers members

/-- A member that is kept. -/
def withoutSecretsMember : String × Json → String × Json
  | (name, value) => (name, withoutSecrets value)

end

/-- `toObject`. -/
def toObject : Json → List (String × Json)
  | .object members => members
  | _ => []

/-- The object that `serializeState` writes. -/
def safeState (state : Json) : List (String × Json) :=
  let safe := toObject (withoutSecrets state)
  if "schemaVersion" ∈ safe.map Prod.fst then safe else safe ++ [("schemaVersion", .int 1)]

/-- `serializeState`. -/
def serializeState (state : Json) : String := (Json.object (safeState state)).render

/-! ### The loops -/

theorem withoutSecretsValues_eq (values : List Json) :
    withoutSecretsValues values = values.map withoutSecrets := by
  induction values with
  | nil => rfl
  | cons v values ih => rw [withoutSecretsValues, ih, List.map_cons]

theorem withoutSecretsMembers_eq (members : List (String × Json)) :
    withoutSecretsMembers members =
      (members.filter fun m => m.1 ∉ secretKeys).map withoutSecretsMember := by
  induction members with
  | nil => rfl
  | cons m members ih =>
    rw [withoutSecretsMembers, ih]
    split_ifs with hsecret
    · rw [List.filter_cons_of_neg (by simpa using hsecret)]
    · rw [List.filter_cons_of_pos (by simpa using hsecret), List.map_cons]

theorem fst_withoutSecretsMember (m : String × Json) : (withoutSecretsMember m).1 = m.1 := by
  cases m
  rfl

theorem mem_withoutSecretsMembers {members : List (String × Json)} {name : String} {w : Json} :
    (name, w) ∈ withoutSecretsMembers members ↔
      name ∉ secretKeys ∧ ∃ u, (name, u) ∈ members ∧ w = withoutSecrets u := by
  rw [withoutSecretsMembers_eq, List.mem_map]
  constructor
  · rintro ⟨⟨key, u⟩, hmem, heq⟩
    obtain ⟨hmem, hpublic⟩ := List.mem_filter.1 hmem
    obtain ⟨rfl, rfl⟩ := Prod.mk.inj heq
    exact ⟨of_decide_eq_true hpublic, u, hmem, rfl⟩
  · rintro ⟨hpublic, u, hmem, rfl⟩
    exact ⟨(name, u), List.mem_filter.2 ⟨hmem, decide_eq_true hpublic⟩, rfl⟩

theorem withoutSecrets_eq_object {v : Json} {members : List (String × Json)} :
    withoutSecrets v = .object members ↔
      ∃ members', v = .object members' ∧ members = withoutSecretsMembers members' := by
  cases v <;> simp [withoutSecrets, eq_comm]

theorem withoutSecrets_eq_array {v : Json} {values : List Json} :
    withoutSecrets v = .array values ↔
      ∃ values', v = .array values' ∧ values = withoutSecretsValues values' := by
  cases v <;> simp [withoutSecrets, eq_comm]

/-! ### Paths -/

/-- A path through no secret. -/
def Public (path : List Step) : Prop := ∀ name ∈ secretKeys, Step.key name ∉ path

/-- What is left is where it was, on the paths through no secret. -/
theorem at_withoutSecrets {v w : Json} {path : List Step} :
    At (withoutSecrets v) path w ↔ Public path ∧ ∃ u, At v path u ∧ w = withoutSecrets u := by
  induction path generalizing v with
  | nil =>
    have hpublic : Public [] := fun _ _ => List.not_mem_nil
    simp only [at_nil, hpublic, true_and, exists_eq_left]
  | cons step path ih =>
    have hcons : Public (step :: path) ↔ (∀ name ∈ secretKeys, Step.key name ≠ step) ∧
        Public path := by
      unfold Public
      simp only [List.mem_cons, not_or, forall_and]
    rw [hcons]
    cases step with
    | key name =>
      have hstep : (∀ secret ∈ secretKeys, Step.key secret ≠ .key name) ↔ name ∉ secretKeys := by
        constructor
        · intro h hsecret
          exact h name hsecret rfl
        · rintro h secret hsecret heq
          obtain rfl := Step.key.inj heq
          exact h hsecret
      simp only [at_key, withoutSecrets_eq_object, hstep]
      constructor
      · rintro ⟨_, ⟨members, rfl, rfl⟩, _, hkept, hat⟩
        obtain ⟨hname, u, hmem, rfl⟩ := mem_withoutSecretsMembers.1 hkept
        obtain ⟨hpublic, x, hx, rfl⟩ := ih.1 hat
        exact ⟨⟨hname, hpublic⟩, x, ⟨members, rfl, u, hmem, hx⟩, rfl⟩
      · rintro ⟨⟨hname, hpublic⟩, x, ⟨members, rfl, u, hmem, hx⟩, rfl⟩
        exact ⟨_, ⟨members, rfl, rfl⟩, withoutSecrets u,
          mem_withoutSecretsMembers.2 ⟨hname, u, hmem, rfl⟩, ih.2 ⟨hpublic, x, hx, rfl⟩⟩
    | index i =>
      have hstep : ∀ secret ∈ secretKeys, Step.key secret ≠ .index i := nofun
      rw [and_iff_right hstep]
      simp only [at_index, withoutSecrets_eq_array]
      constructor
      · rintro ⟨_, ⟨values, rfl, rfl⟩, y, hget, hat⟩
        rw [withoutSecretsValues_eq, List.getElem?_map, Option.map_eq_some_iff] at hget
        obtain ⟨u, hget, rfl⟩ := hget
        obtain ⟨hpublic, x, hx, rfl⟩ := ih.1 hat
        exact ⟨hpublic, x, ⟨values, rfl, u, hget, hx⟩, rfl⟩
      · rintro ⟨hpublic, x, ⟨values, rfl, u, hget, hx⟩, rfl⟩
        refine ⟨_, ⟨values, rfl, rfl⟩, withoutSecrets u, ?_, ih.2 ⟨hpublic, x, hx, rfl⟩⟩
        rw [withoutSecretsValues_eq, List.getElem?_map, hget]
        rfl

/-! ### What is left -/

/-- A value and what is left of it have the same shape: an array is as long as before, an object
keeps its other members in their order, and anything else is the same. -/
def Alike : Json → Json → Prop
  | .array values, w => ∃ values', w = .array values' ∧ values'.length = values.length
  | .object members, w => ∃ members', w = .object members' ∧
      members'.map Prod.fst = (members.map Prod.fst).filter fun name => name ∉ secretKeys
  | v, w => w = v

theorem alike_withoutSecrets (v : Json) : Alike v (withoutSecrets v) := by
  cases v with
  | array values =>
    refine ⟨_, rfl, ?_⟩
    rw [withoutSecretsValues_eq, List.length_map]
  | object members =>
    refine ⟨_, rfl, ?_⟩
    rw [withoutSecretsMembers_eq, List.map_map, List.filter_map]
    exact List.map_congr_left fun m _ => fst_withoutSecretsMember m
  | _ => rfl

mutual

theorem withoutSecrets_withoutSecrets : ∀ v : Json,
    withoutSecrets (withoutSecrets v) = withoutSecrets v
  | .null => rfl
  | .bool _ => rfl
  | .int _ => rfl
  | .float _ => rfl
  | .text _ => rfl
  | .array values => congrArg Json.array (withoutSecretsValues_twice values)
  | .object members => congrArg Json.object (withoutSecretsMembers_twice members)

theorem withoutSecretsValues_twice : ∀ values : List Json,
    withoutSecretsValues (withoutSecretsValues values) = withoutSecretsValues values
  | [] => rfl
  | v :: values => by
    rw [withoutSecretsValues, withoutSecretsValues, withoutSecrets_withoutSecrets v,
      withoutSecretsValues_twice values]

theorem withoutSecretsMembers_twice : ∀ members : List (String × Json),
    withoutSecretsMembers (withoutSecretsMembers members) = withoutSecretsMembers members
  | [] => rfl
  | (name, value) :: members => by
    rw [withoutSecretsMembers]
    split_ifs with hsecret
    · exact withoutSecretsMembers_twice members
    · rw [withoutSecretsMember, withoutSecretsMembers, if_neg hsecret, withoutSecretsMember,
        withoutSecrets_withoutSecrets value, withoutSecretsMembers_twice members]

end

/-- No object that a path leads to has a secret. -/
theorem notMem_secretKeys {v : Json} {path : List Step} {members : List (String × Json)}
    (hat : At (withoutSecrets v) path (.object members)) : ∀ m ∈ members, m.1 ∉ secretKeys := by
  intro m hm hsecret
  obtain ⟨hpublic, -⟩ := at_withoutSecrets.1 (hat.snoc hm)
  exact hpublic m.1 hsecret (List.mem_append_right _ (List.mem_singleton_self _))

/-- The members that hold secrets go at every depth, and on every path through none of them there is
what was there before, in the same shape; a second time nothing goes. -/
theorem withoutSecrets_exact (v : Json) :
    (∀ path members, At (withoutSecrets v) path (.object members) →
      ∀ m ∈ members, m.1 ∉ secretKeys) ∧
    (∀ path, Public path →
      (∀ u, At v path u → ∃ w, At (withoutSecrets v) path w ∧ Alike u w) ∧
        ∀ w, At (withoutSecrets v) path w → ∃ u, At v path u ∧ Alike u w) ∧
    withoutSecrets (withoutSecrets v) = withoutSecrets v := by
  refine ⟨fun path members hat => notMem_secretKeys hat, fun path hpublic => ⟨?_, ?_⟩,
    withoutSecrets_withoutSecrets v⟩
  · intro u hat
    exact ⟨withoutSecrets u, at_withoutSecrets.2 ⟨hpublic, u, hat, rfl⟩, alike_withoutSecrets u⟩
  · intro w hat
    obtain ⟨-, u, hu, rfl⟩ := at_withoutSecrets.1 hat
    exact ⟨u, hu, alike_withoutSecrets u⟩

/-- A member of the state that is written is one that is left, or the version. -/
theorem mem_safeState {state : Json} {m : String × Json} (hm : m ∈ safeState state) :
    (∃ members, withoutSecrets state = .object members ∧ m ∈ members) ∨
      m = ("schemaVersion", .int 1) := by
  have hleft : m ∈ toObject (withoutSecrets state) →
      ∃ members, withoutSecrets state = .object members ∧ m ∈ members := by
    intro h
    cases hstate : withoutSecrets state with
    | object members =>
      rw [hstate] at h
      exact ⟨members, rfl, h⟩
    | _ =>
      rw [hstate] at h
      cases h
  unfold safeState at hm
  dsimp only at hm
  split_ifs at hm
  · exact .inl (hleft hm)
  · exact (List.mem_append.1 hm).imp hleft List.mem_singleton.1

/-- The state that is written has no secrets, at any depth. -/
theorem safeState_notMem_secretKeys {state : Json} {path : List Step}
    {members : List (String × Json)} (hat : At (.object (safeState state)) path (.object members)) :
    ∀ m ∈ members, m.1 ∉ secretKeys := by
  cases hat with
  | here =>
    intro m hm
    rcases mem_safeState hm with ⟨kept, hstate, hm⟩ | rfl
    · have hkept : At (withoutSecrets state) [] (.object kept) := hstate ▸ At.here
      exact notMem_secretKeys hkept m hm
    · decide
  | member hm hat =>
    rcases mem_safeState hm with ⟨kept, hstate, hm⟩ | heq
    · have hkept := At.member hm hat
      rw [← hstate] at hkept
      exact notMem_secretKeys hkept
    · obtain ⟨-, rfl⟩ := Prod.mk.inj heq
      cases hat

/-- The key file of a host in a list goes, and the rest stays. -/
example : serializeState (.object [("hosts", .array [.object [("name", .text "a"),
    ("keyFile", .text "k.pem")], .null])]) =
      (Json.object [("hosts", .array [.object [("name", .text "a")], .null]),
        ("schemaVersion", .int 1)]).render := by
  decide +kernel

end LanChat.Gui.Redaction
