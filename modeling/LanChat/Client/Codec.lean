import LanChat.Client.SendMessage
import LanChat.Client.ServerFrames
import LanChat.Lib.JsonReader
import Mathlib.Data.String.Basic

/-!
# The texts of frames in the client (`client-cpp/src/message.cpp`)

`receiveMessage` with the parser that it uses, on the very text that the server writes.

* `Doubles`, `nlohmann`, `parseJson`, `dump`: `nlohmann::json::parse` and `dump`, whose numbers are
  integers of 64 bits or doubles, and whose objects keep the last member of each name and are written
  in the order of the names;
* `parseJson_dump`, `dump_sorted`: what is written is read back, and is a normal form;
* `receive_marshal`: a frame of the server is received as the message with the same fields.

`strtod` and the text that `dump_float` writes of a double are a parameter.
-/

namespace Json

open JsonReader

mutual

/-- The value with the members of every object in the order of their names. -/
def sorted : Json → Json
  | .array values => .array (sortedValues values)
  | .object members => sortedObject (sortedMembers members)
  | v => v

/-- The values of an array. -/
def sortedValues : List Json → List Json
  | [] => []
  | v :: values => v.sorted :: sortedValues values

/-- The members of an object. -/
def sortedMembers : List (String × Json) → List (String × Json)
  | [] => []
  | m :: members => sortedMember m :: sortedMembers members

/-- A member of an object. -/
def sortedMember : String × Json → String × Json
  | (name, value) => (name, value.sorted)

end

theorem sortedValues_eq_map (values : List Json) : sortedValues values = values.map sorted := by
  induction values with
  | nil => rfl
  | cons v values ih => rw [sortedValues, ih, List.map_cons]

@[simp] theorem sortedMember_fst (m : String × Json) : (sortedMember m).1 = m.1 := by
  obtain ⟨name, value⟩ := m
  rw [sortedMember]

@[simp] theorem sortedMember_snd (m : String × Json) : (sortedMember m).2 = m.2.sorted := by
  obtain ⟨name, value⟩ := m
  rw [sortedMember]

theorem dumpMember_eq (m : String × Json) :
    dumpMember m = GoJson.plainQuote m.1 ++ ":" ++ m.2.dump := by
  obtain ⟨name, value⟩ := m
  rw [dumpMember]

theorem sortedMembers_eq_map (members : List (String × Json)) :
    sortedMembers members = members.map sortedMember := by
  induction members with
  | nil => rfl
  | cons m members ih => rw [sortedMembers, ih, List.map_cons]

theorem dumpValues_eq_map (values : List Json) : dumpValues values = values.map dump := by
  induction values with
  | nil => rfl
  | cons v values ih => rw [dumpValues, ih, List.map_cons]

/-- Sorting by name changes neither the members nor whether their names are distinct. -/
theorem perm_sortedMembers (members : List (String × Json)) :
    ((sortedMembers members).insertionSort fun a b => a.1 ≤ b.1).Perm
      (members.map sortedMember) := by
  rw [sortedMembers_eq_map]
  exact List.perm_insertionSort _ _

theorem pairwise_sortedMembers (members : List (String × Json)) :
    ((sortedMembers members).insertionSort fun a b => a.1 ≤ b.1).Pairwise fun a b => a.1 ≤ b.1 := by
  have htotal : Std.Total fun a b : String × Json => a.1 ≤ b.1 := ⟨fun a b => le_total a.1 b.1⟩
  have htrans : IsTrans (String × Json) fun a b => a.1 ≤ b.1 := ⟨fun _ _ _ => le_trans⟩
  exact List.pairwise_insertionSort _ _

theorem names_sortedMembers (members : List (String × Json)) :
    (members.map sortedMember).map Prod.fst = members.map Prod.fst := by
  rw [List.map_map]
  exact List.map_congr_left fun m _ => sortedMember_fst m

variable {d : Dialect} {n : ℕ} {v : Json}

theorem written_sorted (h : Written d n v) : Written d n v.sorted := by
  induction h with
  | null => exact .null
  | bool b => exact .bool b
  | int hlow hhigh => exact .int hlow hhigh
  | float hbare hscalar => exact .float hbare hscalar
  | text s => exact .text s
  | @array n values hfits _ ih =>
    rw [sorted, sortedValues_eq_map]
    exact .array hfits (List.forall_mem_map.2 ih)
  | @object n members hfits hnodup _ ih =>
    have hperm := perm_sortedMembers members
    refine .object hfits ?_ fun m hm => ?_
    · rw [(hperm.map Prod.fst).nodup_iff, names_sortedMembers]
      exact hnodup
    · obtain ⟨m', hm', rfl⟩ := List.mem_map.1 (hperm.mem_iff.1 hm)
      rw [sortedMember_snd]
      exact ih m' hm'

/-- Sorting once is enough. -/
theorem sorted_sorted (h : Written d n v) : v.sorted.sorted = v.sorted := by
  induction h with
  | array hfits _ ih =>
    simp only [sorted, sortedValues_eq_map, List.map_map]
    exact congrArg _ (List.map_congr_left ih)
  | @object n members hfits hnodup _ ih =>
    -- every member is sorted inside already, and the names are in order
    have hfixed : ∀ m ∈ (sortedMembers members).insertionSort fun a b => a.1 ≤ b.1,
        sortedMember m = m := by
      intro m hm
      obtain ⟨m', hm', rfl⟩ := List.mem_map.1 ((perm_sortedMembers members).mem_iff.1 hm)
      refine Prod.ext (sortedMember_fst _) ?_
      rw [sortedMember_snd, sortedMember_snd]
      exact ih m' hm'
    have hmap : ((sortedMembers members).insertionSort fun a b => a.1 ≤ b.1).map sortedMember =
        (sortedMembers members).insertionSort fun a b => a.1 ≤ b.1 := by
      conv_rhs => rw [← List.map_id ((sortedMembers members).insertionSort fun a b => a.1 ≤ b.1)]
      exact List.map_congr_left hfixed
    simp only [sorted, sortedObject]
    rw [sortedMembers_eq_map ((sortedMembers members).insertionSort fun a b => a.1 ≤ b.1), hmap]
    exact congrArg _ (pairwise_sortedMembers members).insertionSort_eq
  | _ => rfl

/-- What `dump` writes is read back. -/
theorem reads_dump (hclose : ∀ members : List (String × Json), (members.map Prod.fst).Nodup →
    d.close members.reverse = members) (h : Written d n v) : Reads d n v.dump.toList v := by
  induction h with
  | null => exact reads_null
  | bool b => exact reads_bool b
  | int hlow hhigh => exact reads_int hlow hhigh
  | @float n digits hbare hscalar =>
    refine reads_scalar ?_ hbare hscalar
    intro hnil
    rw [show digits.toList = [] from hnil] at hscalar
    cases hscalar
  | text s => exact reads_plainQuote s
  | array hfits _ ih =>
    rw [dump, dumpValues_eq_map]
    refine Reads.array hfits ?_
    rw [List.forall₂_map_left_iff, List.forall₂_same]
    exact ih
  | @object n members hfits hnodup _ ih =>
    rw [dump, dumpMembers_eq_map]
    refine Reads.object hfits ?_ (hclose members hnodup)
    rw [List.forall₂_map_left_iff, List.forall₂_same]
    intro m hm
    rw [dumpMember_eq]
    exact Reads.member_quoted (readsBack_plainChar d) m.1 (ih m hm)

end Json

namespace LanChat

open GoJson JsonReader

namespace Client

/-! ### The parser -/

/-- The last member of each name, of members that are given latest first. -/
def lastOfEach (members : List (String × Json)) : List (String × Json) :=
  members.foldl (fun acc m => if acc.any fun a => a.1 == m.1 then acc else m :: acc) []

/-- The doubles of `nlohmann::json`: what `dump_float` writes of the double that `strtod` reads of a
number, `none` when that is not finite. -/
structure Doubles where
  text : String → Option String
  /-- Digits, signs, a point and an exponent are written. -/
  bare : ∀ digits u, text digits = some u → ∀ c ∈ u.toList, isBare c = true
  /-- What is written is a number, and never looks like an integer. -/
  number : ∀ digits u, text digits = some u → scalar? some u.toList = some (.float u)
  /-- It is read as the same double. -/
  round : ∀ digits u, text digits = some u → text u = some u

/-- `nlohmann::json`. -/
def nlohmann (doubles : Doubles) : Dialect where
  lone := none
  float := doubles.text
  padded := true
  maxDepth := ⊤
  close := lastOfEach

/-- `nlohmann::json::parse`; the texts of its errors are left out. -/
def parseJson (doubles : Doubles) (text : String) : Except String Json :=
  match parse (nlohmann doubles) text with
  | some v => .ok v
  | none => .error "parse error"

/-- `nlohmann::json::dump`. -/
def dump (v : Json) : String := v.sorted.dump

variable {doubles : Doubles}

theorem fits_nlohmann (n : ℕ) : (nlohmann doubles).fits n := le_top

theorem parse_of_parseJson {text : String} {v : Json} (h : parseJson doubles text = .ok v) :
    parse (nlohmann doubles) text = some v := by
  unfold parseJson at h
  split at h
  · rename_i w hw
    rw [hw, Except.ok.inj h]
  · cases h

theorem parseJson_of_reads {text : String} {v : Json}
    (h : Reads (nlohmann doubles) 0 text.toList v) : parseJson doubles text = .ok v := by
  rw [parseJson, parse_of_reads h]

theorem regular_nlohmann (doubles : Doubles) : (nlohmann doubles).Regular := by
  -- an invariant of the fold: the names so far are distinct, and the members were given
  have hfold : ∀ members acc : List (String × Json), (acc.map Prod.fst).Nodup →
      ((members.foldl (fun acc m => if acc.any fun a => a.1 == m.1 then acc else m :: acc)
        acc).map Prod.fst).Nodup ∧
      ∀ m ∈ members.foldl (fun acc m => if acc.any fun a => a.1 == m.1 then acc else m :: acc) acc,
        m ∈ members ∨ m ∈ acc := by
    intro members
    induction members with
    | nil => exact fun acc hacc => ⟨hacc, fun m hm => .inr hm⟩
    | cons m members ih =>
      intro acc hacc
      rw [List.foldl_cons]
      split_ifs with hany
      · obtain ⟨hnodup, hmem⟩ := ih acc hacc
        refine ⟨hnodup, fun x hx => ?_⟩
        exact (hmem x hx).imp_left (List.mem_cons_of_mem m)
      · have hnew : m.1 ∉ acc.map Prod.fst := by
          rintro hm
          obtain ⟨a, ha, heq⟩ := List.mem_map.1 hm
          exact hany (List.any_eq_true.2 ⟨a, ha, by simp [heq]⟩)
        obtain ⟨hnodup, hmem⟩ := ih (m :: acc) (List.nodup_cons.2 ⟨hnew, hacc⟩)
        refine ⟨hnodup, fun x hx => ?_⟩
        rcases hmem x hx with hx | hx
        · exact .inl (List.mem_cons_of_mem m hx)
        · rcases List.mem_cons.1 hx with rfl | hx
          · exact .inl List.mem_cons_self
          · exact .inr hx
  constructor
  · exact fun digits kept h => ⟨doubles.bare digits kept h,
      scalar?_of_kept (doubles.number digits kept h) (doubles.round digits kept h)⟩
  · exact fun members => (hfold members [] List.nodup_nil).1
  · exact fun members m hm => ((hfold members [] List.nodup_nil).2 m hm).resolve_right (by simp)

theorem lastOfEach_reverse {members : List (String × Json)}
    (h : (members.map Prod.fst).Nodup) : (nlohmann doubles).close members.reverse = members := by
  change lastOfEach members.reverse = members
  unfold lastOfEach
  rw [List.foldl_reverse]
  induction members with
  | nil => rfl
  | cons m members ih =>
    rw [List.map_cons, List.nodup_cons] at h
    rw [List.foldr_cons, ih h.2, if_neg]
    intro hany
    obtain ⟨a, ha, heq⟩ := List.any_eq_true.1 hany
    exact h.1 (List.mem_map.2 ⟨a, ha, by simpa using heq⟩)

/-- What is written of an accepted value is read as the value with its members in order. -/
theorem reads_sorted {text : String} {v : Json} (h : parseJson doubles text = .ok v) :
    Reads (nlohmann doubles) 0 (dump v).toList v.sorted := by
  have hwritten := written_parse (regular_nlohmann doubles) (parse_of_parseJson h)
  exact Json.reads_dump (fun _ => lastOfEach_reverse) (Json.written_sorted hwritten)

/-- What is written of an accepted value is accepted as the value with its members in order, and
writing that changes nothing more. -/
theorem parseJson_dump {text : String} {v : Json} (h : parseJson doubles text = .ok v) :
    parseJson doubles (dump v) = .ok v.sorted ∧ dump v.sorted = dump v := by
  have hwritten := written_parse (regular_nlohmann doubles) (parse_of_parseJson h)
  constructor
  · exact parseJson_of_reads (reads_sorted h)
  · rw [dump, dump, Json.sorted_sorted hwritten]

/-- The written text is a normal form of the accepted texts: two values have the same one exactly
when they differ only in the order of members. -/
theorem dump_normal_form (doubles : Doubles) {text text' : String} {v w : Json}
    (h : parseJson doubles text = .ok v) (h' : parseJson doubles text' = .ok w) :
    parseJson doubles (dump v) = .ok v.sorted ∧ dump v.sorted = dump v ∧
      (dump v = dump w ↔ v.sorted = w.sorted) := by
  refine ⟨(parseJson_dump h).1, (parseJson_dump h).2, fun heq => ?_, fun heq => ?_⟩
  · have hparse := (parseJson_dump h).1
    rw [heq, (parseJson_dump h').1] at hparse
    exact (Except.ok.inj hparse).symm
  · rw [dump, dump, heq]

/-- One double, in two texts. -/
def sampleDoubles : Doubles where
  text digits := if digits = "1.50" ∨ digits = "1.5" then some "1.5" else none
  bare := by
    intro digits u h
    obtain rfl := Option.some.inj (Option.ite_none_right_eq_some.1 h).2
    exact List.all_eq_true.1 rfl
  number := by
    intro digits u h
    obtain rfl := Option.some.inj (Option.ite_none_right_eq_some.1 h).2
    rfl
  round := by
    intro digits u h
    obtain rfl := Option.some.inj (Option.ite_none_right_eq_some.1 h).2
    decide

/-- Members in two orders, one of them written twice and a double written in two ways. -/
theorem dump_normal_form_members :
    dump (.object [("b", .float "1.5"), ("a", .array [])]) =
      dump (.object [("a", .array []), ("b", .float "1.5")]) := by
  have hparse : parseJson sampleDoubles "\x7b\"b\":2, \"b\":1.50,\"a\":[ ]\x7d" =
      .ok (.object [("b", .float "1.5"), ("a", .array [])]) := rfl
  have hparse' : parseJson sampleDoubles "\x7b\"a\":[],\"b\":1.5\x7d" =
      .ok (.object [("a", .array []), ("b", .float "1.5")]) := rfl
  exact (dump_normal_form sampleDoubles hparse hparse').2.2.2 rfl

/-! ### Members -/

section Members

variable {d : Dialect} {n : ℕ} {name : String} {texts : List String}
  {fields : List (String × Option Json)}

theorem reads_text (hname : name.toList.all isVerbatim = true) {s : String}
    (h : List.Forall₂ (ReadsMember d n) texts (Json.members fields)) :
    List.Forall₂ (ReadsMember d n) (optText quote name s ++ texts)
      (Json.members ((name, Json.textField s) :: fields)) := by
  rw [Json.members_text]
  refine List.rel_append ?_ h
  unfold optText Json.optText
  split_ifs
  · exact .nil
  · exact .cons (Reads.member hname (reads_quote s)) .nil

theorem reads_bool (hname : name.toList.all isVerbatim = true) {b : Bool}
    (h : List.Forall₂ (ReadsMember d n) texts (Json.members fields)) :
    List.Forall₂ (ReadsMember d n) (optBool name b ++ texts)
      (Json.members ((name, Json.boolField b) :: fields)) := by
  rw [Json.members_bool]
  refine List.rel_append ?_ h
  unfold optBool Json.optBool
  split_ifs
  · exact .cons (Reads.member hname (JsonReader.reads_bool true)) .nil
  · exact .nil

theorem reads_number (hname : name.toList.all isVerbatim = true) {k : ℤ}
    (hk : -2 ^ 63 ≤ k ∧ k < 2 ^ 64)
    (h : List.Forall₂ (ReadsMember d n) texts (Json.members fields)) :
    List.Forall₂ (ReadsMember d n) (optInt name k ++ texts)
      (Json.members ((name, Json.intField k) :: fields)) := by
  rw [Json.members_int]
  refine List.rel_append ?_ h
  unfold optInt Json.optInt
  split_ifs
  · exact .nil
  · exact .cons (Reads.member hname (reads_int hk.1 hk.2)) .nil

theorem reads_list {α : Type} (hname : name.toList.all isVerbatim = true) (hfits : d.fits (n + 1))
    {l : List α} {text : α → String} {value : α → Json}
    (hentry : ∀ a ∈ l, Reads d (n + 2) (text a).toList (value a))
    (h : List.Forall₂ (ReadsMember d n) texts (Json.members fields)) :
    List.Forall₂ (ReadsMember d n) (optArray name (l.map text) ++ texts)
      (Json.members ((name, Json.arrayField (l.map value)) :: fields)) := by
  rw [Json.members_array]
  refine List.rel_append ?_ h
  unfold optArray Json.optArray
  cases l with
  | nil => exact .nil
  | cons a l =>
    rw [if_neg (by simp), if_neg (by simp)]
    refine .cons (Reads.member hname (Reads.array hfits ?_)) .nil
    rw [List.forall₂_map_left_iff, List.forall₂_map_right_iff, List.forall₂_same]
    exact hentry

theorem nodup_members {fields : List (String × Option Json)} (h : (fields.map Prod.fst).Nodup) :
    ((Json.members fields).map Prod.fst).Nodup := by
  induction fields with
  | nil => exact List.nodup_nil
  | cons f fields ih =>
    obtain ⟨name, value⟩ := f
    rw [List.map_cons, List.nodup_cons] at h
    cases value with
    | none => exact ih h.2
    | some v =>
      rw [Json.members_some, List.map_cons, List.nodup_cons]
      exact ⟨fun hmem => h.1 (Json.name_of_mem_members hmem), ih h.2⟩

/-- The value of a raw text. -/
def readRaw (doubles : Doubles) (raw : String) : Json :=
  (parse (nlohmann doubles) raw).getD .null

/-- A raw text that is absent, or that the client reads as an object where it stands in a frame. -/
def EnvelopeReads (doubles : Doubles) (raw : String) : Prop :=
  raw = "" ∨ ∃ members, value? (nlohmann doubles) raw.toList = some (.object members)

theorem readRaw_of_value? {raw : String} {v : Json}
    (h : value? (nlohmann doubles) raw.toList = some v) : readRaw doubles raw = v := by
  rw [readRaw, parse_of_value? h, Option.getD_some]

theorem reads_raw (hname : name.toList.all isVerbatim = true) {raw : String}
    (hraw : EnvelopeReads doubles raw)
    (h : List.Forall₂ (ReadsMember (nlohmann doubles) n) texts (Json.members fields)) :
    List.Forall₂ (ReadsMember (nlohmann doubles) n) (optText compact name raw ++ texts)
      (Json.members ((name, Json.rawField (readRaw doubles) raw) :: fields)) := by
  unfold optText Json.rawField
  rcases hraw with rfl | ⟨members, hparse⟩
  · exact h
  · split_ifs
    · exact h
    · rw [readRaw_of_value? hparse]
      exact .cons (Reads.member hname (reads_compact rfl hparse)) h

end Members

/-! ### Frames of the server -/

theorem reads_boolText {d : Dialect} {n : ℕ} (b : Bool) :
    Reads d n (boolText b).toList (.bool b) :=
  JsonReader.reads_bool b

theorem reads_onlineUser (n : ℕ) (u : LanChat.OnlineUser) :
    Reads (nlohmann doubles) n (u.marshalWith quote).toList u.json := by
  refine Reads.object (fits_nlohmann n) ?_ (lastOfEach_reverse (by simp))
  exact .cons (Reads.member rfl (reads_quote _)) <| .cons (Reads.member rfl (reads_quote _)) <|
    .cons (Reads.member rfl (reads_quote _)) <| .cons (Reads.member rfl (reads_boolText _)) .nil

theorem reads_roomInfo (n : ℕ) (r : LanChat.RoomInfo) :
    Reads (nlohmann doubles) n (r.marshalWith quote).toList r.json := by
  have hfields : r.json = Json.ofFields [("name", some (.text r.name)),
      ("owner_code", Json.textField r.ownerCode), ("private", some (.bool r.isPrivate)),
      ("can_manage", some (.bool r.canManage))] := by
    simp [RoomInfo.json, Json.ofFields]
  rw [hfields]
  unfold RoomInfo.marshalWith
  rw [List.append_assoc]
  refine Reads.object (fits_nlohmann n) (.cons (Reads.member rfl (reads_quote _)) ?_) ?_
  · exact reads_text rfl <| .cons (Reads.member rfl (reads_boolText _)) <|
      .cons (Reads.member rfl (reads_boolText _)) .nil
  · refine lastOfEach_reverse ?_
    exact nodup_members (by simp)

theorem reads_historyMessage (n : ℕ) {m : HistoryMessage} (hcrypto : EnvelopeReads doubles m.crypto)
    (hother : m.otherMembers = []) :
    Reads (nlohmann doubles) n (object (m.membersWith quote compact)).toList
      (m.value (readRaw doubles)) := by
  unfold HistoryMessage.membersWith HistoryMessage.value HistoryMessage.fields
  rw [hother]
  simp only [List.append_assoc]
  refine Reads.object (fits_nlohmann n) (.cons (Reads.member rfl (reads_quote _)) ?_) ?_
  · exact reads_text rfl <| reads_text rfl <| reads_text rfl <| reads_text rfl <| reads_text rfl <|
      reads_bool rfl <| reads_text rfl <| reads_text rfl <| reads_text rfl <| reads_bool rfl <|
      reads_raw rfl hcrypto .nil
  · exact lastOfEach_reverse (nodup_members (by simp))

/-- The numbers of a message are integers of 64 bits, and its raw texts objects for the client. -/
structure Sendable (doubles : Doubles) (m : LanChat.Message) : Prop where
  limit : -2 ^ 63 ≤ m.limit ∧ m.limit < 2 ^ 64
  logicalSize : -2 ^ 63 ≤ m.logicalSize ∧ m.logicalSize < 2 ^ 64
  chunkSize : -2 ^ 63 ≤ m.chunkSize ∧ m.chunkSize < 2 ^ 64
  chunkIndex : -2 ^ 63 ≤ m.chunkIndex ∧ m.chunkIndex < 2 ^ 64
  receivedIndexes : ∀ i ∈ m.receivedIndexes, -2 ^ 63 ≤ i ∧ i < 2 ^ 64
  crypto : EnvelopeReads doubles m.crypto
  messages : ∀ x ∈ m.messages, EnvelopeReads doubles x.crypto ∧ x.otherMembers = []

/-- The client's parser makes the value of a message of the text that the server writes for it. -/
theorem parseJson_marshal {m : LanChat.Message} (hm : Sendable doubles m) :
    parseJson doubles m.marshal = .ok (m.value (readRaw doubles)) := by
  have hepoch : -2 ^ 63 ≤ (m.epoch.toNat : ℤ) ∧ (m.epoch.toNat : ℤ) < 2 ^ 64 := by
    have := m.epoch.toNat_lt
    omega
  refine parseJson_of_reads ?_
  unfold LanChat.Message.marshal LanChat.Message.members LanChat.Message.membersWith
    LanChat.Message.optionalMembers LanChat.Message.value LanChat.Message.fields
  rw [← List.append_nil (optBool "is_admin" m.isAdmin)]
  simp only [List.append_assoc]
  refine Reads.object (fits_nlohmann 0) (.cons (Reads.member rfl (reads_quote _)) ?_) ?_
  -- one lemma a member, in the order of `Message.fields`
  · exact reads_text rfl <| reads_text rfl <| reads_text rfl <| reads_text rfl <| reads_text rfl <|
      reads_text rfl <| reads_bool rfl <|
      reads_list rfl (fits_nlohmann 1) (fun _ _ => reads_quote _) <|
      reads_list rfl (fits_nlohmann 1) (fun _ _ => reads_quote _) <|
      reads_list rfl (fits_nlohmann 1) (fun u _ => reads_onlineUser 2 u) <|
      reads_list rfl (fits_nlohmann 1) (fun r _ => reads_roomInfo 2 r) <|
      reads_text rfl <| reads_text rfl <| reads_text rfl <| reads_text rfl <| reads_text rfl <|
      reads_number rfl hm.limit <| reads_bool rfl <| reads_bool rfl <|
      reads_list rfl (fits_nlohmann 1)
        (fun x hx => reads_historyMessage 2 (hm.messages x hx).1 (hm.messages x hx).2) <|
      reads_text rfl <| reads_list rfl (fits_nlohmann 1) (fun _ _ => reads_quote _) <|
      reads_raw rfl hm.crypto <| reads_text rfl <| reads_number rfl hepoch <|
      reads_text rfl <| reads_text rfl <| reads_text rfl <| reads_text rfl <| reads_text rfl <|
      reads_text rfl <| reads_text rfl <| reads_text rfl <| reads_text rfl <|
      reads_number rfl hm.logicalSize <| reads_number rfl hm.chunkSize <| reads_text rfl <|
      reads_number rfl hm.chunkIndex <| reads_text rfl <| reads_text rfl <| reads_text rfl <|
      reads_list rfl (fits_nlohmann 1)
        (fun i hi => reads_int (hm.receivedIndexes i hi).1 (hm.receivedIndexes i hi).2) <|
      reads_text rfl <| reads_bool rfl .nil
  · refine lastOfEach_reverse (nodup_members ?_)
    change fieldNames.Nodup
    decide +kernel

/-- A frame of the server is received as the message with the same fields. -/
theorem receive_marshal {m : LanChat.Message} (hm : Sendable doubles m)
    (hindexes : m.receivedIndexes = []) (hbitmap : m.receivedBitmap = "") :
    receiveMessage (parseJson doubles) dump m.marshal =
      checkBase64 (received (readRaw doubles) dump m) := by
  have hcrypto : m.crypto = "" ∨ ∃ members, readRaw doubles m.crypto = .object members := by
    rcases hm.crypto with hnone | ⟨members, hparse⟩
    · exact .inl hnone
    · exact .inr ⟨members, readRaw_of_value? hparse⟩
  rw [receiveMessage, parseJson_marshal hm]
  exact readMessage_value (readRaw doubles) dump hcrypto hindexes hbitmap

end Client

end LanChat
