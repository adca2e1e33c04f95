import Mathlib.Data.Finmap
import Mathlib.Data.List.AList
import LanChat.Lib.KeyedRows

/-!
# The list models of the desktop client (`chat_model.cpp`)

`ChatListModel` for rows of any roles: a row maps the names of roles to values, and the value of
the role `messageId` is a text.  Every operation says which signals it emits.

* `Variant.equals`, `Row`, `ChatModel`: values, rows and models;
* `appendRows`, `prependRows`, `replaceRows`, `updateRow`, `updateRows`, `removeRow`,
  `removeRowsByValue`: the operations, each with its signals;
* `appendRows_rows`: what `appendRows` leaves, in one equation;
* `row_laws`: both ends of a model, the cap and the ids.
-/

namespace LanChat.Gui

/-! ### Rows -/

/-- `QVariant`, with the types other than texts left open. -/
inductive Variant (V : Type)
  | invalid
  | text (s : String)
  | other (v : V)
  deriving DecidableEq, Repr

/-- `operator==` of a `QVariant`, where one value is no text: numbers of different types are compared
as numbers, and a number with a text as with the number that the text is converted to. -/
class VariantEquals (V : Type) where
  equals : V → V → Bool
  equalsText : V → String → Bool

/-- `operator==` of a `QVariant`. -/
def Variant.equals {V : Type} [VariantEquals V] : Variant V → Variant V → Bool
  | .invalid, .invalid => true
  | .text s, .text t => s == t
  | .other v, .other w => VariantEquals.equals v w
  | .other v, .text s | .text s, .other v => VariantEquals.equalsText v s
  | _, _ => false

/-- A `QVariantMap`; a message id in it is a text. -/
structure Row (V : Type) where
  values : Finmap fun _ : String => Variant V
  messageID_text : ∀ v, values.lookup "messageId" ≠ some (.other v)

/-- What the views are told about a model. -/
inductive ModelSignal
  | dataChanged | rowsInserted | rowsRemoved | modelReset
  deriving DecidableEq, Repr

namespace Row

variable {V : Type}

/-- `value` of a map: a role that is not in it has no value. -/
def value (row : Row V) (role : String) : Variant V := (row.values.lookup role).getD .invalid

/-- `insert` of a map: its values replace the ones that are there. -/
def insert (row values : Row V) : Row V where
  values := values.values ∪ row.values
  messageID_text := by
    intro v hv
    by_cases hmem : "messageId" ∈ values.values
    · rw [Finmap.lookup_union_left hmem] at hv
      exact values.messageID_text v hv
    · rw [Finmap.lookup_union_right hmem] at hv
      exact row.messageID_text v hv

/-- `value("messageId").toString()`. -/
def messageID (row : Row V) : String :=
  match row.value "messageId" with
  | .text id => id
  | _ => ""

/-- `operator==` of the maps: the same roles, with equal values. -/
def equals [VariantEquals V] (row other : Row V) : Bool :=
  decide (row.values.keys = other.values.keys) &&
    decide (∀ role ∈ row.values.keys, (row.value role).equals (other.value role) = true)

/-- A row that has nothing but a message id. -/
def ofMessageID (id : String) : Row V where
  values := Finmap.singleton "messageId" (.text id)
  messageID_text := by
    intro v hv
    rw [Finmap.lookup_singleton_eq] at hv
    cases hv

/-- The message id of a row that has one. -/
def key (row : Row V) : Option String := if row.messageID = "" then none else some row.messageID

end Row

/-! ### Models -/

/-- A `ChatListModel`: its roles and its rows. -/
structure ChatModel (V : Type) where
  roles : List String
  rows : List (Row V) := []

namespace ChatModel

open KeyedRows

variable {V : Type} [VariantEquals V]

/-- `kMaxRowsPerModel`. -/
def maxRowsPerModel : ℕ := 1000

/-- `findRow`. -/
def findRow (m : ChatModel V) (role : String) (value : Variant V) : Option ℕ :=
  m.rows.findIdx? fun row => (row.value role).equals value

/-- `updateRow`. -/
def updateRow (m : ChatModel V) (row : ℕ) (values : Row V) : ChatModel V × List ModelSignal :=
  if m.rows.length ≤ row ∨ values.values.keys = ∅ then (m, [])
  else ({ m with rows := m.rows.modify row fun old => old.insert values }, [.dataChanged])

/-- The model while the rows that it gets are gone through, and what is left of these. -/
structure Merge (V : Type) where
  model : ChatModel V
  signals : List ModelSignal
  uniqueIncoming : List (Row V)
  incomingRowsByMessageID : AList fun _ : String => ℕ

/-- One round of the loop of `appendRows`. -/
def mergeRow (merge : Merge V) (row : Row V) : Merge V :=
  if row.messageID = "" then { merge with uniqueIncoming := merge.uniqueIncoming ++ [row] }
  else match merge.model.findRow "messageId" (.text row.messageID) with
    | some existingRow =>
      let updated := merge.model.updateRow existingRow row
      { merge with model := updated.1, signals := merge.signals ++ updated.2 }
    | none =>
      match merge.incomingRowsByMessageID.lookup row.messageID with
      | some i =>
        { merge with
          uniqueIncoming := merge.uniqueIncoming.modify i fun old => old.insert row }
      | none =>
        { merge with
          uniqueIncoming := merge.uniqueIncoming ++ [row]
          incomingRowsByMessageID :=
            merge.incomingRowsByMessageID.insert row.messageID merge.uniqueIncoming.length }

/-- The loop of `appendRows`, for a model with message ids. -/
def mergeRows (m : ChatModel V) (rows : List (Row V)) : Merge V :=
  if "messageId" ∈ m.roles then rows.foldl mergeRow ⟨m, [], [], ∅⟩ else ⟨m, [], rows, ∅⟩

/-- `incoming.mid(incoming.size() - kMaxRowsPerModel)` when there are more. -/
def lastRows (incoming : List (Row V)) : List (Row V) :=
  if maxRowsPerModel < incoming.length then incoming.drop (incoming.length - maxRowsPerModel)
  else incoming

/-- The end of `appendRows`: rows make room at the front. -/
def insertAtEnd (m : ChatModel V) (incoming : List (Row V)) : ChatModel V × List ModelSignal :=
  let overflow := m.rows.length + incoming.length - maxRowsPerModel
  if m.rows.length ≤ overflow ∧ m.rows ≠ [] then ({ m with rows := incoming }, [.modelReset])
  else ({ m with rows := m.rows.drop overflow ++ incoming },
    (if 0 < overflow then [.rowsRemoved] else []) ++ [.rowsInserted])

/-- `appendRows`. -/
def appendRows (m : ChatModel V) (rows : List (Row V)) : ChatModel V × List ModelSignal :=
  if rows = [] then (m, [])
  else
    let merge := m.mergeRows rows
    if merge.uniqueIncoming = [] then (merge.model, merge.signals)
    else
      let inserted := merge.model.insertAtEnd (lastRows merge.uniqueIncoming)
      (inserted.1, merge.signals ++ inserted.2)

/-- The end of `prependRows`: rows make room at the end. -/
def insertAtFront (m : ChatModel V) (incoming : List (Row V)) : ChatModel V × List ModelSignal :=
  let overflow := m.rows.length + incoming.length - maxRowsPerModel
  if m.rows.length ≤ overflow ∧ m.rows ≠ [] then ({ m with rows := incoming }, [.modelReset])
  else ({ m with rows := incoming ++ m.rows.take (m.rows.length - overflow) },
    (if 0 < overflow then [.rowsRemoved] else []) ++ [.rowsInserted])

/-- `prependRows`. -/
def prependRows (m : ChatModel V) (rows : List (Row V)) : ChatModel V × List ModelSignal :=
  if rows = [] then (m, []) else m.insertAtFront (lastRows rows)

/-- `replaceRows`. -/
def replaceRows (m : ChatModel V) (rows : List (Row V)) : ChatModel V × List ModelSignal :=
  if m.rows.isEqv (lastRows rows) Row.equals then (m, [])
  else ({ m with rows := lastRows rows }, [.modelReset])

/-- `updateRows`: the views are told when some value is not equal to the one it replaces. -/
def updateRows (m : ChatModel V) (valuesByRow : List (Row V)) : ChatModel V × List ModelSignal :=
  let pairs := m.rows.zip valuesByRow
  if pairs = [] then (m, [])
  else ({ m with
      rows := pairs.map (fun p => p.1.insert p.2) ++ m.rows.drop valuesByRow.length },
    if ∃ p ∈ pairs, ∃ role ∈ p.2.values.keys, (p.1.value role).equals (p.2.value role) = false then
      [.dataChanged]
    else [])

/-- `removeRow`. -/
def removeRow (m : ChatModel V) (row : ℕ) : ChatModel V × List ModelSignal :=
  if m.rows.length ≤ row then (m, [])
  else ({ m with rows := m.rows.eraseIdx row }, [.rowsRemoved])

/-- The loop of `removeRowsByValue`, from a row down to the first. -/
def removeLoop (role : String) (value : Variant V) :
    ℕ → ChatModel V → ChatModel V × List ModelSignal
  | 0, m => (m, [])
  | row + 1, m =>
    let removed := if m.rows[row]?.any fun r => (r.value role).equals value then m.removeRow row
      else (m, [])
    let rest := removeLoop role value row removed.1
    (rest.1, removed.2 ++ rest.2)

/-- `removeRowsByValue`. -/
def removeRowsByValue (m : ChatModel V) (role : String) (value : Variant V) :
    ChatModel V × List ModelSignal :=
  removeLoop role value m.rows.length m

/-! ### What the operations do to the ids -/

omit [VariantEquals V] in
theorem value_insert (row values : Row V) (role : String) :
    (row.insert values).value role =
      if role ∈ values.values then values.value role else row.value role := by
  unfold Row.value Row.insert
  dsimp only
  split_ifs with hmem
  · rw [Finmap.lookup_union_left hmem]
  · rw [Finmap.lookup_union_right hmem]

omit [VariantEquals V] in
theorem key_eq_some {row : Row V} {id : String} :
    row.key = some id ↔ row.messageID = id ∧ id ≠ "" := by
  unfold Row.key
  split_ifs with hempty
  · exact iff_of_false (fun h => by cases h) fun h => h.2 (h.1.symm.trans hempty)
  · rw [Option.some_inj]
    exact ⟨fun h => ⟨h, h ▸ hempty⟩, And.left⟩

omit [VariantEquals V] in
/-- A row has a message id when the value of its role is a text that is not empty. -/
theorem value_eq_text {row : Row V} {id : String} (hid : id ≠ "") :
    row.value "messageId" = .text id ↔ row.messageID = id := by
  unfold Row.messageID
  cases row.value "messageId" with
  | invalid => exact iff_of_false (fun h => by cases h) fun h => hid h.symm
  | text s => exact Variant.text.injEq s id ▸ Iff.rfl
  | other v => exact iff_of_false (fun h => by cases h) fun h => hid h.symm

omit [VariantEquals V] in
theorem keepsKey_insert : KeepsKey (Row.key (V := V)) Row.insert := by
  intro row other hsome hsame
  obtain ⟨id, hid⟩ := Option.isSome_iff_exists.1 hsome
  obtain ⟨hother, hne⟩ := key_eq_some.1 hid
  have hvalue : other.value "messageId" = .text id := (value_eq_text hne).2 hother
  have hmem : "messageId" ∈ other.values := by
    by_contra hnot
    unfold Row.value at hvalue
    rw [Finmap.lookup_eq_none.2 hnot] at hvalue
    cases hvalue
  rw [← hsame, hid, key_eq_some]
  refine ⟨(value_eq_text hne).1 ?_, hne⟩
  rw [value_insert, if_pos hmem, hvalue]

omit [VariantEquals V] in
theorem keys_ne_empty {row : Row V} (hid : row.messageID ≠ "") : row.values.keys ≠ ∅ := by
  intro hempty
  have hnot : "messageId" ∉ row.values := by
    rw [← Finmap.mem_keys, hempty]
    exact Finset.notMem_empty _
  refine hid ?_
  unfold Row.messageID Row.value
  rw [Finmap.lookup_eq_none.2 hnot]
  rfl

/-- A message id is a text, so that only the same one is equal to it. -/
theorem equals_messageID {row : Row V} {id : String} :
    (row.value "messageId").equals (.text id) = true ↔ row.value "messageId" = .text id := by
  cases hvalue : row.value "messageId" with
  | invalid => exact iff_of_false (fun h => by cases h) fun h => by cases h
  | text s => exact beq_iff_eq.trans (Variant.text.injEq s id).symm.to_iff
  | other v =>
    unfold Row.value at hvalue
    cases hlookup : row.values.lookup "messageId" with
    | none =>
      rw [hlookup] at hvalue
      cases hvalue
    | some value =>
      rw [hlookup, Option.getD_some] at hvalue
      exact absurd (hvalue ▸ hlookup) (row.messageID_text v)

/-- `findRow` for a message id: the row that has it, and there is none when no row has it. -/
theorem findRow_some {m : ChatModel V} {id : String} (hid : id ≠ "") {i : ℕ}
    (hfind : m.findRow "messageId" (.text id) = some i) :
    ∃ h : i < m.rows.length, m.rows[i].key = some id := by
  obtain ⟨h, hvalue, -⟩ := List.findIdx?_eq_some_iff_getElem.1 hfind
  exact ⟨h, key_eq_some.2 ⟨(value_eq_text hid).1 (equals_messageID.1 hvalue), hid⟩⟩

theorem findRow_none {m : ChatModel V} {id : String} (hid : id ≠ "")
    (hfind : m.findRow "messageId" (.text id) = none) : id ∉ m.rows.filterMap Row.key := by
  intro hmem
  obtain ⟨row, hrow, hkey⟩ := List.mem_filterMap.1 hmem
  have hvalue := List.findIdx?_eq_none_iff.1 hfind row hrow
  rw [equals_messageID.2 ((value_eq_text hid).2 (key_eq_some.1 hkey).1)] at hvalue
  cases hvalue

/-! ### Appending -/

/-- The loop of `appendRows` has gone through some rows: the rows of the model have met them, what
is left of them is new, and the table says where the ids of these rows are. -/
structure Merged (m : ChatModel V) (done : List (Row V)) (merge : Merge V) : Prop where
  rows : merge.model.rows = m.rows.map fun row => absorb Row.key Row.insert row done
  unique : merge.uniqueIncoming = fresh Row.key Row.insert (m.rows.filterMap Row.key) done
  found : ∀ id i, merge.incomingRowsByMessageID.lookup id = some i →
    (merge.uniqueIncoming.map Row.key)[i]? = some (some id)
  missing : ∀ id, merge.incomingRowsByMessageID.lookup id = none →
    some id ∉ merge.uniqueIncoming.map Row.key

namespace Merged

variable {m : ChatModel V} {done : List (Row V)} {merge : Merge V} {row : Row V}

omit [VariantEquals V] in
theorem mem_keys {rows : List (Row V)} {id : String} :
    id ∈ rows.filterMap Row.key ↔ some id ∈ rows.map Row.key := by
  rw [List.mem_filterMap, List.mem_map]

omit [VariantEquals V] in
theorem keys (h : Merged m done merge) :
    merge.model.rows.filterMap Row.key = m.rows.filterMap Row.key := by
  rw [h.rows, filterMap_map_absorb keepsKey_insert]

omit [VariantEquals V] in
/-- The rows of the model after one more row. -/
theorem rows_concat (h : Merged m done merge) :
    (m.rows.map fun old => absorb Row.key Row.insert old (done ++ [row])) =
      merge.model.rows.map fun old => meet Row.key Row.insert old row := by
  rw [h.rows, List.map_map]
  exact List.map_congr_left fun old _ => absorb_concat old done row

omit [VariantEquals V] in
/-- A row that has no id, or an id that neither the model nor the other rows have, is appended. -/
theorem add (h : Merged m done merge) (hmodel : ∀ id, row.key = some id →
    id ∉ m.rows.filterMap Row.key) (hnew : ∀ id, row.key = some id →
      id ∉ done.filterMap Row.key) {table : AList fun _ : String => ℕ}
    (htable : ∀ id, table.lookup id = if row.key = some id then some merge.uniqueIncoming.length
      else merge.incomingRowsByMessageID.lookup id) :
    Merged m (done ++ [row]) { merge with
      uniqueIncoming := merge.uniqueIncoming ++ [row], incomingRowsByMessageID := table } where
  rows := by
    refine Eq.trans ?_ h.rows_concat.symm
    refine (map_meet_of_not_mem fun id hid => ?_).symm
    rw [h.keys]
    exact hmodel id hid
  unique := by
    rw [fresh_concat, ← h.unique, map_meet_of_not_mem, if_neg]
    · rintro ⟨id, hid, hseen | hdone⟩
      · exact hmodel id hid hseen
      · exact hnew id hid hdone
    · intro id hid hmem
      rw [h.unique] at hmem
      exact hnew id hid ((mem_fresh keepsKey_insert _ _ _).1 hmem).2
  found := by
    intro id i hlookup
    dsimp only at hlookup ⊢
    rw [htable] at hlookup
    rw [List.map_append]
    split_ifs at hlookup with hkey
    -- the new row stands last
    · obtain rfl := Option.some.inj hlookup
      rw [List.getElem?_append_right (by simp), List.length_map, Nat.sub_self, List.map_singleton,
        hkey]
      rfl
    · have hi := h.found id i hlookup
      rw [List.getElem?_append_left (List.getElem?_eq_some_iff.1 hi).1]
      exact hi
  missing := by
    intro id hlookup
    dsimp only at hlookup ⊢
    rw [htable] at hlookup
    split_ifs at hlookup with hkey
    rw [List.map_append, List.mem_append, List.map_singleton, List.mem_singleton]
    rintro (hmem | hmem)
    · exact h.missing id hlookup hmem
    · exact hkey hmem.symm

/-- One more row is merged into the rows that have been gone through. -/
theorem mergeRow (hdistinct : Distinct Row.key m.rows) (h : Merged m done merge) (row : Row V) :
    Merged m (done ++ [row]) (ChatModel.mergeRow merge row) := by
  unfold ChatModel.mergeRow
  by_cases hid : row.messageID = ""
  · rw [if_pos hid]
    have hkey : row.key = none := if_pos hid
    have hnone : ∀ id, row.key ≠ some id := fun id h' => by rw [hkey] at h'; cases h'
    exact h.add (fun id h' => absurd h' (hnone id)) (fun id h' => absurd h' (hnone id))
      fun id => (if_neg (hnone id)).symm
  rw [if_neg hid]
  have hkey : row.key = some row.messageID := if_neg hid
  cases hfind : merge.model.findRow "messageId" (.text row.messageID) with
  | some i =>
    -- the row of the model that has the id is updated
    obtain ⟨hi, hsame⟩ := findRow_some hid hfind
    have hmem : row.messageID ∈ m.rows.filterMap Row.key := by
      rw [← h.keys]
      exact List.mem_filterMap.2 ⟨_, List.getElem_mem hi, hsame⟩
    have hfresh : (merge.uniqueIncoming.map fun old => meet Row.key Row.insert old row) =
        merge.uniqueIncoming := by
      refine map_meet_of_not_mem fun id hid' hmem' => ?_
      obtain rfl := Option.some.inj (hkey.symm.trans hid')
      rw [h.unique] at hmem'
      exact ((mem_fresh keepsKey_insert _ _ _).1 hmem').1 hmem
    have hupdate : (merge.model.updateRow i row).1.rows =
        merge.model.rows.map fun old => meet Row.key Row.insert old row := by
      unfold updateRow
      rw [if_neg (not_or.2 ⟨Nat.not_le.2 hi, keys_ne_empty hid⟩)]
      exact modify_eq_map (by unfold Distinct; rwa [h.keys]) hkey hi hsame
    refine ⟨hupdate.trans h.rows_concat.symm, ?_, h.found, h.missing⟩
    rw [fresh_concat, ← h.unique, hfresh, if_pos ⟨_, hkey, .inl hmem⟩, List.append_nil]
  | none =>
    have hmodel : ∀ id, row.key = some id → id ∉ m.rows.filterMap Row.key := by
      intro id hid'
      obtain rfl := Option.some.inj (hkey.symm.trans hid')
      rw [← h.keys]
      exact findRow_none hid hfind
    dsimp only
    cases hlookup : merge.incomingRowsByMessageID.lookup row.messageID with
    | some i =>
      -- an earlier row with the id is updated
      have hi := h.found _ i hlookup
      rw [List.getElem?_map, Option.map_eq_some_iff] at hi
      obtain ⟨old, hold, hsame⟩ := hi
      obtain ⟨hi, rfl⟩ := List.getElem?_eq_some_iff.1 hold
      have hmem : row.messageID ∈ merge.uniqueIncoming.filterMap Row.key :=
        List.mem_filterMap.2 ⟨_, List.getElem_mem hi, hsame⟩
      rw [h.unique, mem_fresh keepsKey_insert] at hmem
      have hmodify : (merge.uniqueIncoming.modify i fun old => old.insert row) =
          merge.uniqueIncoming.map fun old => meet Row.key Row.insert old row :=
        modify_eq_map (h.unique ▸ distinct_fresh keepsKey_insert _ _) hkey hi hsame
      have hkeys := map_key_meet keepsKey_insert merge.uniqueIncoming row
      refine ⟨?_, ?_, fun id j hj => ?_, fun id hj => ?_⟩
      · rw [h.rows_concat, map_meet_of_not_mem]
        rw [h.keys]
        exact hmodel
      · rw [fresh_concat, ← h.unique, if_pos ⟨_, hkey, .inr hmem.2⟩, List.append_nil]
        exact hmodify
      · dsimp only
        rw [hmodify, hkeys]
        exact h.found id j hj
      · dsimp only
        rw [hmodify, hkeys]
        exact h.missing id hj
    | none =>
      refine h.add hmodel (fun id hid' hdone => ?_) fun id => ?_
      · refine h.missing _ hlookup (mem_keys.1 ?_)
        obtain rfl := Option.some.inj (hkey.symm.trans hid')
        rw [h.unique, mem_fresh keepsKey_insert]
        exact ⟨hmodel _ hkey, hdone⟩
      · rw [hkey]
        split_ifs with hsame
        · obtain rfl := Option.some.inj hsame
          exact AList.lookup_insert _
        · exact AList.lookup_insert_ne fun h => hsame (congrArg some h.symm)

theorem mergeRows (hrole : "messageId" ∈ m.roles) (hdistinct : Distinct Row.key m.rows)
    (rows : List (Row V)) : Merged m rows (m.mergeRows rows) := by
  have hstart : Merged m [] ⟨m, [], [], ∅⟩ :=
    ⟨(List.map_id m.rows).symm, rfl, fun _ _ h => (Option.some_ne_none _ h.symm).elim,
      fun _ _ => List.not_mem_nil⟩
  have hfold : ∀ (rows done : List (Row V)) (merge : Merge V), Merged m done merge →
      Merged m (done ++ rows) (rows.foldl ChatModel.mergeRow merge) := by
    intro rows
    induction rows with
    | nil => exact fun done merge h => (List.append_nil done).symm ▸ h
    | cons row rest ih =>
      intro done merge h
      have hrest := ih _ _ (h.mergeRow hdistinct row)
      rwa [List.append_assoc] at hrest
  unfold ChatModel.mergeRows
  rw [if_pos hrole]
  exact hfold rows [] _ hstart

end Merged

omit [VariantEquals V] in
theorem lastRows_eq (incoming : List (Row V)) :
    lastRows incoming = incoming.rtake maxRowsPerModel := by
  unfold lastRows
  split_ifs with hfull
  · rfl
  · exact (rtake_of_length_le (Nat.not_lt.1 hfull)).symm

omit [VariantEquals V] in
theorem length_lastRows (incoming : List (Row V)) :
    (lastRows incoming).length ≤ maxRowsPerModel := by
  rw [lastRows_eq, length_rtake]
  exact min_le_left _ _

omit [VariantEquals V] in
/-- The reset leaves what the removal of the old rows and the insertion would leave. -/
theorem insertAtEnd_rows (m : ChatModel V) {incoming : List (Row V)}
    (hroom : incoming.length ≤ maxRowsPerModel) :
    (m.insertAtEnd incoming).1.rows = (m.rows ++ incoming).rtake maxRowsPerModel := by
  rw [rtake_append hroom]
  unfold insertAtEnd
  by_cases hreset : m.rows.length ≤ m.rows.length + incoming.length - maxRowsPerModel ∧ m.rows ≠ []
  · rw [if_pos hreset, List.drop_eq_nil_of_le hreset.1]
    rfl
  · rw [if_neg hreset]

omit [VariantEquals V] in
theorem insertAtFront_rows (m : ChatModel V) {incoming : List (Row V)}
    (hroom : incoming.length ≤ maxRowsPerModel) :
    (m.insertAtFront incoming).1.rows = (incoming ++ m.rows).take maxRowsPerModel := by
  rw [List.take_append, List.take_of_length_le hroom]
  unfold insertAtFront
  by_cases hreset : m.rows.length ≤ m.rows.length + incoming.length - maxRowsPerModel ∧ m.rows ≠ []
  · have hpos := List.length_pos_iff.2 hreset.2
    have hnone : maxRowsPerModel - incoming.length = 0 := by omega
    rw [if_pos hreset, hnone, List.take_zero, List.append_nil]
  · rw [if_neg hreset]
    refine congrArg (incoming ++ ·) (List.take_eq_take_iff.2 ?_)
    omega

/-- What `appendRows` leaves: the last of the old rows, each with the incoming rows of its id, and
the incoming rows with new ids. -/
theorem appendRows_rows {m : ChatModel V} (hrole : "messageId" ∈ m.roles)
    (hcap : m.rows.length ≤ maxRowsPerModel) (hdistinct : Distinct Row.key m.rows)
    (new : List (Row V)) :
    (m.appendRows new).1.rows =
      ((m.rows.map fun old => absorb Row.key Row.insert old new) ++
        fresh Row.key Row.insert (m.rows.filterMap Row.key) new).rtake maxRowsPerModel := by
  have hmerged := Merged.mergeRows hrole hdistinct new
  rw [← hmerged.rows, ← hmerged.unique]
  have hlen : (m.mergeRows new).model.rows.length ≤ maxRowsPerModel := by
    rw [hmerged.rows, List.length_map]
    exact hcap
  unfold appendRows
  split_ifs with hnew
  · subst hnew
    rw [hmerged.unique, hmerged.rows]
    simp only [absorb, fresh, List.foldl_nil, List.map_id', List.append_nil]
    exact (rtake_of_length_le hcap).symm
  dsimp only
  split_ifs with hempty
  · rw [hempty, List.append_nil]
    exact (rtake_of_length_le hlen).symm
  · rw [insertAtEnd_rows _ (length_lastRows _), lastRows_eq, rtake_append_rtake]

omit [VariantEquals V] in
theorem prependRows_rows {m : ChatModel V} (hcap : m.rows.length ≤ maxRowsPerModel)
    (new : List (Row V)) :
    (m.prependRows new).1.rows =
      (new.rtake maxRowsPerModel ++ m.rows).take maxRowsPerModel := by
  unfold prependRows
  split_ifs with hnew
  · rw [hnew, rtake_of_length_le (Nat.zero_le _), List.nil_append, List.take_of_length_le hcap]
  · rw [insertAtFront_rows m (length_lastRows new), lastRows_eq]

omit [VariantEquals V] in
theorem distinct_merged {rows : List (Row V)} (hdistinct : Distinct Row.key rows)
    (new : List (Row V)) :
    Distinct Row.key ((rows.map fun old => absorb Row.key Row.insert old new) ++
      fresh Row.key Row.insert (rows.filterMap Row.key) new) := by
  unfold Distinct
  rw [List.filterMap_append, List.nodup_append, filterMap_map_absorb keepsKey_insert]
  refine ⟨hdistinct, distinct_fresh keepsKey_insert _ _, ?_⟩
  rintro id hid _ hfresh rfl
  exact ((mem_fresh keepsKey_insert _ _ _).1 hfresh).1 hid

/-- Rows are appended and prepended by their laws, and they leave at most a thousand rows, with
one row for each message id. -/
theorem row_laws {m : ChatModel V} (hrole : "messageId" ∈ m.roles) (hcap : m.rows.length ≤ 1000)
    (hdistinct : Distinct Row.key m.rows) :
    (∀ new, (m.appendRows new).1.rows =
        ((m.rows.map fun old => absorb Row.key Row.insert old new) ++
          fresh Row.key Row.insert (m.rows.filterMap Row.key) new).rtake 1000 ∧
      (m.appendRows new).1.rows.length ≤ 1000 ∧ Distinct Row.key (m.appendRows new).1.rows) ∧
    ∀ new, Distinct Row.key new → (∀ id ∈ new.filterMap Row.key, id ∉ m.rows.filterMap Row.key) →
      (m.prependRows new).1.rows = (new.rtake 1000 ++ m.rows).take 1000 ∧
      (m.prependRows new).1.rows.length ≤ 1000 ∧ Distinct Row.key (m.prependRows new).1.rows := by
  constructor
  · intro new
    have hrows := appendRows_rows hrole hcap hdistinct new
    refine ⟨hrows, ?_, ?_⟩
    · rw [hrows, length_rtake]
      exact min_le_left _ _
    · rw [hrows]
      exact (distinct_merged hdistinct new).sublist ((rtake_sublist _ _).filterMap _)
  · intro new hnew hfree
    have hrows := prependRows_rows hcap new
    refine ⟨hrows, ?_, ?_⟩
    · rw [hrows, List.length_take]
      exact min_le_left _ _
    · rw [hrows]
      refine List.Nodup.sublist ((List.take_sublist _ _).filterMap _) ?_
      rw [List.filterMap_append, List.nodup_append]
      refine ⟨hnew.sublist ((rtake_sublist _ _).filterMap _), hdistinct, ?_⟩
      rintro id hid _ hold rfl
      exact hfree id (((rtake_sublist _ _).filterMap _).subset hid) hold

/-- Whole numbers; a decimal text is converted to its number. -/
instance : VariantEquals ℤ where
  equals v w := v == w
  equalsText v s := s == toString v

/-- A row with a new id is put before the one that is there. -/
theorem row_laws_two :
    let m : ChatModel ℤ := { roles := ["messageId"], rows := [.ofMessageID "1"] }
    Distinct Row.key (m.appendRows [.ofMessageID "1", .ofMessageID "2"]).1.rows ∧
      (m.prependRows [.ofMessageID "2"]).1.rows = [.ofMessageID "2", .ofMessageID "1"] := by
  intro m
  have hone : m.rows.filterMap Row.key = ["1"] := by decide
  have htwo : [Row.ofMessageID (V := ℤ) "2"].filterMap Row.key = ["2"] := by decide
  have hlaws := row_laws (m := m) (by decide) (by decide) (by unfold Distinct; rw [hone]; decide)
  refine ⟨(hlaws.1 _).2.2, (hlaws.2 [.ofMessageID "2"] ?_ ?_).1⟩
  · unfold Distinct
    rw [htwo]
    decide
  · rw [hone, htwo]
    decide

end ChatModel

end LanChat.Gui
