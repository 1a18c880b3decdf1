import FuzzBridge.Proofs.Argument.Form
import FuzzBridge.Proofs.Text.Utf8
import FuzzBridge.Record.Fill

/-!
The JSON form of a record reads back as the record, if the levels of the reader are enough for it;
and they are enough for every record that such a reader has read.
-/

namespace FuzzBridge

open Json (Draft Items Members)

namespace Action

theorem isPlain_toJson (action : Action) : action.toJson.IsPlain := by
  cases action with
  | call function arguments =>
    exact Json.isPlain_tagged.2
      ⟨trivial, Argument.allPlain_listToJson fun argument _ => argument.isPlain_toJson, trivial⟩
  | wait => exact Json.isPlain_bareTag _

theorem depth_call (function : String) (arguments : List Argument) :
    (Action.call function arguments).toJson.depth =
      (Json.array (Argument.listToJson arguments)).depth + 2 := by
  simp [toJson, Json.depth, Json.itemsDepth]

theorem depth_pos (action : Action) : 0 < action.toJson.depth := by
  cases action <;> simp [toJson]

theorem ofDraft_toJson {action : Action} {levels : Nat} (deep : action.toJson.depth ≤ levels) :
    ofDraft levels action.toJson.draft = .ok action := by
  cases action with
  | call function arguments =>
    rw [depth_call] at deep
    obtain ⟨levels, rfl⟩ := Nat.exists_eq_add_of_le' (Nat.le_trans (Nat.le_add_left 2 _) deep)
    have list := Nat.le_of_add_le_add_right deep
    obtain ⟨levels, rfl⟩ := Argument.exists_level_list list
    have read := Argument.list_ofDraft
      (fun argument _ {_} deep => Argument.ofDraft_toJson deep false) list
    rw [ofDraft, toJson, Json.Tagging.read_tagged (by rfl) (by rfl)]
    simp only [Json.draft, Json.itemsDraft, Draft.items]
    rw [Items.pair_of_ok (by rfl) (by exact read)]
    rfl
  | wait =>
    obtain ⟨levels, rfl⟩ := Nat.exists_eq_add_one.2 (Nat.lt_of_lt_of_le (depth_pos .wait) deep)
    exact Json.Tagging.read_bareTag (by rfl) (by rfl)

theorem depth_of_ofDraft {levels : Nat} {draft : Draft} {action : Action}
    (h : ofDraft levels draft = .ok action) : action.toJson.depth ≤ levels := by
  cases levels with
  | zero => exact absurd h Draft.tooDeep_ne_ok
  | succ levels =>
    obtain ⟨kind, bare⟩ | ⟨isHeld, kind, contents, h⟩ := Json.Tagging.offers_of_read h
    · cases kind with
      | true => cases bare
      | false =>
        obtain rfl := Option.some.inj bare
        exact Nat.le_add_left 1 levels
    · obtain ⟨inner, items, rfl, contentsRead⟩ := Draft.ok_of_items h
      obtain ⟨found, read, h⟩ := Result.bind_eq_ok.1 contentsRead
      obtain rfl := Result.pure_eq_ok.1 h
      obtain ⟨_, _, -, list⟩ := Items.ok_of_pair read
      obtain ⟨inner, items, rfl, listRead⟩ := Draft.ok_of_items list
      rw [depth_call, Nat.add_le_add_iff_right]
      exact Argument.depth_of_list Argument.depth_of_ofDraft listRead

end Action

namespace Record

theorem isPlain_toJson (record : Record) : record.toJson.IsPlain := by
  simp [toJson, Json.IsPlain, Json.MembersPlain, Json.AllPlain, record.action.isPlain_toJson]

theorem depth_toJson (record : Record) : record.toJson.depth = record.action.toJson.depth + 1 := by
  have positive := record.action.depth_pos
  simp only [toJson, Json.depth, Json.membersDepth, Json.itemsDepth]
  omega

theorem readDelays_array (levels : Nat) (timeDelay blockDelay : String) :
    readDelays (levels + 1) (Json.array [.text timeDelay, .text blockDelay]).draft =
      .ok (timeDelay, blockDelay) :=
  Items.pair_of_ok rfl rfl

theorem walk_once {α : Type} {levels : Nat} {fields : Fields} {key : String}
    {read : Draft → Json.Read α} {store : α → Fields}
    (known : slot levels fields key = once none read store) {draft : Draft} {value : α}
    (found : read draft = .ok value) (rest : Members) :
    (Members.cons (some key) draft rest).walk (slot levels) fields =
      rest.walk (slot levels) (store value) :=
  Members.walk_cons known (Result.map_eq_ok.2 ⟨value, found, rfl⟩) rest

theorem ofDraft_toJson {record : Record} {levels : Nat} (deep : record.toJson.depth ≤ levels) :
    ofDraft levels record.toJson.draft = .ok record := by
  rw [depth_toJson] at deep
  have positive := record.action.depth_pos
  obtain ⟨levels, rfl⟩ : ∃ inner, levels = inner + 2 := ⟨levels - 2, by omega⟩
  have action := Action.ofDraft_toJson (Nat.le_of_add_le_add_right deep)
  have text (value : String) : (Json.text value).draft.asText = .ok value := rfl
  have delays := readDelays_array levels record.timeDelay record.blockDelay
  rw [ofDraft, toJson, Json.draft, Draft.fields, ofMembers]
  simp only [Json.membersDraft]
  rw [walk_once (by rfl) action, walk_once (by rfl) (text record.source),
    walk_once (by rfl) (text record.target), walk_once (by rfl) (text record.gas),
    walk_once (by rfl) (text record.gasPrice), walk_once (by rfl) (text record.value),
    walk_once (by rfl) delays]
  rfl

/-! What has been read is within the levels it was read with. -/

theorem of_once {α : Type} {old : Option α} {reader : Draft → Json.Read α} {store : α → Fields}
    {read : Draft → Json.Read Fields} (known : once old reader store = .read read) {draft : Draft}
    {fields : Fields} (h : read draft = .ok fields) :
    ∃ value, reader draft = .ok value ∧ store value = fields := by
  cases old with
  | some value => cases known
  | none =>
    obtain rfl := Json.Slot.read.inj known
    exact Result.map_eq_ok.1 h

def Fields.IsWithin (levels : Nat) (fields : Fields) : Prop :=
  ∀ action, fields.action = some action → action.toJson.depth ≤ levels

theorem isWithin_of_slot {levels : Nat} {fields fields' : Fields} {key : String}
    {read : Draft → Json.Read Fields} {draft : Draft} (within : fields.IsWithin levels)
    (known : slot levels fields key = .read read) (h : read draft = .ok fields') :
    fields'.IsWithin levels := by
  unfold slot at known
  split at known
  case h_1 =>
    obtain ⟨value, found, rfl⟩ := of_once known h
    intro action same
    obtain rfl := Option.some.inj same
    exact Action.depth_of_ofDraft found
  case h_8 => cases known
  all_goals
    obtain ⟨value, found, rfl⟩ := of_once known h
    exact within

theorem depth_of_ofMembers {levels : Nat} {members : Members} {record : Record}
    (h : ofMembers levels members = .ok record) : record.action.toJson.depth ≤ levels := by
  obtain ⟨fields, walked, h⟩ := Result.bind_eq_ok.1 h
  have begun : Fields.none.IsWithin levels := nofun
  have within : fields.IsWithin levels :=
    Members.walk_invariant (fun _ _ _ _ _ => isWithin_of_slot) begun walked
  split at h
  · next found complete =>
    obtain rfl := Result.pure_eq_ok.1 h
    apply within
    unfold Fields.record? at complete
    simp only [Option.bind_eq_bind, Option.bind_eq_some_iff, Option.pure_def,
      Option.some.injEq] at complete
    obtain ⟨_, -, action, found, _, -, _, -, _, -, _, -, _, -, rfl⟩ := complete
    exact found
  · cases h

theorem depth_of_ofItems {levels : Nat} {items : Items} {record : Record}
    (h : ofItems levels items = .ok record) : record.action.toJson.depth ≤ levels := by
  unfold ofItems at h
  obtain ⟨_, -, h⟩ := Result.bind_eq_ok.1 h
  obtain ⟨action, read, h⟩ := Result.bind_eq_ok.1 h
  simp only [Result.bind_eq_ok, Result.pure_eq_ok] at h
  obtain ⟨_, -, _, -, _, -, _, -, _, -, _, -, _, -, _, -, _, -, _, -, _, -, _, -, _, -, rfl⟩ := h
  exact Action.depth_of_ofDraft read

theorem depth_of_ofDraft {levels : Nat} {draft : Draft} {record : Record}
    (h : ofDraft levels draft = .ok record) : record.toJson.depth ≤ levels := by
  rw [depth_toJson]
  cases draft with
  | array items =>
    cases levels with
    | zero => cases h
    | succ levels => exact Nat.add_le_add_right (depth_of_ofItems h) 1
  | object members =>
    cases levels with
    | zero => cases h
    | succ levels => exact Nat.add_le_add_right (depth_of_ofMembers h) 1
  | _ => cases h

end Record

end FuzzBridge
