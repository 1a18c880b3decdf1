import FuzzBridge.Proofs.Record.Form

/-!
The text of a list of records reads back as the same list, unless it nests deeper than a reader
allows. Lists that were read are within that limit, and filling records in does not make them
deeper.
-/

namespace FuzzBridge.Record

open Json (Draft Items)

def listToJson (records : List Record) : Json := .array (records.map toJson)

/-- The bytes that are written for the records are read as the records. -/
def ReadsBack (records : List Record) : Prop :=
  listOfText (Text.decode (Text.encode (listToText records))) = .ok records

theorem isPlain_listToJson (records : List Record) : (listToJson records).IsPlain := by
  rw [listToJson, Json.IsPlain, Json.allPlain_iff]
  exact List.forall_mem_map.2 fun record _ => record.isPlain_toJson

theorem depth_listToJson {records : List Record} {levels : Nat} :
    (listToJson records).depth ≤ levels + 1 ↔ ∀ record ∈ records, record.toJson.depth ≤ levels := by
  rw [listToJson, Json.depth, Nat.add_le_add_iff_right, Json.itemsDepth_le, List.forall_mem_map]

theorem readsBack_of_depth {records : List Record}
    (deep : (listToJson records).depth ≤ Json.depthLimit) : ReadsBack records := by
  have each := depth_listToJson.1 deep
  have read := Items.list_itemsDraft fun record member => ofDraft_toJson (each record member)
  have form : listToText records = (listToJson records).render := rfl
  rw [ReadsBack, form, Text.decode_encode, listOfText,
    Json.Document.ofText_render (isPlain_listToJson records), Json.Document.read, listToJson,
    Json.draft]
  simp only [Json.depthLimit, Draft.items, read]
  rfl

theorem depth_of_listOfText {text : Text.Decoded} {records : List Record}
    (h : listOfText text = .ok records) : (listToJson records).depth ≤ Json.depthLimit := by
  unfold listOfText ofRead at h
  split at h
  · next found read =>
    obtain rfl := Except.ok.inj h
    obtain ⟨listed, inside, h⟩ := Result.bind_eq_ok.1 read
    have same : listed = found := by
      split at h
      · cases h
      · exact Result.pure_eq_ok.1 h
    obtain ⟨levels, items, limit, list⟩ := Draft.ok_of_items inside
    rw [limit, depth_listToJson, ← same]
    intro record member
    obtain ⟨_, read⟩ := Items.ok_of_list list record member
    exact depth_of_ofDraft read
  · cases h

/-! Filling records in keeps their depth. -/

theorem depth_fillArguments {arguments filled : List Argument} {model : Assignment}
    {transaction : String} {index : Nat}
    (h : fillArguments model transaction index arguments = .ok filled) :
    List.Forall₂ (fun left right => left.toJson.depth = right.toJson.depth) arguments filled := by
  induction arguments generalizing index filled with
  | nil =>
    obtain rfl := Except.ok.inj h
    exact .nil
  | cons argument rest ih =>
    obtain ⟨first, hfirst, h⟩ := Result.bind_eq_ok.1 h
    obtain ⟨others, hothers, h⟩ := Result.bind_eq_ok.1 h
    obtain rfl := Result.pure_eq_ok.1 h
    exact .cons (Argument.depth_fill hfirst) (ih hothers)

theorem depth_fill {record filled : Record} {model : Assignment} {transaction : String}
    (h : record.fill model transaction = .ok filled) :
    record.toJson.depth = filled.toJson.depth := by
  obtain ⟨action, hfilled, h⟩ := Result.bind_eq_ok.1 h
  obtain rfl := Result.pure_eq_ok.1 h
  rw [depth_toJson, depth_toJson]
  cases recorded : record.action with
  | call function arguments =>
    rw [recorded] at hfilled
    obtain ⟨others, list, rfl⟩ := Result.map_eq_ok.1 hfilled
    rw [Action.depth_call, Action.depth_call,
      Argument.depth_list_congr (depth_fillArguments list)]
  | wait =>
    rw [recorded] at hfilled
    obtain rfl := Except.ok.inj hfilled
    rfl

/-- Each record of one list is filled in, by any model, to give that of the other. -/
def AreFilled : List Record → List Record → Prop :=
  List.Forall₂ fun record filled => ∃ model transaction, record.fill model transaction = .ok filled

theorem depth_of_areFilled {records filled : List Record} (h : AreFilled records filled) :
    (listToJson filled).depth = (listToJson records).depth := by
  have items : Json.itemsDepth (filled.map toJson) = Json.itemsDepth (records.map toJson) := by
    induction h with
    | nil => rfl
    | cons first _ ih =>
      obtain ⟨model, transaction, first⟩ := first
      rw [List.map_cons, List.map_cons, Json.itemsDepth, Json.itemsDepth, depth_fill first, ih]
  rw [listToJson, listToJson, Json.depth, Json.depth, items]

end FuzzBridge.Record
