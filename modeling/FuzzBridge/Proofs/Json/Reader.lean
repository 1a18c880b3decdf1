import FuzzBridge.Proofs.Json.Tagged

/-!
A reader that keeps all it reads shows what the draft was. So the draft is that of one value, and
two values never have one draft.
-/

namespace FuzzBridge.Json

/-! What has been read. -/

mutual

theorem Draft.eq_draft_of_value {levels : Nat} : ∀ {draft : Draft} {value : Json},
    draft.value levels = .ok value → draft = value.draft
  | .null, _, read | .bool _, _, read | .number (some _), _, read | .text (some _), _, read => by
    obtain rfl := Except.ok.inj read
    rfl
  | .array items, _, read => by
    cases levels with
    | zero => cases read
    | succ levels =>
      obtain ⟨values, hvalues, rfl⟩ := Result.map_eq_ok.1 read
      rw [draft, Items.eq_itemsDraft_of_values hvalues]
  | .object members, _, read => by
    cases levels with
    | zero => cases read
    | succ levels =>
      obtain ⟨values, hvalues, rfl⟩ := Result.map_eq_ok.1 read
      rw [draft, Members.eq_membersDraft_of_values hvalues]

theorem Items.eq_itemsDraft_of_values {levels : Nat} : ∀ {items : Items} {values : List Json},
    items.values levels = .ok values → items = itemsDraft values
  | .stop true, _, read => by
    obtain rfl := Except.ok.inj read
    rfl
  | .cons first rest, _, read => by
    obtain ⟨value, hvalue, others⟩ := Result.bind_eq_ok.1 read
    obtain ⟨values, hvalues, same⟩ := Result.bind_eq_ok.1 others
    obtain rfl := Result.pure_eq_ok.1 same
    rw [itemsDraft, ← Draft.eq_draft_of_value hvalue, ← Items.eq_itemsDraft_of_values hvalues]

theorem Members.eq_membersDraft_of_values {levels : Nat} :
    ∀ {members : Members} {values : List (String × Json)},
      members.values levels = .ok values → members = membersDraft values
  | .stop true, _, read => by
    obtain rfl := Except.ok.inj read
    rfl
  | .cons (some key) first rest, _, read => by
    obtain ⟨value, hvalue, others⟩ := Result.bind_eq_ok.1 read
    obtain ⟨values, hvalues, same⟩ := Result.bind_eq_ok.1 others
    obtain rfl := Result.pure_eq_ok.1 same
    rw [membersDraft, ← Draft.eq_draft_of_value hvalue,
      ← Members.eq_membersDraft_of_values hvalues]

end

section

variable {α : Type} {toJson : α → Json}

theorem Items.eq_itemsDraft_of_list {read : Draft → Read α}
    (each : ∀ draft value, read draft = .ok value → draft = (toJson value).draft) {items : Items}
    {values : List α} (h : items.list read = .ok values) :
    items = itemsDraft (values.map toJson) := by
  induction values generalizing items with
  | nil =>
    cases items with
    | stop closed => cases closed <;> [cases h; rfl]
    | cons first others =>
      obtain ⟨value, -, h⟩ := Result.bind_eq_ok.1 h
      obtain ⟨values, -, h⟩ := Result.bind_eq_ok.1 h
      cases h
  | cons value rest ih =>
    cases items with
    | stop closed => cases closed <;> cases h
    | cons first others =>
      obtain ⟨found, hfirst, h⟩ := Result.bind_eq_ok.1 h
      obtain ⟨more, hmore, h⟩ := Result.bind_eq_ok.1 h
      obtain ⟨rfl, rfl⟩ := List.cons.inj (Result.pure_eq_ok.1 h)
      rw [List.map_cons, itemsDraft, ← each first found hfirst, ← ih hmore]

theorem Members.eq_membersDraft_of_walk {read : Draft → Read α}
    (each : ∀ draft value, read draft = .ok value → draft = (toJson value).draft)
    {members : Members} {start table : Table α}
    (h : members.walk (fun table key => .read fun draft => do
      return table.insert key (← read draft)) start = .ok table) :
    ∃ entries : List (String × α),
      members = membersDraft (entries.map fun entry => (entry.1, toJson entry.2)) ∧
        table = entries.foldl (fun table entry => table.insert entry.1 entry.2) start := by
  induction members using Members.induction generalizing start with
  | stop closed =>
    cases closed with
    | false => cases h
    | true =>
      obtain rfl := Except.ok.inj h
      exact ⟨[], rfl, rfl⟩
  | cons key draft rest ih =>
    cases key with
    | none => cases h
    | some key =>
      obtain ⟨next, found, h⟩ := Result.bind_eq_ok.1 h
      obtain ⟨value, first, same⟩ := Result.bind_eq_ok.1 found
      obtain rfl := Result.pure_eq_ok.1 same
      obtain ⟨entries, members, rfl⟩ := ih h
      refine ⟨(key, value) :: entries, ?_, rfl⟩
      rw [List.map_cons, membersDraft, ← each draft value first, ← members]

/-- A table is read from an object, and has what the members in their order put into it. -/
theorem Draft.eq_draft_of_table {read : Nat → Draft → Read α}
    (each : ∀ levels draft value, read levels draft = .ok value → draft = (toJson value).draft)
    {levels : Nat} {draft : Draft} {table : Table α} (h : draft.table levels read = .ok table) :
    ∃ entries : List (String × α),
      draft = (Json.object (entries.map fun entry => (entry.1, toJson entry.2))).draft ∧
        table = Table.ofList entries := by
  unfold Draft.table at h
  split at h
  · next members =>
    cases levels with
    | zero => cases h
    | succ levels =>
      obtain ⟨entries, rfl, rfl⟩ := Members.eq_membersDraft_of_walk (each levels) h
      exact ⟨entries, rfl, rfl⟩
  · cases h

end

/-! Drafts of values. -/

theorem itemsDraft_inj {left right : List Json}
    (each : ∀ item ∈ left, ∀ other, item.draft = other.draft → item = other)
    (h : itemsDraft left = itemsDraft right) : left = right := by
  induction left generalizing right with
  | nil =>
    cases right with
    | nil => rfl
    | cons other right => cases h
  | cons item left ih =>
    cases right with
    | nil => cases h
    | cons other right =>
      rw [List.forall_mem_cons] at each
      obtain ⟨first, rests⟩ := Items.cons.inj h
      rw [each.1 other first, ih each.2 rests]

theorem membersDraft_inj {left right : List (String × Json)}
    (each : ∀ member ∈ left, ∀ other, member.2.draft = other.draft → member.2 = other)
    (h : membersDraft left = membersDraft right) : left = right := by
  induction left generalizing right with
  | nil =>
    cases right with
    | nil => rfl
    | cons other right => cases h
  | cons member left ih =>
    cases right with
    | nil => cases h
    | cons other right =>
      rw [List.forall_mem_cons] at each
      obtain ⟨keys, first, rests⟩ := Members.cons.inj h
      have same : member = other := Prod.ext (Option.some.inj keys) (each.1 other.2 first)
      rw [same, ih each.2 rests]

theorem draft_inj {left right : Json} (h : left.draft = right.draft) : left = right := by
  induction left using Json.induction generalizing right with
  | null | bool value | number value | text value =>
    cases right <;> cases h
    rfl
  | array items ih =>
    cases right with
    | array others => rw [itemsDraft_inj (fun item member _ => ih item member) (Draft.array.inj h)]
    | _ => cases h
  | object members ih =>
    cases right with
    | object others =>
      rw [membersDraft_inj (fun member inside _ => ih member inside) (Draft.object.inj h)]
    | _ => cases h

end FuzzBridge.Json
