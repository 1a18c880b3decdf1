import FuzzBridge.Proofs.Campaign.Report
import FuzzBridge.Proofs.Json.Reader
import FuzzBridge.Proofs.Table

/-!
The coverage in the text of a report. It stands under its key or, in a report that is written as an
array, in the second place; a report without it covers nothing. Its addresses go into the report in
the order of the text, so of a repeated address the last records count.
-/

namespace FuzzBridge.Report

open Json (Draft Items Members Read)

abbrev Records := List (String × List (List Json))

def coverageJson (entries : Records) : Json :=
  .object (entries.map fun entry => (entry.1, .array (entry.2.map .array)))

def field? (key : String) : Members → Option Draft
  | .stop _ => none
  | .cons found value rest => if found = some key then some value else field? key rest

def secondField? (key : String) : Draft → Option Draft
  | .object members => field? key members
  | .array (.cons _ (.cons value _)) => some value
  | _ => none

def draftOf (output : String) : Draft :=
  (Json.Document.ofText (Text.ofChars (stripPreamble output.toList))).root

inductive GivesRecords (output : String) : Records → Prop
  | silent (silent : IsSilent output.toList) : GivesRecords output []
  | missing (speaks : ¬ IsSilent output.toList)
      (missing : secondField? "coverage" (draftOf output) = none) : GivesRecords output []
  | given (speaks : ¬ IsSilent output.toList) {entries : Records}
      (given : secondField? "coverage" (draftOf output) = some (coverageJson entries).draft) :
      GivesRecords output entries

theorem coverageJson_inj {left right : Records} (h : coverageJson left = coverageJson right) :
    left = right := by
  refine List.map_injective_iff.2 ?_ (Json.object.inj h)
  intro entry other same
  obtain ⟨address, records⟩ := Prod.ext_iff.1 same
  have arrays : Function.Injective Json.array := fun _ _ => Json.array.inj
  exact Prod.ext address (List.map_injective_iff.2 arrays (Json.array.inj records))

theorem GivesRecords.unique {output : String} {left right : Records}
    (first : GivesRecords output left) (second : GivesRecords output right) : left = right := by
  cases first with
  | silent silent =>
    cases second with
    | silent => rfl
    | missing speaks | given speaks => exact absurd silent speaks
  | missing speaks missing =>
    cases second with
    | silent silent => exact absurd silent speaks
    | missing => rfl
    | given _ given => cases missing.symm.trans given
  | given speaks given =>
    cases second with
    | silent silent => exact absurd silent speaks
    | missing _ missing => cases missing.symm.trans given
    | given _ given' =>
      exact coverageJson_inj (Json.draft_inj (Option.some.inj (given.symm.trans given')))

/-! Two fields. -/

section

variable {α β : Type} {first second : String} {readFirst : Draft → Read α}
  {readSecond : Draft → Read β} {pair pair' : Pair α β}

theorem second_of_slot {key : String} {read : Draft → Read (Pair α β)} {draft : Draft} {kept : β}
    (held : pair.second = some kept)
    (known : Pair.slot first second readFirst readSecond pair key = .read read)
    (h : read draft = .ok pair') : pair'.second = some kept := by
  unfold Pair.slot at known
  split at known
  · split at known
    · cases known
    · obtain rfl := Json.Slot.read.inj known
      obtain ⟨value, -, h⟩ := Result.bind_eq_ok.1 h
      obtain rfl := Result.pure_eq_ok.1 h
      exact held
  split at known
  · rw [held] at known
    cases known
  · cases known

theorem slot_of_ne {key : String} (other : key ≠ second) (empty : pair.second = none)
    {draft : Draft} {rest : Members}
    (h : (Members.cons (some key) draft rest).walk
      (Pair.slot first second readFirst readSecond) pair = .ok pair') :
    ∃ next : Pair α β, next.second = none ∧
      rest.walk (Pair.slot first second readFirst readSecond) next = .ok pair' := by
  rw [Members.walk, Pair.slot] at h
  by_cases found : key = first
  · rw [if_pos found] at h
    cases given : pair.first with
    | some value =>
      rw [given] at h
      cases h
    | none =>
      rw [given] at h
      obtain ⟨next, read, h⟩ := Result.bind_eq_ok.1 h
      obtain ⟨value, -, same⟩ := Result.bind_eq_ok.1 read
      obtain rfl := Result.pure_eq_ok.1 same
      exact ⟨{ pair with first := some value }, empty, h⟩
  · rw [if_neg found, if_neg other] at h
    obtain ⟨_, -, h⟩ := Result.bind_eq_ok.1 h
    exact ⟨pair, empty, h⟩

/-- The second field of a pair is there if the object has its key, and is then what the first value
of the key is read as. -/
theorem second_of_walk (differ : first ≠ second) {members : Members}
    (h : members.walk (Pair.slot first second readFirst readSecond) pair = .ok pair')
    (empty : pair.second = none) :
    Option.Rel (fun draft value => readSecond draft = .ok value) (field? second members)
      pair'.second := by
  induction members using Members.induction generalizing pair with
  | stop closed =>
    cases closed with
    | false => cases h
    | true =>
      obtain rfl := Except.ok.inj h
      rw [empty]
      exact .none
  | cons key draft rest ih =>
    cases key with
    | none => cases h
    | some key =>
      by_cases same : key = second
      · subst same
        have known : Pair.slot first key readFirst readSecond pair key =
            .read fun draft => do return { pair with second := some (← readSecond draft) } := by
          rw [Pair.slot, if_neg differ.symm, if_pos rfl, empty]
        rw [Members.walk, known] at h
        obtain ⟨next, found, h⟩ := Result.bind_eq_ok.1 h
        obtain ⟨value, read, same⟩ := Result.bind_eq_ok.1 found
        obtain rfl := Result.pure_eq_ok.1 same
        have kept : pair'.second = some value :=
          Members.walk_invariant (fun _ _ _ _ _ held => second_of_slot held) rfl h
        rw [kept, field?, if_pos rfl]
        exact .some read
      · obtain ⟨next, empty, h⟩ := slot_of_ne same empty h
        rw [field?, if_neg fun found => same (Option.some.inj found)]
        exact ih h empty

theorem second_of_items {items : Items}
    (h : Pair.ofItems readFirst readSecond items = .ok pair) :
    Option.Rel (fun draft value => readSecond draft = .ok value)
      (secondField? second (.array items)) pair.second := by
  unfold Pair.ofItems at h
  split at h
  · obtain ⟨left, -, h⟩ := Result.bind_eq_ok.1 h
    obtain ⟨right, read, h⟩ := Result.bind_eq_ok.1 h
    obtain ⟨_, -, h⟩ := Result.bind_eq_ok.1 h
    obtain rfl := Result.pure_eq_ok.1 h
    exact .some read
  · next item rest single =>
    obtain ⟨left, -, h⟩ := Result.bind_eq_ok.1 h
    obtain ⟨_, -, h⟩ := Result.bind_eq_ok.1 h
    obtain rfl := Result.pure_eq_ok.1 h
    cases rest with
    | stop closed => exact .none
    | cons other rest => exact absurd rfl (single other rest)
  · next none single =>
    obtain ⟨_, -, h⟩ := Result.bind_eq_ok.1 h
    obtain rfl := Result.pure_eq_ok.1 h
    cases items with
    | stop closed => exact .none
    | cons item rest => exact absurd rfl (single item rest)

end

theorem second_of_pair {α β : Type} {first second : String} (differ : first ≠ second)
    {readFirst : Nat → Draft → Read α} {readSecond : Nat → Draft → Read β} {levels : Nat}
    {draft : Draft} {pair : Pair α β}
    (h : Pair.ofDraft first second readFirst readSecond levels draft = .ok pair) :
    ∃ levels, Option.Rel (fun draft value => readSecond levels draft = .ok value)
      (secondField? second draft) pair.second := by
  unfold Pair.ofDraft Draft.fields at h
  split at h
  · cases levels with
    | zero => cases h
    | succ levels => exact ⟨levels, second_of_items h⟩
  · cases levels with
    | zero => cases h
    | succ levels => exact ⟨levels, second_of_walk differ h rfl⟩
  · cases h

/-! Reports. -/

theorem eq_draft_of_readList {α : Type} {toJson : α → Json} {read : Nat → Draft → Read α}
    (each : ∀ levels draft value, read levels draft = .ok value → draft = (toJson value).draft)
    {levels : Nat} {draft : Draft} {values : List α} (h : readList read levels draft = .ok values) :
    draft = (Json.array (values.map toJson)).draft := by
  unfold readList Draft.items at h
  split at h
  · next items =>
    cases levels with
    | zero => cases h
    | succ levels => rw [Json.draft, Items.eq_itemsDraft_of_list (each levels) h]
  · cases h

theorem eq_draft_of_readCoverage {levels : Nat} {draft : Draft} {table : Table (List (List Json))}
    (h : readCoverage levels draft = .ok table) :
    ∃ entries, draft = (coverageJson entries).draft ∧ table = Table.ofList entries := by
  have value (levels : Nat) (draft : Draft) (counter : Json)
      (read : draft.value levels = .ok counter) : draft = counter.draft :=
    Draft.eq_draft_of_value read
  have record (levels : Nat) (draft : Draft) (items : List Json)
      (read : readList (fun levels draft => draft.value levels) levels draft = .ok items) :
      draft = (Json.array items).draft := by
    have items := eq_draft_of_readList value read
    rwa [List.map_id'] at items
  have records (levels : Nat) (draft : Draft) (records : List (List Json))
      (read : readList (readList fun levels draft => draft.value levels) levels draft =
        .ok records) : draft = (Json.array (records.map .array)).draft :=
    eq_draft_of_readList record read
  exact Draft.eq_draft_of_table records h

theorem coverage_of_readReport {draft : Draft} {report : Report}
    (h : readReport draft = .ok report) :
    secondField? "coverage" draft = none ∧ report.coverage = Table.empty ∨
      ∃ entries, secondField? "coverage" draft = some (coverageJson entries).draft ∧
        report.coverage = Table.ofList entries := by
  obtain ⟨pair, fields, same⟩ := Result.bind_eq_ok.1 h
  obtain rfl := Result.pure_eq_ok.1 same
  obtain ⟨levels, second⟩ := second_of_pair (by decide) fields
  generalize secondField? "coverage" draft = field at second ⊢
  simp only
  generalize pair.second = coverage at second ⊢
  cases second with
  | none => exact .inl ⟨rfl, rfl⟩
  | some read =>
    obtain ⟨entries, rfl, rfl⟩ := eq_draft_of_readCoverage read
    exact .inr ⟨entries, rfl, rfl⟩

theorem exists_givesRecords {output : String} {report : Report}
    (read : ofOutput output = .ok report) :
    ∃ entries, GivesRecords output entries ∧ report.coverage = Table.ofList entries := by
  by_cases silent : IsSilent output.toList
  · obtain rfl := Except.ok.inj ((ofOutput_of_isSilent silent).symm.trans read)
    exact ⟨[], .silent silent, rfl⟩
  · have shown := mt stripPreamble_isBlank_iff.1 silent
    simp only [ofOutput, if_neg shown] at read
    split at read
    · next found document =>
      obtain rfl := Except.ok.inj read
      obtain ⟨whole, fields, after⟩ := Result.bind_eq_ok.1 document
      split at after
      · cases after
      obtain rfl := Result.pure_eq_ok.1 after
      rcases coverage_of_readReport fields with ⟨missing, empty⟩ | ⟨entries, given, table⟩
      · exact ⟨[], .missing silent missing, empty⟩
      · exact ⟨entries, .given silent given, table⟩
    · cases read

/-- Of a repeated address the report has the last records. -/
theorem coverage_of_givesRecords {output : String} {report : Report} {entries : Records}
    (read : ofOutput output = .ok report) (gives : GivesRecords output entries) :
    report.coverage = Table.ofList entries := by
  obtain ⟨others, also, table⟩ := exists_givesRecords read
  rw [table, also.unique gives]

end FuzzBridge.Report
