import Mathlib.Algebra.BigOperators.Group.Finset.Basic
import Mathlib.Data.Set.Card
import Mathlib.Logic.Relation
import FuzzBridge.Proofs.Campaign.Addresses
import FuzzBridge.Proofs.Json.Equality

/-!
Each program counter of a contract counts once. Counters are told apart by their texts, which is
enough: the texts of two counters agree only if the counters are the same value. So neither the
order of the records nor that of the addresses matters, nor how often a record is there.
-/

namespace FuzzBridge.Report

open Table (IsLast)

/-- The values that records of the address begin with. -/
def counters (entries : Records) (address : String) : Set Json :=
  {counter | ∃ records record, IsLast entries address records ∧ record ∈ records ∧
    record.head? = some counter}

def addresses (entries : Records) : Finset String := (entries.map Prod.fst).toFinset

/-- The counters of an address, those that are the same value being one. -/
def counterValues (entries : Records) (address : String) : Set (Quotient Json.sameSetoid) :=
  Quotient.mk Json.sameSetoid '' counters entries address

def counterTexts (entries : Records) (address : String) : Set String :=
  (fun counter => counter.sorted.render) '' counters entries address

/-! Counting texts. -/

theorem nodup_eraseDups {α : Type} [BEq α] [LawfulBEq α] (list : List α) :
    list.eraseDups.Nodup := by
  match list with
  | [] => exact .nil
  | head :: rest =>
    rw [List.eraseDups_cons, List.nodup_cons]
    refine ⟨fun again => ?_, nodup_eraseDups (rest.filter fun other => !other == head)⟩
    simpa using (List.mem_filter.1 (List.mem_eraseDups.1 again)).2
termination_by list.length
decreasing_by exact Nat.lt_succ_of_le (List.length_filter_le _ rest)

theorem length_eraseDups {α : Type} [BEq α] [LawfulBEq α] (list : List α) :
    list.eraseDups.length = {value | value ∈ list}.ncard := by
  classical
  have members : {value | value ∈ list} = ↑list.eraseDups.toFinset := by
    ext value
    simp
  rw [members, Set.ncard_coe_finset, List.toFinset_card_of_nodup (nodup_eraseDups list)]

theorem distinctCounters_eq {entries : Records} {address : String} {records : List (List Json)}
    (last : IsLast entries address records) :
    distinctCounters records = (counterTexts entries address).ncard := by
  rw [distinctCounters, length_eraseDups]
  congr 1
  ext text
  simp only [Set.mem_ofPred_eq, counterTexts, counters, Set.mem_image, List.mem_map,
    List.mem_filterMap]
  constructor
  · rintro ⟨counter, ⟨record, listed, begins⟩, rfl⟩
    exact ⟨counter, ⟨records, record, last, listed, begins⟩, rfl⟩
  · rintro ⟨counter, ⟨others, record, also, listed, begins⟩, rfl⟩
    obtain rfl := last.unique also
    exact ⟨counter, ⟨record, listed, begins⟩, rfl⟩

theorem sum_values {β : Type} (table : Table β) {count : β → Nat} {total : String → Nat}
    (each : ∀ key value, table.find? key = some value → count value = total key) :
    (table.values.map count).foldr (· + ·) 0 = ∑ key ∈ table.keys.toFinset, total key := by
  have apart : table.keys.Nodup :=
    List.pairwise_map.2 (table.sorted.imp fun less => String.ne_of_lt less)
  rw [List.sum_toFinset _ apart, Table.values, Table.keys, List.map_map, List.map_map, List.sum]
  congr 1
  exact List.map_congr_left fun entry member =>
    each entry.1 entry.2 (Table.find?_eq_some.2 member)

theorem mem_addresses_iff {entries : Records} {address : String} :
    address ∈ addresses entries ↔ ∃ records, IsLast entries address records := by
  simp only [addresses, List.mem_toFinset, List.mem_map]
  constructor
  · rintro ⟨entry, member, rfl⟩
    exact Table.exists_isLast member
  · rintro ⟨records, last⟩
    exact ⟨(address, records), last.mem, rfl⟩

theorem uniqueCounters_eq_texts {report : Report} {entries : Records}
    (table : report.coverage = Table.ofList entries) :
    uniqueCounters report =
      ∑ address ∈ addresses entries, (counterTexts entries address).ncard := by
  have keys : report.coverage.keys.toFinset = addresses entries := by
    ext address
    rw [List.mem_toFinset, Table.mem_keys_iff, Option.isSome_iff_exists, mem_addresses_iff, table]
    simp only [Table.find?_ofList]
  rw [← keys, uniqueCounters]
  refine sum_values report.coverage fun address records found => distinctCounters_eq ?_
  rwa [table, Table.find?_ofList] at found

/-! Texts and values. -/

def textOf : Quotient Json.sameSetoid → String :=
  Quotient.lift (fun counter => counter.sorted.render)
    fun _ _ same => congrArg Json.render (Json.sorted_eq_iff.2 same)

theorem ncard_texts {entries : Records} {address : String}
    (exact : ∀ counter ∈ counters entries address, ¬ counter.HasDouble) :
    (counterTexts entries address).ncard = (counterValues entries address).ncard := by
  have image : counterTexts entries address = textOf '' counterValues entries address := by
    rw [counterValues, Set.image_image]
    rfl
  rw [image]
  -- Two texts that agree are of values that are sorted alike, as none of them has a double.
  refine Set.InjOn.ncard_image ?_
  rintro _ ⟨left, listed, rfl⟩ _ ⟨right, listed', rfl⟩ alike
  have whole := Json.isWhole_sorted (exact left listed)
  have whole' := Json.isWhole_sorted (exact right listed')
  exact Quotient.sound (Json.sorted_eq_iff.1 (Json.render_inj whole whole' alike))

/-! Rearranged coverage. -/

/-- One step by which a coverage is rearranged: the records of an entry are reordered or repeated,
or two entries of different addresses change places. -/
inductive Rearranges : Records → Records → Prop
  | records (before after : Records) (address : String) {records others : List (List Json)}
      (members : ∀ record, record ∈ records ↔ record ∈ others) :
      Rearranges (before ++ (address, records) :: after) (before ++ (address, others) :: after)
  | addresses (before after : Records) {first second : String × List (List Json)}
      (differ : first.1 ≠ second.1) :
      Rearranges (before ++ first :: second :: after) (before ++ second :: first :: after)

theorem Rearranges.addresses_eq {left right : Records} (step : Rearranges left right) :
    Report.addresses left = Report.addresses right := by
  cases step with
  | records => simp [Report.addresses]
  | addresses before after differ =>
    ext address
    simp only [Report.addresses, List.mem_toFinset, List.map_append, List.map_cons,
      List.mem_append, List.mem_cons]
    tauto

theorem Rearranges.symm {left right : Records} (step : Rearranges left right) :
    Rearranges right left := by
  cases step with
  | records before after address members =>
    exact .records before after address fun record => (members record).symm
  | addresses before after differ => exact .addresses before after differ.symm

theorem Rearranges.isLast {left right : Records} (step : Rearranges left right) {address : String}
    {records : List (List Json)} (last : IsLast left address records) :
    ∃ others, IsLast right address others ∧ ∀ record, record ∈ records ↔ record ∈ others := by
  cases step with
  | @records before after name given others members =>
    -- The last entry of the address is behind the changed one, is that one or is before it.
    simp only [Table.isLast_append, Table.isLast_cons, List.forall_mem_cons] at last ⊢
    rcases last with (last | ⟨absent, same⟩) | ⟨⟨differ, absent⟩, last⟩
    · exact ⟨records, .inl (.inl last), fun _ => Iff.rfl⟩
    · obtain ⟨rfl, rfl⟩ := Prod.ext_iff.1 same
      exact ⟨others, .inl (.inr ⟨absent, rfl⟩), members⟩
    · exact ⟨records, .inr ⟨⟨differ, absent⟩, last⟩, fun _ => Iff.rfl⟩
  | addresses before after differ =>
    exact ⟨records, Table.isLast_swap differ last, fun _ => Iff.rfl⟩

theorem Rearranges.counters_subset {left right : Records} (step : Rearranges left right)
    (address : String) : counters left address ⊆ counters right address := by
  rintro counter ⟨records, record, last, listed, begins⟩
  obtain ⟨others, last', members⟩ := step.isLast last
  exact ⟨others, record, last', (members record).1 listed, begins⟩

theorem Rearranges.counters_eq {left right : Records} (step : Rearranges left right)
    (address : String) : counters left address = counters right address :=
  (step.counters_subset address).antisymm (step.symm.counters_subset address)

theorem same_counters_of_rearranged {left right : Records}
    (steps : Relation.ReflTransGen Rearranges left right) :
    addresses left = addresses right ∧
      ∀ address, counters left address = counters right address := by
  induction steps with
  | refl => exact ⟨rfl, fun _ => rfl⟩
  | tail _ step ih =>
    exact ⟨ih.1.trans step.addresses_eq, fun address =>
      (ih.2 address).trans (step.counters_eq address)⟩

/-- Of every output that can be read the distinct counters of its addresses are counted, the last
records of a repeated address being those that count. Outputs whose coverage differs only in the
order of addresses and in the order and the number of records have as many. -/
theorem counters_counted_once {output : String} {report : Report}
    (read : ofOutput output = .ok report) :
    (∃ entries, GivesRecords output entries) ∧
      ∀ entries, GivesRecords output entries →
        ((∀ address, ∀ counter ∈ counters entries address, ¬ counter.HasDouble) →
          uniqueCounters report =
            ∑ address ∈ addresses entries, (counterValues entries address).ncard) ∧
        ∀ other otherReport otherEntries, ofOutput other = .ok otherReport →
          GivesRecords other otherEntries → Relation.ReflTransGen Rearranges entries otherEntries →
          uniqueCounters otherReport = uniqueCounters report := by
  constructor
  · obtain ⟨entries, gives, -⟩ := exists_givesRecords read
    exact ⟨entries, gives⟩
  intro entries gives
  have counted := uniqueCounters_eq_texts (coverage_of_givesRecords read gives)
  constructor
  · intro exact
    rw [counted]
    exact Finset.sum_congr rfl fun address _ => ncard_texts (exact address)
  · intro other otherReport otherEntries read' gives' steps
    -- Texts are counted here, not values, so that doubles need no exception.
    obtain ⟨sameAddresses, sameCounters⟩ := same_counters_of_rearranged steps
    rw [uniqueCounters_eq_texts (coverage_of_givesRecords read' gives'), counted, sameAddresses]
    refine Finset.sum_congr rfl fun address _ => ?_
    rw [counterTexts, counterTexts, sameCounters address]

theorem exists_report {output : String} {count : Nat}
    (counted : (uniqueCounters <$> ofOutput output).toOption = some count) :
    ∃ report, ofOutput output = .ok report ∧ uniqueCounters report = count := by
  cases read : ofOutput output with
  | error fault =>
    rw [read] at counted
    cases counted
  | ok report =>
    rw [read] at counted
    exact ⟨report, rfl, Option.some.inj counted⟩

def orderRecords : List (List Json) :=
  [[.object [("x", .bool true), ("y", .null)]], [.object [("y", .null), ("x", .bool true)]]]

def repeatedRecords : Records :=
  [("a", [[.number (.natural 5)]]), ("b", orderRecords),
    ("a", [[.number (.natural 1), .null], [], [.text "1"]])]

def rearrangedRecords : Records :=
  [("b", orderRecords), ("a", [[.number (.natural 5)]]),
    ("a", [[.text "1"], [.number (.natural 1), .null], [.text "1"], []])]

def repeatedText : String :=
  "\x7b\"coverage\":\x7b\"a\":[[5]]," ++
    "\"b\":[[\x7b\"x\":true,\"y\":null\x7d],[\x7b\"y\":null,\"x\":true\x7d]]," ++
    "\"a\":[[1,null],[],[\"1\"]]\x7d\x7d"

def rearrangedText : String :=
  "\x7b\"coverage\":\x7b" ++
    "\"b\":[[\x7b\"x\":true,\"y\":null\x7d],[\x7b\"y\":null,\"x\":true\x7d]]," ++
    "\"a\":[[5]],\"a\":[[\"1\"],[1,null],[\"1\"],[]]\x7d\x7d"

set_option maxRecDepth 8000 in
theorem gives_repeatedRecords : GivesRecords repeatedText repeatedRecords :=
  .given (mt stripPreamble_isBlank_iff.2 (by decide +kernel)) rfl

set_option maxRecDepth 8000 in
theorem gives_rearrangedRecords : GivesRecords rearrangedText rearrangedRecords :=
  .given (mt stripPreamble_isBlank_iff.2 (by decide +kernel)) rfl

theorem rearranges_repeatedRecords :
    Relation.ReflTransGen Rearranges repeatedRecords rearrangedRecords := by
  have moved : Rearranges repeatedRecords _ := .addresses [] _ (by decide)
  refine .head moved (.single (.records [_, _] [] "a" fun record => ?_))
  simp only [List.mem_cons, List.not_mem_nil]
  tauto

theorem exact_repeatedRecords (address : String) :
    ∀ counter ∈ counters repeatedRecords address, ¬ counter.HasDouble := by
  have number (value : Nat) : ¬ (Json.number (.natural value)).HasDouble := nofun
  have text (value : String) : ¬ (Json.text value).HasDouble := nofun
  have bool (value : Bool) : ¬ (Json.bool value).HasDouble := nofun
  have null : ¬ Json.null.HasDouble := nofun
  have object : ¬ (Json.object [("x", .bool true), ("y", .null)]).HasDouble :=
    Json.not_hasDouble_object (by simp [bool, null])
  have object' : ¬ (Json.object [("y", .null), ("x", .bool true)]).HasDouble :=
    Json.not_hasDouble_object (by simp [bool, null])
  have each : ∀ entry ∈ repeatedRecords, ∀ record ∈ entry.2, ∀ counter ∈ record.head?,
      ¬ counter.HasDouble := by
    simp [repeatedRecords, orderRecords, number, text, object, object']
  rintro counter ⟨records, record, last, listed, begins⟩
  exact each (address, records) last.mem record listed counter begins

theorem counters_counted_once_repeated :
    ∃ report other, ofOutput repeatedText = .ok report ∧
      ofOutput rearrangedText = .ok other ∧
      ∑ address ∈ addresses repeatedRecords, (counterValues repeatedRecords address).ncard = 3 ∧
      uniqueCounters other = 3 := by
  have counts : (uniqueCounters <$> ofOutput repeatedText).toOption = some 3 := by decide +kernel
  have counts' : (uniqueCounters <$> ofOutput rearrangedText).toOption.isSome := by decide +kernel
  obtain ⟨report, read, three⟩ := exists_report counts
  obtain ⟨other, read', -⟩ := exists_report (Option.some_get counts').symm
  obtain ⟨counted, unchanged⟩ :=
    (counters_counted_once read).2 repeatedRecords gives_repeatedRecords
  refine ⟨report, other, read, read', (counted exact_repeatedRecords).symm.trans three, ?_⟩
  exact (unchanged rearrangedText other rearrangedRecords read' gives_rearrangedRecords
    rearranges_repeatedRecords).trans three

end FuzzBridge.Report
