import FuzzBridge.Corpus.Entry
import FuzzBridge.Proofs.Record.RoundTrip
import FuzzBridge.Proofs.Record.WriteBack
import FuzzBridge.Proofs.Storage.Write

/-!
Entries of a corpus are read as what was written to them.
-/

namespace FuzzBridge.Corpus

open Record (AreFilled ReadsBack deposit depositModel)

theorem readEntry_of_read {storage : Storage} {path : String} {records : List Record}
    (read : storage.read path = .ok (Text.encode (Record.listToText records)))
    (back : ReadsBack records) : readEntry storage path = .ok records := by
  rw [readEntry, read]
  exact back

theorem readEntry_of_writeEntry {storage written : Storage} {path : String} {records : List Record}
    (back : ReadsBack records) (h : writeEntry storage path records = .ok written) :
    readEntry written path = .ok records := by
  refine readEntry_of_read ?_ back
  unfold writeEntry access at h
  split at h
  · next done write =>
    obtain rfl := Except.ok.inj h
    exact Storage.read_write write
  · cases h

/-- Records survive being written and read if they nest within the limit, which all records do that
were read, and all that were filled in from such. -/
theorem records_survive_writing :
    (∀ records, (Record.listToJson records).depth ≤ 127 → ReadsBack records) ∧
      (∀ text records, Record.listOfText text = .ok records →
        (Record.listToJson records).depth ≤ 127 ∧ ReadsBack records) ∧
      (∀ records filled, (Record.listToJson records).depth ≤ 127 → AreFilled records filled →
        (Record.listToJson filled).depth ≤ 127 ∧ ReadsBack filled) ∧
      (∀ storage path records written, (Record.listToJson records).depth ≤ 127 →
        writeEntry storage path records = .ok written → readEntry written path = .ok records) := by
  refine ⟨fun records => Record.readsBack_of_depth, fun text records read => ?_,
    fun records filled deep areFilled => ?_, fun storage path records written deep => ?_⟩
  · have deep := Record.depth_of_listOfText read
    exact ⟨deep, Record.readsBack_of_depth deep⟩
  · rw [← Record.depth_of_areFilled areFilled] at deep
    exact ⟨deep, Record.readsBack_of_depth deep⟩
  · exact readEntry_of_writeEntry (Record.readsBack_of_depth deep)

/-- A call whose texts need escapes and more than one byte for some characters. -/
def remark : Record where
  action := .call "say\"" [
    .tuple [.fixedArray 2 (.int 8) [.int 8 "-1", .int 8 "none"], .string "a\"b\\c\n\x01é😀"],
    .array (.tuple []) [], .fixedBytes 3 "\x00/\x7f"]
  source := "sender"
  target := ""
  gas := "0x0"
  gasPrice := "0x0"
  value := "0x0"
  timeDelay := "0x1"
  blockDelay := "\t"

def unused : Storage := ⟨"/corpus", Table.empty⟩

theorem records_survive_writing_remark :
    ReadsBack [remark] ∧ (Record.listToJson [remark]).depth ≤ 127 ∧
      ReadsBack [deposit.substitute depositModel "tx0"] ∧
      readEntry (unused.put "remark.txt" (Text.encode (Record.listToText [remark]))) "remark.txt" =
        .ok [remark] := by
  obtain ⟨within, readable, filled, stored⟩ := records_survive_writing
  have back := within [remark] (by decide)
  have isFilled : AreFilled [deposit] [deposit.substitute depositModel "tx0"] :=
    .cons ⟨depositModel, "tx0", Record.fill_eq_substitute Record.deposit_reads depositModel "tx0"⟩
      .nil
  have written : writeEntry unused "remark.txt" [remark] =
      .ok (unused.put "remark.txt" (Text.encode (Record.listToText [remark]))) := by rfl
  exact ⟨back, (readable _ _ back).1, (filled _ _ (by decide) isFilled).2,
    stored _ _ _ _ (by decide) written⟩

end FuzzBridge.Corpus
