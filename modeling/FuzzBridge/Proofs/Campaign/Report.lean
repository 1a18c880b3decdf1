import FuzzBridge.Campaign.Report

/-!
Where the report in an output begins. White space before it may reach over line ends, and yet an
output has a report exactly if one of its lines begins like JSON. An output without such a line
reads as a report of nothing.
-/

namespace FuzzBridge.Report

def lines (text : List Char) : List (List Char) := text.splitOn '\n'

/-- No line begins, after white space, like a JSON object or array. -/
def IsSilent (text : List Char) : Prop := ∀ line ∈ lines text, opens line = false

instance (text : List Char) : Decidable (IsSilent text) :=
  inferInstanceAs (Decidable (∀ line ∈ lines text, opens line = false))

theorem lines_lineEnd (rest : List Char) : lines ('\n' :: rest) = [] :: lines rest := by
  simp [lines, List.splitOn_eq_splitOnP, List.splitOnP_cons_eq_if_modifyHead]

theorem lines_cons {c : Char} (inside : c ≠ '\n') (rest : List Char) :
    lines (c :: rest) = (lines rest).modifyHead (c :: ·) := by
  simp [lines, List.splitOn_eq_splitOnP, List.splitOnP_cons_eq_if_modifyHead, inside]

theorem exists_lines (text : List Char) : ∃ first others, lines text = first :: others :=
  List.exists_cons_of_ne_nil (List.splitOn_ne_nil '\n' text)

theorem opens_of_isBlank {c : Char} (blank : Text.isBlank c = true) (rest : List Char) :
    opens (c :: rest) = opens rest := by
  simp [opens, Text.trimStart, blank]

theorem opens_congr {c : Char} (shown : Text.isBlank c = false) (left right : List Char) :
    opens (c :: left) = opens (c :: right) := by
  simp only [opens, Text.trimStart, List.dropWhile_cons, shown, Bool.false_eq_true, if_false]
  split <;> split <;> simp_all

theorem not_isBlank_of_opens {text : List Char} (h : opens text = true) :
    text.all Text.isBlank = false := by
  induction text with
  | nil => cases h
  | cons c rest ih =>
    by_cases blank : Text.isBlank c = true
    · rw [opens_of_isBlank blank] at h
      rw [List.all_cons, ih h, Bool.and_false]
    · rw [List.all_cons, Bool.eq_false_iff.2 blank, Bool.false_and]

/-- Some rest of the text from a line on begins like JSON exactly if some line does. Where a line is
blank, the rest from it on begins like the rest from the next line on. -/
theorem any_opens (text : List Char) :
    (lineStarts text).any opens = (lines text).any opens ∧
      (afterLineEnds text).any opens = (lines text).tail.any opens := by
  induction text with
  | nil => exact ⟨rfl, rfl⟩
  | cons c rest ih =>
    obtain ⟨here, later⟩ := ih
    rw [lineStarts, List.any_cons] at here
    by_cases lineEnd : c = '\n'
    · subst lineEnd
      have blank : Text.isBlank '\n' = true := by decide
      rw [lines_lineEnd, lineStarts, afterLineEnds, if_pos rfl, List.any_cons, List.any_cons,
        opens_of_isBlank blank, here, List.tail_cons, List.any_cons]
      refine ⟨?_, rfl⟩
      rw [← here, ← Bool.or_assoc, Bool.or_self]
      rfl
    · obtain ⟨first, others, split⟩ := exists_lines rest
      rw [split, List.tail_cons] at later
      rw [split, List.any_cons] at here
      rw [lines_cons lineEnd, split, lineStarts, afterLineEnds, if_neg lineEnd,
        List.modifyHead_cons, List.any_cons, List.any_cons, List.tail_cons]
      refine ⟨?_, later⟩
      by_cases blank : Text.isBlank c = true
      · rw [opens_of_isBlank blank, opens_of_isBlank blank, here]
      · rw [later, opens_congr (Bool.eq_false_iff.2 blank) rest first]

theorem isSilent_iff {text : List Char} :
    IsSilent text ↔ ∀ start ∈ lineStarts text, opens start = false := by
  have same := (any_opens text).1
  unfold IsSilent
  simp only [← Bool.not_eq_true, ← List.any_eq_false]
  rw [same]

theorem stripPreamble_isBlank_iff {text : List Char} :
    (stripPreamble text).all Text.isBlank = true ↔ IsSilent text := by
  rw [isSilent_iff, stripPreamble]
  cases found : (lineStarts text).find? opens with
  | none =>
    rw [List.find?_eq_none] at found
    simpa using found
  | some body =>
    have opened := List.find?_some found
    rw [Option.getD_some, not_isBlank_of_opens opened]
    refine ⟨nofun, fun silent => ?_⟩
    rw [silent body (List.mem_of_find?_eq_some found)] at opened
    cases opened

theorem suffix_of_mem_afterLineEnds {text start : List Char} (member : start ∈ afterLineEnds text) :
    start <:+ text := by
  induction text with
  | nil => cases member
  | cons c rest ih =>
    rw [afterLineEnds] at member
    split at member
    · rcases List.mem_cons.1 member with rfl | later
      · exact List.suffix_cons c start
      · exact (ih later).trans (List.suffix_cons c rest)
    · exact (ih member).trans (List.suffix_cons c rest)

theorem suffix_of_mem_lineStarts {text start : List Char} (member : start ∈ lineStarts text) :
    start <:+ text := by
  rcases List.mem_cons.1 member with rfl | later
  · exact List.suffix_rfl
  · exact suffix_of_mem_afterLineEnds later

theorem isSilent_of_isBlank {text : List Char} (blank : text.all Text.isBlank = true) :
    IsSilent text := by
  rw [isSilent_iff]
  intro start member
  rw [← Bool.not_eq_true]
  intro opened
  have shown := not_isBlank_of_opens opened
  rw [List.all_eq_true] at blank
  rw [List.all_eq_false] at shown
  obtain ⟨c, inside, notBlank⟩ := shown
  exact notBlank (blank c ((suffix_of_mem_lineStarts member).subset inside))

theorem ofOutput_of_isSilent {output : String} (silent : IsSilent output.toList) :
    ofOutput output = .ok empty := by
  rw [ofOutput, if_pos (stripPreamble_isBlank_iff.2 silent)]

end FuzzBridge.Report
