import FuzzBridge.Proofs.Campaign.Report
import FuzzBridge.Proofs.Json.Draft

/-!
Diagnostics before a report. The search for the report drops one line after the other, so it comes
to an end, and what it stops at it would stop at again. Blank lines before the report may stay, but
they are white space for the reader of JSON too.
-/

namespace FuzzBridge.Report

def dropLine (text : List Char) : List Char := (afterLineEnds text).headD []

/-- The search from a text on ends at another one: it drops lines until nothing is left or the text
begins like JSON. -/
inductive Strips : List Char → List Char → Prop
  | finished : Strips [] []
  | opened {text : List Char} (opens : opens text = true) : Strips text text
  | line {text body : List Char} (more : text ≠ []) (closed : opens text = false)
    (later : Strips (dropLine text) body) : Strips text body

theorem opens_iff {text : List Char} :
    opens text = true ↔ ∃ c rest, Text.trimStart text = c :: rest ∧ (c = '{' ∨ c = '[') := by
  unfold opens
  split
  · next rest trimmed => simp [trimmed]
  · next rest trimmed => simp [trimmed]
  · next brace bracket =>
    constructor
    · nofun
    · rintro ⟨c, rest, trimmed, rfl | rfl⟩
      · exact absurd trimmed (brace rest)
      · exact absurd trimmed (bracket rest)

theorem dropLine_cons (c : Char) (rest : List Char) :
    dropLine (c :: rest) = if c = '\n' then rest else dropLine rest := by
  unfold dropLine
  rw [afterLineEnds]
  split <;> rfl

theorem dropLine_append {line : List Char} (unbroken : '\n' ∉ line) (rest : List Char) :
    dropLine (line ++ '\n' :: rest) = rest := by
  induction line with
  | nil => rfl
  | cons c line ih =>
    rw [List.mem_cons, not_or] at unbroken
    rw [List.cons_append, dropLine_cons, if_neg (Ne.symm unbroken.1), ih unbroken.2]

theorem length_dropLine_cons (c : Char) (rest : List Char) :
    (dropLine (c :: rest)).length < (c :: rest).length := by
  induction rest generalizing c with
  | nil =>
    rw [dropLine_cons]
    split <;> exact Nat.zero_lt_one
  | cons d rest ih =>
    rw [dropLine_cons]
    split
    · exact Nat.lt_succ_self _
    · exact Nat.lt_succ_of_lt (ih d)

theorem afterLineEnds_eq (text : List Char) :
    afterLineEnds text = [] ∨ afterLineEnds text = lineStarts (dropLine text) := by
  induction text with
  | nil => exact .inl rfl
  | cons c rest ih =>
    rw [dropLine_cons, afterLineEnds]
    split
    · exact .inr rfl
    · exact ih

theorem stripPreamble_of_opens {text : List Char} (h : opens text = true) :
    stripPreamble text = text := by
  rw [stripPreamble, lineStarts, List.find?_cons_of_pos h, Option.getD_some]

theorem stripPreamble_of_closed {text : List Char} (h : opens text = false) :
    stripPreamble text = stripPreamble (dropLine text) := by
  have closed : ¬ opens text = true := Bool.eq_false_iff.1 h
  rw [stripPreamble, lineStarts, List.find?_cons_of_neg closed]
  rcases afterLineEnds_eq text with last | more
  · rw [dropLine, last]
    rfl
  · rw [more, stripPreamble]

theorem strips_stripPreamble (text : List Char) : Strips text (stripPreamble text) := by
  induction h : text.length using Nat.strongRecOn generalizing text with
  | ind length ih =>
    cases text with
    | nil => exact .finished
    | cons c rest =>
      cases opened : opens (c :: rest) with
      | true =>
        rw [stripPreamble_of_opens opened]
        exact .opened opened
      | false =>
        rw [stripPreamble_of_closed opened]
        exact .line (List.cons_ne_nil c rest) opened
          (ih _ (h ▸ length_dropLine_cons c rest) _ rfl)

theorem strips_iff {text body : List Char} : Strips text body ↔ stripPreamble text = body := by
  constructor
  · intro strips
    induction strips with
    | finished => rfl
    | opened h => exact stripPreamble_of_opens h
    | line _ closed _ ih => rw [stripPreamble_of_closed closed, ih]
  · rintro rfl
    exact strips_stripPreamble text

theorem stripPreamble_suffix (text : List Char) : stripPreamble text <:+ text := by
  rw [stripPreamble]
  cases found : (lineStarts text).find? opens with
  | none => exact List.nil_suffix
  | some body => exact suffix_of_mem_lineStarts (List.mem_of_find?_eq_some found)

theorem stripPreamble_eq_nil_or_opens (text : List Char) :
    stripPreamble text = [] ∨ opens (stripPreamble text) = true := by
  rw [stripPreamble]
  cases found : (lineStarts text).find? opens with
  | none => exact .inl rfl
  | some body => exact .inr (List.find?_some found)

theorem stripPreamble_idempotent (text : List Char) :
    stripPreamble (stripPreamble text) = stripPreamble text := by
  rcases stripPreamble_eq_nil_or_opens text with nothing | opened
  · rw [nothing]
    rfl
  · exact stripPreamble_of_opens opened

/-! Diagnostics. -/

/-- A line of which a reader of JSON sees nothing, or one that begins, after white space, with a
character that begins no object or array. -/
def IsDiagnostic (line : List Char) : Prop :=
  '\n' ∉ line ∧ (line.all Json.Lexer.isSpace = true ∨
    ∃ c rest, Text.trimStart line = c :: rest ∧ c ≠ '{' ∧ c ≠ '[')

def withLineEnds (lines : List String) : String := String.join (lines.map (· ++ "\n"))

theorem toList_withLineEnds (lines : List String) :
    (withLineEnds lines).toList = lines.flatMap fun line => line.toList ++ ['\n'] := by
  simp [withLineEnds, String.toList_join, List.flatMap_map]

theorem isBlank_of_isSpace {c : Char} (space : Json.Lexer.isSpace c = true) :
    Text.isBlank c = true := by
  simp only [Json.Lexer.isSpace, Bool.or_eq_true, decide_eq_true_eq] at space
  rcases space with ((rfl | rfl) | rfl) | rfl <;> decide

theorem opens_append_of_isSpace {gap : List Char} (blank : gap.all Json.Lexer.isSpace = true)
    (text : List Char) : opens (gap ++ text) = opens text := by
  induction gap with
  | nil => rfl
  | cons c rest ih =>
    rw [List.all_cons, Bool.and_eq_true] at blank
    rw [List.cons_append, opens_of_isBlank (isBlank_of_isSpace blank.1), ih blank.2]

theorem opens_append_of_shown {line : List Char} {c : Char} {rest : List Char}
    (begins : Text.trimStart line = c :: rest) (brace : c ≠ '{') (bracket : c ≠ '[')
    (text : List Char) : opens (line ++ text) = false := by
  rw [← Bool.not_eq_true, opens_iff]
  have trimmed : Text.trimStart (line ++ text) = c :: (rest ++ text) := by
    unfold Text.trimStart at begins ⊢
    rw [List.dropWhile_append, begins]
    rfl
  rintro ⟨d, others, same, opener⟩
  obtain ⟨rfl, -⟩ := List.cons.inj (trimmed.symm.trans same)
  exact opener.elim brace bracket

/-- Of the diagnostics before a report nothing is left but white space. Blank lines are left where
nothing but blank lines stands between them and the report. -/
theorem stripPreamble_append {lines : List (List Char)}
    (diagnostic : ∀ line ∈ lines, IsDiagnostic line) (text : List Char) :
    ∃ gap, gap.all Json.Lexer.isSpace = true ∧
      stripPreamble (lines.flatMap (· ++ ['\n']) ++ text) = gap ++ stripPreamble text := by
  induction lines with
  | nil => exact ⟨[], rfl, rfl⟩
  | cons line others ih =>
    rw [List.forall_mem_cons] at diagnostic
    obtain ⟨⟨unbroken, kind⟩, later⟩ := diagnostic
    obtain ⟨gap, blank, found⟩ := ih later
    rw [List.flatMap_cons, List.append_assoc, List.append_assoc, List.singleton_append]
    generalize others.flatMap (· ++ ['\n']) ++ text = after at found ⊢
    cases opened : opens (line ++ '\n' :: after) with
    | false =>
      refine ⟨gap, blank, ?_⟩
      rw [stripPreamble_of_closed opened, dropLine_append unbroken, found]
    | true =>
      rcases kind with space | ⟨c, rest, begins, brace, bracket⟩
      · have opensAfter := opened
        rw [opens_append_of_isSpace space, opens_of_isBlank (by decide)] at opensAfter
        rw [stripPreamble_of_opens opensAfter] at found
        refine ⟨line ++ '\n' :: gap, ?_, ?_⟩
        · rw [List.all_append, space, List.all_cons, blank]
          rfl
        · rw [stripPreamble_of_opens opened, found, List.append_assoc, List.cons_append]
      · rw [opens_append_of_shown begins brace bracket] at opened
        cases opened

theorem ofOutput_of_gap {output other : String} {gap : List Char}
    (blank : gap.all Json.Lexer.isSpace = true)
    (found : stripPreamble output.toList = gap ++ stripPreamble other.toList) :
    ofOutput output = ofOutput other := by
  have unseen : gap.all Text.isBlank = true := by
    rw [List.all_eq_true] at blank ⊢
    exact fun c member => isBlank_of_isSpace (blank c member)
  rw [ofOutput, ofOutput, found, List.all_append, unseen, Bool.true_and,
    Json.Document.ofText_gap blank]

/-- Diagnostics before a report change neither its cases nor its counters, nor whether it can be
read. The search for the report ends from every text on, at the end of that text or where the text
begins like JSON, and from there on at once. -/
theorem diagnostics_keep_report {preamble : List String}
    (diagnostic : ∀ line ∈ preamble, IsDiagnostic line.toList) (output : String) :
    cases <$> ofOutput (withLineEnds preamble ++ output) = cases <$> ofOutput output ∧
      uniqueCounters <$> ofOutput (withLineEnds preamble ++ output) =
        uniqueCounters <$> ofOutput output ∧
      ∀ text,
        (∀ body, Strips text body ↔ stripPreamble text = body) ∧
        stripPreamble text <:+ text ∧
        (stripPreamble text = [] ∨ ∃ c rest,
          Text.trimStart (stripPreamble text) = c :: rest ∧ (c = '{' ∨ c = '[')) ∧
        stripPreamble (stripPreamble text) = stripPreamble text := by
  have each : ∀ line ∈ preamble.map String.toList, IsDiagnostic line :=
    List.forall_mem_map.2 diagnostic
  obtain ⟨gap, blank, found⟩ := stripPreamble_append each output.toList
  have same : ofOutput (withLineEnds preamble ++ output) = ofOutput output := by
    refine ofOutput_of_gap blank ?_
    rw [String.toList_append, toList_withLineEnds, ← found, List.flatMap_map]
  rw [same]
  refine ⟨rfl, rfl, fun text => ⟨fun _ => strips_iff, stripPreamble_suffix text, ?_,
    stripPreamble_idempotent text⟩⟩
  exact (stripPreamble_eq_nil_or_opens text).imp_right opens_iff.1

def loadedLines : List String := [" \r", "Loaded total of 500 transactions", "", "\t"]

def solvedText : String :=
  "\x7b\"tests\":[\x7b\"status\":\"solved\",\"transactions\":[" ++
    "\x7b\"function\":\"f\",\"arguments\":[\"1\",\"2\"]\x7d]\x7d]\x7d"

set_option maxRecDepth 4000 in
theorem diagnostics_keep_report_loaded :
    (∀ line ∈ loadedLines, IsDiagnostic line.toList) ∧
      cases <$> ofOutput (withLineEnds loadedLines ++ solvedText) = .ok [["f(1,2)"]] := by
  have diagnostic : ∀ line ∈ loadedLines, IsDiagnostic line.toList := by
    simp only [loadedLines, List.forall_mem_cons, List.not_mem_nil, false_implies, implies_true,
      and_true]
    exact ⟨⟨by decide, .inl rfl⟩, ⟨by decide, .inr ⟨'L', _, rfl, by decide, by decide⟩⟩,
      ⟨by decide, .inl rfl⟩, ⟨by decide, .inl rfl⟩⟩
  refine ⟨diagnostic, (diagnostics_keep_report diagnostic solvedText).1.trans ?_⟩
  rfl

end FuzzBridge.Report
