import FuzzBridge.Fault
import FuzzBridge.Text.Blank
import FuzzBridge.Text.Utf8

/-!
The report of a fuzzing campaign: which tests the fuzzer solved, and which program counters each
contract was seen at. Diagnostics may stand on the lines before the report.
-/

namespace FuzzBridge

structure ReportedCall where
  function : String
  arguments : List String

structure ReportedTest where
  status : String
  calls : List ReportedCall

/-- `coverage` gives each address its records; the first item of a record is a program counter. -/
structure Report where
  tests : List ReportedTest
  coverage : Table (List (List Json))

namespace Report

def empty : Report := ⟨[], Table.empty⟩

/-- The rest of a text from each place where a line begins. -/
def afterLineEnds : List Char → List (List Char)
  | [] => []
  | c :: rest => if c = '\n' then rest :: afterLineEnds rest else afterLineEnds rest

def lineStarts (text : List Char) : List (List Char) := text :: afterLineEnds text

/-- Whether a text begins, after white space, like a JSON object or array. -/
def opens (text : List Char) : Bool :=
  match Text.trimStart text with
  | '{' :: _ | '[' :: _ => true
  | _ => false

/-- The text from the first line on from which it looks like JSON. -/
def stripPreamble (text : List Char) : List Char := ((lineStarts text).find? opens).getD []

open Json (Read Draft Slot Items)

/-- The fields of an object with at most two known fields, which may stand in an array too. -/
structure Pair (α β : Type) where
  first : Option α
  second : Option β

def Pair.slot {α β : Type} (first second : String) (readFirst : Draft → Read α)
    (readSecond : Draft → Read β) (pair : Pair α β) (key : String) : Slot (Pair α β) :=
  if key = first then match pair.first with
    | some _ => .repeated
    | none => .read fun draft => do return { pair with first := some (← readFirst draft) }
  else if key = second then match pair.second with
    | some _ => .repeated
    | none => .read fun draft => do return { pair with second := some (← readSecond draft) }
  else .unknown

def Pair.ofItems {α β : Type} (readFirst : Draft → Read α) (readSecond : Draft → Read β) :
    Items → Read (Pair α β)
  | .cons first (.cons second rest) => do
    let pair := ⟨some (← readFirst first), some (← readSecond second)⟩
    rest.done
    return pair
  | .cons first rest => do
    let pair := ⟨some (← readFirst first), none⟩
    rest.done
    return pair
  | rest => do
    rest.done
    return ⟨none, none⟩

def Pair.ofDraft {α β : Type} (first second : String) (readFirst : Nat → Draft → Read α)
    (readSecond : Nat → Draft → Read β) (levels : Nat) (draft : Draft) : Read (Pair α β) :=
  draft.fields levels
    (fun levels items => Pair.ofItems (readFirst levels) (readSecond levels) items)
    (fun levels members =>
      members.walk (Pair.slot first second (readFirst levels) (readSecond levels)) ⟨none, none⟩)

def readList {α : Type} (read : Nat → Draft → Read α) (levels : Nat) (draft : Draft) :
    Read (List α) :=
  draft.items levels fun levels items => items.list (read levels)

def readText (_ : Nat) (draft : Draft) : Read String := draft.asText

def readCall (levels : Nat) (draft : Draft) : Read ReportedCall := do
  let pair ← Pair.ofDraft "function" "arguments" readText (readList readText) levels draft
  match pair.first with
  | some function => return ⟨function, pair.second.getD []⟩
  | none => .error .misshapen

def readTest (levels : Nat) (draft : Draft) : Read ReportedTest := do
  let pair ← Pair.ofDraft "status" "transactions" readText (readList readCall) levels draft
  match pair.first with
  | some status => return ⟨status, pair.second.getD []⟩
  | none => .error .misshapen

def readCoverage (levels : Nat) (draft : Draft) : Read (Table (List (List Json))) :=
  draft.table levels (readList (readList fun levels draft => draft.value levels))

def readReport (draft : Draft) : Read Report := do
  let pair ← Pair.ofDraft "tests" "coverage" (readList readTest) readCoverage Json.depthLimit draft
  return ⟨pair.first.getD [], pair.second.getD Table.empty⟩

/-- An output without a report gives an empty report. -/
def ofOutput (output : String) : Result Report :=
  let body := stripPreamble output.toList
  if body.all Text.isBlank then .ok empty
  else match (Json.Document.ofText (Text.ofChars body)).read readReport with
    | .ok report => .ok report
    | .error _ => .error (.json .malformed)

def ReportedCall.shown (call : ReportedCall) : String :=
  call.function ++ "(" ++ ",".intercalate call.arguments ++ ")"

def cases (report : Report) : List (List String) :=
  (report.tests.filter (·.status = "solved")).map fun test => test.calls.map ReportedCall.shown

/-- The different program counters of one contract: counters are the same if they are written the
same. -/
def distinctCounters (records : List (List Json)) : Nat :=
  ((records.filterMap List.head?).map fun counter => counter.sorted.render).eraseDups.length

def uniqueCounters (report : Report) : Nat :=
  (report.coverage.values.map distinctCounters).foldr (· + ·) 0

end Report

end FuzzBridge
