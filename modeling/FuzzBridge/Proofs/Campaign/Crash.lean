import FuzzBridge.Campaign.External
import FuzzBridge.Proofs.Campaign.Report

/-!
What a fuzzer that fails is taken for. It counts as crashed if it wrote nothing but white space, or
if it wrote JSON that cannot be read. Diagnostics alone hide the crash: a text that is not blank and
has no JSON reads as a report of nothing.
-/

namespace FuzzBridge

/-- The program has ended by itself, and not well. -/
def Program.Ending.isFailure : Ending → Bool
  | .exited status => status ≠ 0
  | .killed _ => true
  | .late | .refused _ => false

/-- What a text that is not blank reports: nothing if no line of it begins like JSON, and otherwise
what can be read from there on. -/
inductive Report.IsReportOf : Report → List Char → Prop
  | silent {text : List Char} (written : text.all Text.isBlank = false) (silent : IsSilent text) :
    IsReportOf .empty text
  | json {report : Report} {text : List Char} (spoken : ¬ IsSilent text)
    (read : (Json.Document.ofText (Text.ofChars (stripPreamble text))).read readReport =
      .ok report) : IsReportOf report text

theorem Report.isReportOf_iff {report : Report} {output : String}
    (written : output.toList.all Text.isBlank = false) :
    report.IsReportOf output.toList ↔ ofOutput output = .ok report := by
  by_cases silent : IsSilent output.toList
  · rw [ofOutput_of_isSilent silent]
    constructor
    · rintro (⟨-, -⟩ | ⟨spoken, -⟩)
      · rfl
      · exact absurd silent spoken
    · intro same
      obtain rfl := Except.ok.inj same
      exact .silent written silent
  · have shown := mt stripPreamble_isBlank_iff.1 silent
    rw [ofOutput, if_neg shown]
    constructor
    · rintro (⟨-, quiet⟩ | ⟨-, read⟩)
      · exact absurd quiet silent
      · rw [read]
    · intro h
      split at h
      · next report' read =>
        obtain rfl := Except.ok.inj h
        exact .json silent read
      · cases h

namespace ExternalFuzzer

open Program (Outcome)

variable {fuzzer : ExternalFuzzer}

theorem outputOf_of_isFailure {outcome : Outcome} (failed : outcome.ending.isFailure = true)
    {limit : Duration} (limited : limit.isEndless = false) {text : String}
    (written : Text.ofBytes? outcome.output = some text) (engine : String) :
    outputOf engine limit outcome = .ok text := by
  unfold outputOf
  cases ending : outcome.ending with
  | exited status => simp [limited, written]
  | killed signal => simp [limited, written]
  | late => simp [ending, Program.Ending.isFailure] at failed
  | refused reason => simp [ending, Program.Ending.isFailure] at failed

theorem not_isSuccess_of_isFailure {ending : Program.Ending} (failed : ending.isFailure = true) :
    isSuccess ending = false := by
  cases ending <;> simp_all [Program.Ending.isFailure, isSuccess]

theorem reportOf_of_isFailure {outcome : Outcome} (failed : outcome.ending.isFailure = true)
    (limited : fuzzer.limit.isEndless = false) {text : String}
    (written : Text.ofBytes? outcome.output = some text) :
    fuzzer.reportOf outcome =
      if text.toList.all Text.isBlank then
        .error (.crashed fuzzer.program
          ("exited with " ++ outcome.ending.shown ++ " and no report"))
      else match Report.ofOutput text with
        | .ok report => .ok report
        | .error _ =>
          .error (.crashed fuzzer.program ("exited with " ++ outcome.ending.shown)) := by
  unfold reportOf FuzzBridge.reportOf
  rw [outputOf_of_isFailure failed limited written, not_isSuccess_of_isFailure failed]
  simp only [bind, Except.bind, Bool.not_false, Bool.true_and, Bool.false_eq_true, if_false]
  split
  · rfl
  · cases Report.ofOutput text <;> rfl

/-- A fuzzer that has failed, whatever its program is and did, is either taken for crashed or has
the report of its text. -/
theorem failure_is_crash_or_report {σ : Type} (launch : Launcher σ) (fuzzer : ExternalFuzzer)
    (request : FuzzRequest) (site : Site σ) {outcome : Outcome}
    (ended : (launch fuzzer.limit fuzzer.program request.arguments [] site).1 = outcome)
    (failed : outcome.ending.isFailure = true) (limited : fuzzer.limit.isEndless = false)
    {text : String} (written : Text.ofBytes? outcome.output = some text) :
    (∀ report, (fuzzer.runWith launch request site).1 = .ok report ↔
      report.IsReportOf text.toList) ∧
      ∀ fault, (fuzzer.runWith launch request site).1 = .error fault →
        fault = .crashed fuzzer.program ("exited with " ++ outcome.ending.shown ++
          if text.toList.all Text.isBlank then " and no report" else "") := by
  have answer : (fuzzer.runWith launch request site).1 = fuzzer.reportOf outcome := by
    rw [← ended]
    rfl
  rw [answer, reportOf_of_isFailure failed limited written]
  by_cases blank : text.toList.all Text.isBlank = true
  · rw [if_pos blank, if_pos blank]
    refine ⟨fun report => ⟨nofun, ?_⟩, ?_⟩
    · rintro (⟨shown, -⟩ | ⟨spoken, -⟩)
      · rw [blank] at shown
        cases shown
      · exact absurd (Report.isSilent_of_isBlank blank) spoken
    · rintro _ ⟨⟩
      rw [String.append_assoc]
  · rw [if_neg blank, if_neg blank]
    have reads {report : Report} :
        report.IsReportOf text.toList ↔ Report.ofOutput text = .ok report :=
      Report.isReportOf_iff (Bool.eq_false_iff.2 blank)
    simp only [reads]
    cases Report.ofOutput text with
    | ok report => exact ⟨fun _ => by simp, nofun⟩
    | error fault =>
      refine ⟨fun _ => ⟨nofun, nofun⟩, ?_⟩
      rintro _ ⟨⟩
      rw [String.append_empty]

def exiting (status : Nat) (text : String) : Launcher Unit := fun _ _ _ _ =>
  pure ⟨.exited status, Text.encode text⟩

def hourly : ExternalFuzzer := ⟨"echidna", .ofMilliseconds 3600000⟩

def vaultRequest : FuzzRequest := ⟨"Vault.sol", none, none, "corpus", none⟩

def vaultSite : Site Unit := .start ⟨"/home", Table.empty⟩ ()

def reportingText : String := "Loaded 2 transactions\n\x7b\"tests\": []\x7d\n"

theorem failure_is_crash_or_report_reporting :
    (hourly.runWith (exiting 3 reportingText) vaultRequest vaultSite).1 = .ok .empty := by
  have written : Text.ofBytes? (Text.encode reportingText) = some reportingText := by
    decide +kernel
  have spoken : ¬ Report.IsSilent reportingText.toList := by decide
  have outcome := failure_is_crash_or_report (exiting 3 reportingText) hourly vaultRequest
    vaultSite rfl (by decide) (by decide) written
  exact (outcome.1 .empty).2 (.json spoken rfl)

def complaint : String := "compilation failed\n"

/-- A crash with diagnostics and without a report is taken for a clean run. -/
theorem crash_hidden_by_diagnostics :
    (exiting 1 complaint hourly.limit hourly.program vaultRequest.arguments [] vaultSite).1 =
        ⟨.exited 1, Text.encode complaint⟩ ∧
      Text.ofBytes? (Text.encode complaint) = some complaint ∧
      Report.IsSilent complaint.toList ∧
      (hourly.runWith (exiting 1 complaint) vaultRequest vaultSite).1 = .ok .empty := by
  have written : Text.ofBytes? (Text.encode complaint) = some complaint := by decide +kernel
  have silent : Report.IsSilent complaint.toList := by decide
  refine ⟨rfl, written, silent, ?_⟩
  have failed : (Program.Ending.exited 1).isFailure = true := by decide
  have answer : (hourly.runWith (exiting 1 complaint) vaultRequest vaultSite).1 = _ :=
    reportOf_of_isFailure failed (by decide) written
  rw [answer, if_neg (by decide), Report.ofOutput_of_isSilent silent]

end ExternalFuzzer

end FuzzBridge
