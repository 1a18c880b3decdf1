/-!
Signals: their numbers and names, and what they do to a program that does not handle them.
-/

namespace FuzzBridge.Program.Signal

/-- The names of the signals from 1 on. -/
def names : List String :=
  ["HUP", "INT", "QUIT", "ILL", "TRAP", "ABRT", "BUS", "FPE", "KILL", "USR1", "SEGV", "USR2",
    "PIPE", "ALRM", "TERM", "STKFLT", "CHLD", "CONT", "STOP", "TSTP", "TTIN", "TTOU", "URG", "XCPU",
    "XFSZ", "VTALRM", "PROF", "WINCH", "IO", "PWR", "SYS"]

inductive Effect where
  | none | ends | stops
  deriving DecidableEq

def effect (signal : Nat) : Effect :=
  if [0, 17, 18, 23, 28].contains signal then .none
  else if [19, 20, 21, 22].contains signal then .stops
  else .ends

def ofText? (text : String) : Option Nat :=
  if !text.isEmpty && text.toList.all Char.isDigit then
    let number := text.toList.foldl (fun value c => value * 10 + (c.toNat - '0'.toNat)) 0
    if number ≤ 64 then some number else .none
  else
    (names.findIdx? (· = String.ofList (text.toList.map Char.toUpper))).map (· + 1)

def shown (signal : Nat) : String :=
  match names[signal - 1]? with
  | some name => toString signal ++ " (SIG" ++ name ++ ")"
  | .none => toString signal

end FuzzBridge.Program.Signal
