import FuzzBridge.Program.Signal
import FuzzBridge.Storage.Basic

/-!
How a program ends, and what it has written by then.
-/

namespace FuzzBridge.Program

inductive Ending where
  | exited (status : Nat)
  | killed (signal : Nat)
  | late
  | refused (reason : String)

structure Outcome where
  ending : Ending
  output : Bytes

def Ending.shown : Ending → String
  | .exited status => "exit status: " ++ toString status
  | .killed signal => "signal: " ++ Signal.shown signal
  | .late => "timeout"
  | .refused reason => reason

end FuzzBridge.Program
