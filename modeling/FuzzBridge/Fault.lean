import FuzzBridge.Argument.Datum
import FuzzBridge.Argument.Type
import FuzzBridge.Duration
import FuzzBridge.Json.Printer
import FuzzBridge.Text.ByteText
import FuzzBridge.Text.Quoted

/-!
What can go wrong, by cause, and the message of each cause.
-/

namespace FuzzBridge

/-- Data that is well-formed and means nothing here. -/
inductive Unsupported where
  | hexInteger (text : String)
  | decimalInteger (text : String)
  | notByte (character : Char)
  | mismatch (value : Datum) (type : ArgType)
  | model (value : Json)
  | modelNumber (name : String) (value : Numeral)
  | modelNegative (name text : String)
  | modelValue (name : String) (value : Json)

inductive GraphFault where
  | repeated (signature contract : String)
  | tooMany (contract : String)
  | unknownParent (signature parent contract : String)

inductive StorageFault where
  | notFound | isADirectory | notADirectory | alreadyExists | nameTooLong | invalidName | notText
  deriving DecidableEq

/-- Why an external program gave no answer. A malformed output without a reason is JSON of the wrong
shape, or none. A limit is endless if no clock gets as far. -/
inductive EngineFault where
  | endless
  | timeout (engine : String) (limit : Duration)
  | crashed (engine reason : String)
  | malformedOutput (engine : String) (reason : Option String)

inductive Fault where
  | unsupported (cause : Unsupported)
  | graph (cause : GraphFault)
  | config (path : String)
  | storage (cause : StorageFault)
  | noFreeName (stem ending : String)
  | engine (cause : EngineFault)
  | json (flaw : Json.Flaw)

abbrev Result (α : Type) := Except Fault α

def Unsupported.message : Unsupported → String
  | .hexInteger text => "invalid hex integer " ++ Text.quoted text
  | .decimalInteger text => "invalid decimal integer " ++ Text.quoted text
  | .notByte character =>
    "character " ++ Text.quotedCharacter character ++ " in byte string is not a byte"
  | .mismatch value type => "value " ++ value.shown ++ " doesn't match type " ++ type.name
  | .model value => "model must be a JSON object, got " ++ value.sorted.render
  | .modelNumber name value =>
    "model value for " ++ name ++ " is not an unsigned integer: " ++ (Json.number value).render
  | .modelNegative name text => "model value for " ++ name ++ " is negative: " ++ text
  | .modelValue name value =>
    "unsupported model value for " ++ name ++ ": " ++ value.sorted.render

def GraphFault.message : GraphFault → String
  | .repeated signature contract => "function " ++ signature ++ " listed twice for " ++ contract
  | .tooMany contract => "too many functions in " ++ contract
  | .unknownParent signature parent contract =>
    signature ++ " depends on unknown function " ++ parent ++ " in " ++ contract

def StorageFault.message : StorageFault → String
  | .notFound => "No such file or directory (os error 2)"
  | .isADirectory => "Is a directory (os error 21)"
  | .notADirectory => "Not a directory (os error 20)"
  | .alreadyExists => "File exists (os error 17)"
  | .nameTooLong => "File name too long (os error 36)"
  | .invalidName => "file name contained an unexpected NUL byte"
  | .notText => "stream did not contain valid UTF-8"

/-- `none` where the reason is a flaw of a JSON text, which has no wording of its own, and for a
limit that cannot be set. -/
def EngineFault.message? : EngineFault → Option String
  | .endless => none
  | .timeout engine limit => some (engine ++ " timed out after " ++ limit.shown)
  | .crashed engine reason => some (engine ++ " crashed: " ++ reason)
  | .malformedOutput engine reason =>
    reason.map fun reason => engine ++ " produced malformed output: " ++ reason

def Fault.message? : Fault → Option String
  | .unsupported cause => some ("unsupported format: " ++ cause.message)
  | .graph cause => some ("malformed dataflow graph: " ++ cause.message)
  | .config path => some ("failed to parse config file " ++ Text.quoted path)
  | .storage cause => some cause.message
  | .noFreeName stem ending =>
    some ("can't find an available filename for " ++ stem ++ "_<n>" ++ ending)
  | .engine cause => cause.message?
  | .json _ => none

def readHex (text : String) : Result Nat :=
  match Number.ofHex? text with
  | some value => .ok value
  | none => .error (.unsupported (.hexInteger text))

def readDecimal (text : String) : Result Int :=
  match Number.ofDecimal? text with
  | some value => .ok value
  | none => .error (.unsupported (.decimalInteger text))

def readBytes (text : String) : Result (List UInt8) :=
  match Text.bytesOf text with
  | .ok bytes => .ok bytes
  | .error character => .error (.unsupported (.notByte character))

end FuzzBridge
