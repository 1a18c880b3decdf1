import FuzzBridge.Campaign.Report
import FuzzBridge.Corpus.Entry

/-!
Coverage listings: a source line that was reached begins with a star, or with an `e` if it was
reached and then reverted.
-/

namespace FuzzBridge.Coverage

def isCovered (line : List Char) : Bool :=
  match line with
  | '*' :: _ | 'e' :: _ => true
  | _ => false

def countLines (text : List Char) : Nat := (Report.lineStarts text).countP isCovered

def ofBytes (bytes : List UInt8) : Result Nat :=
  match Text.sound? (Text.decode bytes) with
  | some text => .ok (countLines text)
  | none => .error (.storage .notText)

def isListing (name : String) : Bool := name.startsWith "covered." && name.endsWith ".txt"

def ofFile (storage : Storage) (path : String) : Result Nat := do
  ofBytes (← Corpus.access (storage.read path))

/-- The listing of a folder with the greatest name, which is the newest one. -/
def latest? (storage : Storage) (folder : String) : Option String :=
  match storage.list folder with
  | .error _ => none
  | .ok found =>
    ((found.map (·.1)).filter isListing).getLast?.map (Path.join folder)

end FuzzBridge.Coverage
