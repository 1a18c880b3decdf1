import FuzzBridge.Corpus.Entry
import FuzzBridge.Proofs.Argument.Leaves
import FuzzBridge.Proofs.Encoding.Conformance

/-!
Whose faults they are. Reading an entry and lifting it fails for what the files hold, never as an
engine does.
-/

namespace FuzzBridge

/-- Whether a computation fails for causes of its own only. -/
def IsInternal {α : Type} (result : Result α) : Prop := ∀ cause, result ≠ .error (.engine cause)

namespace IsInternal

variable {α β : Type}

theorem ok (value : α) : IsInternal (.ok value) := nofun

theorem bind {attempt : Result α} {next : α → Result β} (first : IsInternal attempt)
    (second : ∀ value, IsInternal (next value)) : IsInternal (attempt >>= next) := by
  cases attempt with
  | ok value => exact second value
  | error fault =>
    exact fun cause same => first cause (congrArg Except.error (Except.error.inj same))

theorem bind_ok {attempt : Result α} {next : α → Result β} {value : α} (first : attempt = .ok value)
    (second : IsInternal (next value)) : IsInternal (attempt >>= next) := by
  rw [first]
  exact second

theorem map {attempt : Result α} {change : α → β} (inner : IsInternal attempt) :
    IsInternal (change <$> attempt) := by
  cases attempt with
  | ok value => exact ok _
  | error fault =>
    exact fun cause same => inner cause (congrArg Except.error (Except.error.inj same))

theorem unsupported (cause : Unsupported) : IsInternal (.error (.unsupported cause) : Result α) :=
  nofun

theorem readHex (text : String) : IsInternal (readHex text) := by
  unfold FuzzBridge.readHex
  split
  · exact ok _
  · exact unsupported _

theorem readDecimal (text : String) : IsInternal (readDecimal text) := by
  unfold FuzzBridge.readDecimal
  split
  · exact ok _
  · exact unsupported _

theorem readBytes (text : String) : IsInternal (readBytes text) := by
  unfold FuzzBridge.readBytes
  split
  · exact ok _
  · exact unsupported _

/-! Values of arguments. -/

theorem data {arguments : List Argument}
    (each : ∀ argument ∈ arguments, IsInternal argument.datum) :
    IsInternal (Argument.data arguments) := by
  induction arguments with
  | nil => exact ok _
  | cons argument rest ih =>
    rw [List.forall_mem_cons] at each
    exact each.1.bind fun _ => (ih each.2).bind fun _ => ok _

theorem datum (argument : Argument) : IsInternal argument.datum := by
  induction argument using Argument.induction with
  | uint bits digits => exact (readDecimal digits).map
  | int bits digits => exact (readDecimal digits).map
  | address hex => exact (readHex hex).bind fun _ => ok _
  | bool value => exact ok _
  | fixedBytes length text => exact (readBytes text).map
  | bytes text => exact (readBytes text).map
  | string text => exact (readBytes text).map
  | array element elements ih => exact (data ih).map
  | fixedArray length element elements ih => exact (data ih).map
  | tuple elements ih => exact (data ih).map

theorem typedArguments (arguments : List Argument) :
    IsInternal (Record.typedArguments arguments) := by
  induction arguments with
  | nil => exact ok _
  | cons argument rest ih =>
    exact ((datum argument).bind fun _ => ok _).bind fun _ => ih.bind fun _ => ok _

/-! Call data. -/

theorem encodeItems {elements : List Datum}
    (each : ∀ value ∈ elements, ∀ type place assignment,
      IsInternal (Encoding.encode type place assignment value))
    (types : Encoding.ElementTypes) (placeOf : Nat → Place) (index : Nat)
    (assignment : Assignment) :
    IsInternal (Encoding.encodeItems types placeOf index assignment elements) := by
  induction elements generalizing types index assignment with
  | nil => exact ok _
  | cons value rest ih =>
    rw [List.forall_mem_cons] at each
    rw [Encoding.encodeItems]
    split
    · exact ok _
    · exact (each.1 _ _ _).bind fun _ => (ih each.2 _ _ _).bind fun _ => ok _

theorem encode (value : Datum) (type : ArgType) (place : Place) (assignment : Assignment) :
    IsInternal (Encoding.encode type place assignment value) := by
  induction value using Datum.induction generalizing type place assignment with
  | int value => cases type <;> first | exact ok _ | exact unsupported _
  | bool value => cases type <;> first | exact ok _ | exact unsupported _
  | bytes value =>
    cases type with
    | fixedBytes length =>
      rw [Encoding.encode]
      split
      · exact ok _
      · exact unsupported _
    | _ => first | exact ok _ | exact unsupported _
  | seq elements ih =>
    have items := encodeItems ih
    cases type with
    | fixedArray length element =>
      rw [Encoding.encode]
      split
      · exact (items _ _ _ _).bind fun _ => ok _
      · exact unsupported _
    | array element => exact (items _ _ _ _).bind fun _ => ok _
    | tuple types =>
      rw [Encoding.encode]
      split
      · exact (items _ _ _ _).bind fun _ => ok _
      · exact unsupported _
    | _ => exact unsupported _

theorem functionCall (function : String) (arguments : List (ArgType × Datum)) (transaction : String)
    (assignment : Assignment) :
    IsInternal (Encoding.functionCall function arguments transaction assignment) :=
  (encodeItems (fun value _ => encode value) _ _ _ _).bind fun _ => ok _

/-! Records and entries. -/

theorem lift (record : Record) (transaction : String) : IsInternal (record.lift transaction) := by
  refine (readHex _).bind fun _ => (readHex _).bind fun _ => ?_
  cases record.action with
  | wait => exact ok _
  | call function arguments =>
    refine bind ?_ fun _ => ok _
    refine (typedArguments _).bind fun _ => (functionCall _ _ _ _).bind fun _ => ?_
    refine (readHex _).bind fun _ => (readHex _).bind fun _ => (readHex _).bind fun _ => ?_
    exact (readHex _).bind fun _ => (readHex _).bind fun _ => ok _

theorem liftFrom (records : List Record) (position : Nat) :
    IsInternal (Record.liftFrom position records) := by
  induction records generalizing position with
  | nil => exact ok _
  | cons record rest ih => exact (lift record _).bind fun _ => (ih _).bind fun _ => ok _

theorem access (attempt : Storage.Attempt α) : IsInternal (Corpus.access attempt) := by
  cases attempt with
  | ok value => exact ok _
  | error cause => exact nofun

theorem listOfText (text : Text.Decoded) : IsInternal (Record.listOfText text) := by
  unfold Record.listOfText Record.ofRead
  split
  · exact ok _
  · exact nofun

theorem loadEntry (storage : Storage) (path : String) :
    IsInternal (Corpus.loadEntry storage path) :=
  ((access _).bind fun _ => listOfText _).bind fun _ => liftFrom _ _

end IsInternal

end FuzzBridge
