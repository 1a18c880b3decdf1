import FuzzBridge.Storage.Basic

/-!
Names for new files: a stem, a number and an ending. The smallest free number is taken.
-/

namespace FuzzBridge.Storage

def nameLimit : Nat := 100000

def numbered (stem ending : String) (number : Nat) : String :=
  stem ++ "_" ++ toString number ++ ending

def freeFrom (storage : Storage) (stem ending : String) : Nat → Nat → Option String
  | 0, _ => none
  | count + 1, number =>
    let path := numbered stem ending number
    if storage.occupied path then storage.freeFrom stem ending count (number + 1) else some path

def freeName (storage : Storage) (stem ending : String) : Result String :=
  match storage.freeFrom stem ending nameLimit 0 with
  | some path => .ok path
  | none => .error (.noFreeName stem ending)

end FuzzBridge.Storage
