/-!
The hash Keccak-256: a sponge of 25 lanes that takes 136 bytes at a time through 24 rounds.
-/

namespace FuzzBridge.Keccak

/-- Lane `x, y` stands at `x + 5 * y`. -/
abbrev State := Array UInt64

def lane (state : State) (x y : Nat) : UInt64 := state.getD (x % 5 + 5 * (y % 5)) 0

def build (lanes : Nat → Nat → UInt64) : State :=
  Array.ofFn fun index : Fin 25 => lanes (index.val % 5) (index.val / 5)

def rotate (word : UInt64) (count : Nat) : UInt64 :=
  if count = 0 then word
  else (word <<< UInt64.ofNat count) ||| (word >>> UInt64.ofNat (64 - count))

def rotations : Array Nat := #[
  0, 1, 62, 28, 27, 36, 44, 6, 55, 20, 3, 10, 43, 25, 39, 41, 45, 15, 21, 8, 18, 2, 61, 56, 14]

def roundConstants : List UInt64 := [
  0x0000000000000001, 0x0000000000008082, 0x800000000000808A, 0x8000000080008000,
  0x000000000000808B, 0x0000000080000001, 0x8000000080008081, 0x8000000000008009,
  0x000000000000008A, 0x0000000000000088, 0x0000000080008009, 0x000000008000000A,
  0x000000008000808B, 0x800000000000008B, 0x8000000000008089, 0x8000000000008003,
  0x8000000000008002, 0x8000000000000080, 0x000000000000800A, 0x800000008000000A,
  0x8000000080008081, 0x8000000000008080, 0x0000000080000001, 0x8000000080008008]

def theta (state : State) : State :=
  let column := Array.ofFn fun x : Fin 5 =>
    lane state x 0 ^^^ lane state x 1 ^^^ lane state x 2 ^^^ lane state x 3 ^^^ lane state x 4
  let parity (x : Nat) := column.getD (x % 5) 0
  build fun x y => lane state x y ^^^ parity (x + 4) ^^^ rotate (parity (x + 1)) 1

/-- Each lane is rotated and moves to its new place. -/
def rhoPi (state : State) : State :=
  build fun x y =>
    let source := (3 * y + x) % 5
    rotate (lane state source x) (rotations.getD (source + 5 * x) 0)

def chi (state : State) : State :=
  build fun x y => lane state x y ^^^ (~~~ lane state (x + 1) y &&& lane state (x + 2) y)

def round (state : State) (constant : UInt64) : State :=
  (chi (rhoPi (theta state))).modify 0 (· ^^^ constant)

def permute (state : State) : State := roundConstants.foldl round state

def rate : Nat := 136

def word (bytes : List UInt8) : UInt64 :=
  bytes.foldr (fun byte high => high <<< 8 ||| byte.toUInt64) 0

def absorb (state : State) (block : List UInt8) : State :=
  permute (build fun x y =>
    let index := x + 5 * y
    lane state x y ^^^ word ((block.drop (8 * index)).take 8))

/-- A one after the message and a one at the end of the last block. -/
def pad (message : List UInt8) : List UInt8 :=
  let missing := rate - message.length % rate
  if missing = 1 then message ++ [0x81]
  else message ++ 0x01 :: List.replicate (missing - 2) 0 ++ [0x80]

def blocks (message : List UInt8) : List (List UInt8) :=
  let padded := pad message
  (List.range (padded.length / rate)).map fun index => (padded.drop (rate * index)).take rate

def finalState (message : List UInt8) : State :=
  (blocks message).foldl absorb (Array.replicate 25 0)

def firstFour (message : List UInt8) : List UInt8 :=
  let first := (finalState message).getD 0 0
  [first.toUInt8, (first >>> 8).toUInt8, (first >>> 16).toUInt8, (first >>> 24).toUInt8]

end FuzzBridge.Keccak
