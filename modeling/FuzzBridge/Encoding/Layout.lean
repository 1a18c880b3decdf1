import FuzzBridge.Argument.Type
import FuzzBridge.Solver.CallData

/-!
How the encodings of a sequence of items are laid out: the static items and one offset for each
dynamic item first, then the dynamic items in order.
-/

namespace FuzzBridge

namespace ArgType

mutual

/-- The bytes that an item takes at its place in a sequence. -/
def headSize : ArgType → Nat
  | .fixedArray length element =>
    if element.isDynamic then 32 else length.toNat * element.headSize
  | .tuple elements => if anyDynamic elements then 32 else headSizes elements
  | _ => 32
termination_by structural type => type

def headSizes : List ArgType → Nat
  | [] => 0
  | element :: rest => element.headSize + headSizes rest
termination_by structural elements => elements

end

end ArgType

namespace Encoding

def word (value : Nat) : Term := .word 256 value

def padding (length : Nat) : List Term :=
  if length % 32 = 0 then [] else [.word ((32 - length % 32) * 8) 0]

structure Item where
  type : ArgType
  terms : List Term

/-- The head of each item; `offset` is where the next dynamic item begins. -/
def heads : Nat → List Item → List Term
  | _, [] => []
  | offset, item :: rest =>
    if item.type.isDynamic then
      word offset :: heads (offset + CallData.byteLength item.terms) rest
    else item.terms ++ heads offset rest

def tails (items : List Item) : List Term :=
  items.flatMap fun item => if item.type.isDynamic then item.terms else []

def layout (items : List Item) : List Term :=
  heads (ArgType.headSizes (items.map (·.type))) items ++ tails items

end Encoding

end FuzzBridge
