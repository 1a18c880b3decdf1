import FuzzBridge.Proofs.Encoding.FunctionCall

/-!
The variables that occur in an encoding. They are its leaves, in another order where a dynamic item
stands behind static ones that follow it: each leaf occurs once, and nothing else does.
-/

namespace FuzzBridge

def Leaf.symbol (leaf : Leaf) : Nat × String := (leaf.bits, leaf.name)

namespace Encoding

def Item.symbols (item : Item) : List (Nat × String) := item.terms.flatMap Term.symbols

@[simp] theorem symbols_word (value : Nat) : (word value).symbols = [] := rfl

@[simp] theorem symbols_padding (length : Nat) : (padding length).flatMap Term.symbols = [] := by
  unfold padding
  split <;> simp

theorem symbols_byteSymbols (place : Place) (index : Nat) (bytes : List UInt8) :
    (byteSymbols place index bytes).flatMap Term.symbols =
      (byteLeaves place index bytes).map Leaf.symbol := by
  induction bytes generalizing index with
  | nil => rfl
  | cons byte rest ih =>
    rw [byteSymbols, List.flatMap_cons, ih, byteLeaves, List.map_cons]
    rfl

theorem symbols_heads_perm (offset : Nat) (items : List Item) :
    ((heads offset items).flatMap Term.symbols ++ (tails items).flatMap Term.symbols).Perm
      (items.flatMap Item.symbols) := by
  induction items generalizing offset with
  | nil => rfl
  | cons item rest ih =>
    unfold heads
    rw [tails, List.flatMap_cons, List.flatMap_cons, List.flatMap_append, ← tails]
    split
    · -- A dynamic item's own variables stand behind the heads of the rest.
      rw [List.flatMap_cons, symbols_word, List.nil_append, ← Item.symbols, ← List.append_assoc]
      refine (List.perm_append_comm.append_right _).trans ?_
      rw [List.append_assoc]
      exact (ih _).append_left _
    · rw [List.flatMap_append, List.flatMap_nil, List.nil_append, ← Item.symbols,
        List.append_assoc]
      exact (ih _).append_left _

theorem symbols_layout_perm (items : List Item) :
    ((layout items).flatMap Term.symbols).Perm (items.flatMap Item.symbols) := by
  rw [layout, List.flatMap_append]
  exact symbols_heads_perm _ items

theorem symbols_items_perm {elements : List Datum}
    (each : ∀ value ∈ elements, ∀ type place,
      ((terms type place value).flatMap Term.symbols).Perm
        ((leaves type place value).map Leaf.symbol))
    (types : List ArgType) (placeOf : Nat → Place) (index : Nat) :
    ((items types placeOf index elements).flatMap Item.symbols).Perm
      ((leavesFrom types placeOf index elements).map Leaf.symbol) := by
  induction elements generalizing types index with
  | nil => simp [items, leavesFrom]
  | cons value rest ih =>
    cases types with
    | nil => simp [items, leavesFrom]
    | cons type types =>
      rw [items, leavesFrom, List.flatMap_cons, List.map_append]
      exact (each value (by simp) type _).append
        (ih (fun value member => each value (List.mem_cons_of_mem _ member)) types _)

theorem symbols_terms_perm (type : ArgType) (place : Place) (value : Datum) :
    ((terms type place value).flatMap Term.symbols).Perm
      ((leaves type place value).map Leaf.symbol) := by
  induction value using Datum.induction generalizing type place with
  | int value => cases type <;> simp [terms, leaves, Leaf.symbol, Leaf.ofInt, Leaf.name]
  | bool value => simp [terms, leaves, Leaf.symbol, Leaf.ofBool, Leaf.name]
  | bytes value =>
    have bytes := symbols_byteSymbols place 0 value
    cases type <;> simp [terms, leaves, bytes]
  | seq elements ih =>
    have inner (types : List ArgType) :=
      (symbols_layout_perm (items types place.element 0 elements)).trans
        (symbols_items_perm ih types place.element 0)
    cases type <;> simp only [terms, leaves, List.flatMap_cons, symbols_word, List.nil_append]
    case fixedArray length element => exact inner _
    case array element => exact inner _
    case tuple types => exact inner types
    all_goals rfl

theorem symbols_callTerms_perm (function : String) (types : List ArgType) (transaction : String)
    (values : List Datum) :
    (CallData.symbols ⟨callTerms function types transaction values⟩).Perm
      ((callLeaves types transaction values).map Leaf.symbol) := by
  rw [CallData.symbols, callTerms, List.flatMap_cons, Term.symbols_word, List.nil_append]
  exact (symbols_layout_perm _).trans
    (symbols_items_perm (fun value _ type place => symbols_terms_perm type place value) types _ 0)

end Encoding

end FuzzBridge
