import FuzzBridge.Json.Reader
import FuzzBridge.Proofs.Json.Lexer

/-!
The draft of a printed value holds the value whole, with nothing after it.
-/

namespace FuzzBridge.Json

mutual

/-- The draft that has all of a value. -/
def draft : Json → Draft
  | .null => .null
  | .bool value => .bool value
  | .number value => .number (some value)
  | .text value => .text (some value)
  | .array items => .array (itemsDraft items)
  | .object members => .object (membersDraft members)
termination_by structural value => value

def itemsDraft : List Json → Items
  | [] => .stop true
  | item :: rest => .cons item.draft (itemsDraft rest)
termination_by structural items => items

def membersDraft : List (String × Json) → Members
  | [] => .stop true
  | (key, value) :: rest => .cons (some key) value.draft (membersDraft rest)
termination_by structural members => members

end

namespace Builder

variable {stack : List Frame} {root : Option Draft} {trailing : Bool}

/-- What was expected before a value is complete does not matter after it. -/
theorem complete_expect (expect other : Expect) (value : Draft) :
    complete ⟨stack, expect, root, trailing⟩ value =
      complete ⟨stack, other, root, trailing⟩ value := by
  cases stack with
  | nil => rfl
  | cons frame rest => cases frame <;> rfl

/-- Where a value may begin, the tokens of this one complete it. -/
def Takes (value : Json) : Prop :=
  ∀ stack expect root trailing, expect = .value ∨ expect = .firstItem →
    (tokensOf value).foldl feed ⟨stack, expect, root, trailing⟩ =
      complete ⟨stack, expect, root, trailing⟩ value.draft

theorem foldl_itemTokens {items : List Json} (each : ∀ item ∈ items, Takes item)
    (before : List Draft) :
    (itemTokens items).foldl feed ⟨.array before :: stack, .separator, root, trailing⟩ =
      complete ⟨stack, .separator, root, trailing⟩
        (.array (before.foldl (fun rest item => .cons item rest) (itemsDraft items))) := by
  induction items generalizing before with
  | nil => rfl
  | cons item items ih =>
    rw [itemTokens, List.cons_append, List.foldl_cons, List.foldl_append]
    have comma : feed ⟨.array before :: stack, .separator, root, trailing⟩ .comma =
        ⟨.array before :: stack, .value, root, trailing⟩ := rfl
    rw [comma, each item (by simp) _ _ _ _ (.inl rfl)]
    exact ih (fun item member => each item (List.mem_cons_of_mem _ member)) (item.draft :: before)

theorem foldl_member {value : Json} (takes : Takes value) (key : String)
    (before : List (Option String × Draft)) {expect : Expect}
    (awaited : expect = .key ∨ expect = .firstKey) :
    (.text (some key) :: .colon :: tokensOf value).foldl feed
        ⟨.object before :: stack, expect, root, trailing⟩ =
      ⟨.object ((some key, value.draft) :: before) :: stack, .separator, root, trailing⟩ := by
  have opened : feed (feed ⟨.object before :: stack, expect, root, trailing⟩ (.text (some key)))
      .colon = ⟨.member before (some key) :: stack, .value, root, trailing⟩ := by
    rcases awaited with rfl | rfl <;> rfl
  rw [List.foldl_cons, List.foldl_cons, opened, takes _ _ _ _ (.inl rfl)]
  rfl

theorem foldl_memberTokens {members : List (String × Json)}
    (each : ∀ member ∈ members, Takes member.2) (before : List (Option String × Draft)) :
    (memberTokens members).foldl feed ⟨.object before :: stack, .separator, root, trailing⟩ =
      complete ⟨stack, .separator, root, trailing⟩
        (.object (before.foldl (fun rest member => .cons member.1 member.2 rest)
          (membersDraft members))) := by
  induction members generalizing before with
  | nil => rfl
  | cons member members ih =>
    obtain ⟨key, value⟩ := member
    rw [memberTokens, List.cons_append, List.foldl_cons, List.foldl_append]
    have comma : feed ⟨.object before :: stack, .separator, root, trailing⟩ .comma =
        ⟨.object before :: stack, .key, root, trailing⟩ := rfl
    rw [comma, foldl_member (each (key, value) (by simp)) key before (.inl rfl)]
    exact ih (fun member inside => each member (List.mem_cons_of_mem _ inside))
      ((some key, value.draft) :: before)

theorem takes (value : Json) : Takes value := by
  -- The frames around the value stay general: its parts are read inside one more.
  induction value using Json.induction with
  | null | bool value | number value | text value =>
    rintro stack _ root trailing (rfl | rfl) <;> rfl
  | array items ih =>
    intro stack expect root trailing awaited
    have opened : feed ⟨stack, expect, root, trailing⟩ .bracketOpen =
        ⟨.array [] :: stack, .firstItem, root, trailing⟩ := by
      rcases awaited with rfl | rfl <;> rfl
    cases items with
    | nil =>
      rw [tokensOf, List.foldl_cons, opened, complete_expect expect .firstItem]
      rfl
    | cons item items =>
      rw [tokensOf, List.cons_append, List.foldl_cons, opened, List.foldl_append,
        ih item (by simp) _ _ _ _ (.inr rfl), complete_expect expect .separator]
      exact foldl_itemTokens (fun item member => ih item (List.mem_cons_of_mem _ member))
        [item.draft]
  | object members ih =>
    intro stack expect root trailing awaited
    have opened : feed ⟨stack, expect, root, trailing⟩ .braceOpen =
        ⟨.object [] :: stack, .firstKey, root, trailing⟩ := by
      rcases awaited with rfl | rfl <;> rfl
    cases members with
    | nil =>
      rw [tokensOf, List.foldl_cons, opened, complete_expect expect .firstKey]
      rfl
    | cons member members =>
      obtain ⟨key, value⟩ := member
      rw [tokensOf, List.cons_append, List.foldl_cons, opened, List.foldl_append,
        foldl_member (ih (key, value) (by simp)) key [] (.inr rfl),
        complete_expect expect .separator]
      exact foldl_memberTokens (fun member inside => ih member (List.mem_cons_of_mem _ inside))
        [(some key, value.draft)]

end Builder

theorem Document.ofTokens_tokensOf (value : Json) :
    Document.ofTokens (tokensOf value) = ⟨value.draft, false⟩ := by
  have whole := Builder.takes value [] .value none false (.inl rfl)
  rw [Document.ofTokens, Builder.start, whole]
  rfl

theorem Document.ofText_gap {gap : List Char} (blank : gap.all Lexer.isSpace = true)
    (text : List Char) :
    Document.ofText (Text.ofChars (gap ++ text)) = Document.ofText (Text.ofChars text) := by
  rw [Document.ofText, Document.ofText, tokens_ofChars, tokens_ofChars, lex_gap blank]

/-- What is printed is read as the value that was printed, and as nothing more. -/
theorem Document.ofText_render {value : Json} (plain : value.IsPlain) :
    Document.ofText (Text.ofChars value.render.toList) = ⟨value.draft, false⟩ := by
  rw [Document.ofText, tokens_render plain, ofTokens_tokensOf]

end FuzzBridge.Json
