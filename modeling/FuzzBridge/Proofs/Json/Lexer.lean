import Mathlib.Tactic.IntervalCases
import FuzzBridge.Json.Lexer
import FuzzBridge.Json.Printer
import FuzzBridge.Proofs.Json.Numeral
import FuzzBridge.Proofs.Number.Numeral

/-!
The tokens of a printed value. A numeral ends only at the character after it, so what follows a
value has to be known: in a printed value it is a separator or the end of a container.
-/

namespace FuzzBridge.Json

mutual

/-- All numbers are whole ones of at most 64 bits. -/
def IsPlain : Json → Prop
  | .number (.natural value) => value < Nat.pow 2 64
  | .number _ => False
  | .array items => AllPlain items
  | .object members => MembersPlain members
  | _ => True
termination_by structural value => value

def AllPlain : List Json → Prop
  | [] => True
  | item :: rest => item.IsPlain ∧ AllPlain rest
termination_by structural items => items

def MembersPlain : List (String × Json) → Prop
  | [] => True
  | (_, value) :: rest => value.IsPlain ∧ MembersPlain rest
termination_by structural members => members

end

mutual

def tokensOf : Json → List Token
  | .null => [.null]
  | .bool value => [.bool value]
  | .number value => [.number (some value)]
  | .text value => [.text (some value)]
  | .array [] => [.bracketOpen, .bracketClose]
  | .array (item :: rest) => .bracketOpen :: tokensOf item ++ itemTokens rest
  | .object [] => [.braceOpen, .braceClose]
  | .object ((key, value) :: rest) =>
    .braceOpen :: .text (some key) :: .colon :: tokensOf value ++ memberTokens rest
termination_by structural value => value

def itemTokens : List Json → List Token
  | [] => [.bracketClose]
  | item :: rest => .comma :: tokensOf item ++ itemTokens rest
termination_by structural items => items

def memberTokens : List (String × Json) → List Token
  | [] => [.braceClose]
  | (key, value) :: rest =>
    .comma :: .text (some key) :: .colon :: tokensOf value ++ memberTokens rest
termination_by structural members => members

end

theorem induction {motive : Json → Prop} (null : motive .null)
    (bool : ∀ value, motive (.bool value)) (number : ∀ value, motive (.number value))
    (text : ∀ value, motive (.text value))
    (array : ∀ items, (∀ item ∈ items, motive item) → motive (.array items))
    (object : ∀ members, (∀ member ∈ members, motive member.2) → motive (.object members))
    (value : Json) : motive value :=
  Json.rec (motive_2 := fun items => ∀ item ∈ items, motive item)
    (motive_3 := fun members => ∀ member ∈ members, motive member.2)
    (motive_4 := fun member => motive member.2)
    null bool number text array object (fun _ member => absurd member List.not_mem_nil)
    (fun _ _ first rest => List.forall_mem_cons.2 ⟨first, rest⟩)
    (fun _ member => absurd member List.not_mem_nil)
    (fun _ _ first rest => List.forall_mem_cons.2 ⟨first, rest⟩) (fun _ _ inner => inner) value

/-- The tokens of a text whose first ones have been read, last first. -/
def lex (read : List Token) (text : List Char) : List Token :=
  (text.foldl Lexer.feedChar ⟨read, .gap⟩).finish

theorem tokens_ofChars (text : List Char) : tokens (Text.ofChars text) = lex [] text := by
  rw [tokens, Text.ofChars, List.foldl_map]
  rfl

/-- The text is over, or the container of the value goes on or ends. -/
def IsEnd (rest : List Char) : Prop := ∀ c, rest.head? = some c → c = ',' ∨ c = ']' ∨ c = '}'

theorem isEnd_renderItems (items : List Json) (rest : List Char) :
    IsEnd (renderItems items ++ rest) := by
  intro c first
  cases items <;> simp [renderItems] at first <;> simp [← first]

theorem isEnd_renderMembers (members : List (String × Json)) (rest : List Char) :
    IsEnd (renderMembers members ++ rest) := by
  intro c first
  cases members <;> simp [renderMembers] at first <;> simp [← first]

theorem lex_gap {gap : List Char} (blank : gap.all Lexer.isSpace = true) (read : List Token)
    (text : List Char) : lex read (gap ++ text) = lex read text := by
  induction gap with
  | nil => rfl
  | cons c rest ih =>
    rw [List.all_cons, Bool.and_eq_true] at blank
    have skipped : Lexer.feedChar ⟨read, .gap⟩ c = ⟨read, .gap⟩ := if_pos blank.1
    rw [lex, List.cons_append, List.foldl_cons, skipped, ← lex, ih blank.2]

/-! Quoted texts. -/

variable {read : List Token} {rest : List Char}

theorem pushCode_of_lt {chars : List Char} {code : Nat} (small : code < 0x20) {phase : TextPhase} :
    TextState.pushCode ⟨chars, true, none, phase⟩ code =
      ⟨Char.ofNat code :: chars, true, none, .plain⟩ := by
  have low : ¬ (0xDC00 ≤ code ∧ code ≤ 0xDFFF) := by omega
  have high : ¬ (0xD800 ≤ code ∧ code ≤ 0xDBFF) := by omega
  simp [TextState.pushCode, TextState.push, low, high]

theorem feedChar_escapeChar (read : List Token) (chars : List Char) (c : Char) :
    (escapeChar c).foldl Lexer.feedChar ⟨read, .text ⟨chars, true, none, .plain⟩⟩ =
      ⟨read, .text ⟨c :: chars, true, none, .plain⟩⟩ := by
  unfold escapeChar
  split
  · next quote => subst quote; rfl
  split
  · next backslash => subst backslash; rfl
  split
  · next newline => subst newline; rfl
  split
  · next carriage => subst carriage; rfl
  split
  · next tab => subst tab; rfl
  split
  · next backspace =>
    obtain rfl : c = Char.ofNat 8 := Char.toNat_inj.1 backspace
    rfl
  split
  · next feed =>
    obtain rfl : c = Char.ofNat 12 := Char.toNat_inj.1 feed
    rfl
  split
  · next control =>
    have zero : Number.digit? 16 '0' = some 0 := by decide
    have first := Number.digit?_digitChar (by omega : c.toNat / 16 < 16) (by decide)
    have second := Number.digit?_digitChar (by omega : c.toNat % 16 < 16) (by decide)
    have code : c.toNat / 16 * 16 + c.toNat % 16 = c.toNat := Nat.div_add_mod' c.toNat 16
    simp [Lexer.feedChar, Lexer.feedText, zero, first, second, code, pushCode_of_lt control,
      Char.ofNat_toNat]
  · next quote backslash _ _ _ _ _ printed =>
    simp [Lexer.feedChar, Lexer.feedText, quote, backslash, printed, TextState.push]

theorem feedChar_escaped (read : List Token) (chars text : List Char) :
    (text.flatMap escapeChar).foldl Lexer.feedChar ⟨read, .text ⟨chars, true, none, .plain⟩⟩ =
      ⟨read, .text ⟨text.reverse ++ chars, true, none, .plain⟩⟩ := by
  induction text generalizing chars with
  | nil => rfl
  | cons c text ih =>
    rw [List.flatMap_cons, List.foldl_append, feedChar_escapeChar, ih, List.reverse_cons,
      List.append_assoc]
    rfl

theorem lex_renderText (text : String) :
    lex read (renderText text ++ rest) = lex (.text (some text) :: read) rest := by
  unfold lex renderText
  rw [List.cons_append, List.cons_append, List.append_assoc, List.foldl_cons, List.foldl_append]
  have opened : Lexer.feedChar ⟨read, .gap⟩ '"' = ⟨read, .text ⟨[], true, none, .plain⟩⟩ := rfl
  rw [opened, feedChar_escaped, List.singleton_append, List.foldl_cons, List.append_nil]
  simp [Lexer.feedChar, Lexer.feedText, Lexer.emit, TextState.token]

/-! Numerals. -/

theorem isDigit_digitChar {digit : Nat} (h : digit < 10) :
    isDigit (Nat.digitChar digit) = true := by
  have table : ∀ digit < 10, isDigit (Nat.digitChar digit) = true := by decide
  exact table digit h

theorem feedChar_toDigits (read : List Token) (value : Nat) :
    (Nat.toDigits 10 value).foldl Lexer.feedChar ⟨read, .gap⟩ =
      ⟨read, .number (.start false (if value = 0 then .zero else .whole)
        (Nat.toDigits 10 value).reverse)⟩ := by
  induction value using Nat.strongRecOn with
  | ind value ih =>
    rw [Nat.toDigits_eq_if (by decide)]
    split
    · next digit =>
      have table : ∀ digit < 10, Lexer.feedChar ⟨read, .gap⟩ (Nat.digitChar digit) =
          ⟨read, .number (.start false (if digit = 0 then .zero else .whole)
            [Nat.digitChar digit])⟩ := by
        intro digit h
        interval_cases digit <;> rfl
      exact table value digit
    · next more =>
      have positive : value / 10 ≠ 0 := by omega
      have nonzero : value ≠ 0 := by omega
      have last := isDigit_digitChar (Nat.mod_lt value (by decide : 0 < 10))
      rw [List.foldl_append, ih (value / 10) (by omega), if_neg positive, if_neg nonzero]
      simp [Lexer.feedChar, NumberState.feed?, NumberState.start, last]

theorem lex_toDigits {value : Nat} (small : value < Nat.pow 2 64) (after : IsEnd rest) :
    lex read (Nat.toDigits 10 value ++ rest) =
      lex (.number (some (.natural value)) :: read) rest := by
  unfold lex
  rw [List.foldl_append, feedChar_toDigits]
  have token : NumberState.token (.start false (if value = 0 then .zero else .whole)
      (Nat.toDigits 10 value).reverse) = .number (some (.natural value)) := by
    split <;> simp [NumberState.token, NumberState.start, Numeral.ofParts?_toDigits small]
  cases rest with
  | nil => simp [Lexer.finish, Lexer.emit, token]
  | cons c rest =>
    -- The character after the numeral ends it, and is then read like after any other token.
    have notDigit : isDigit c = false := by
      rcases after c rfl with rfl | rfl | rfl <;> rfl
    have notPart : NumberState.feed? (.start false (if value = 0 then .zero else .whole)
        (Nat.toDigits 10 value).reverse) c = none := by
      rcases after c rfl with rfl | rfl | rfl <;> split <;> rfl
    rw [List.foldl_cons, List.foldl_cons]
    simp [Lexer.feedChar, notPart, token, notDigit, Lexer.emit]

/-! Values. -/

/-- The printed value is read as its tokens, whatever has been read before it. -/
def LexesAs (value : Json) : Prop :=
  ∀ read rest, IsEnd rest →
    lex read (renderChars value ++ rest) = lex ((tokensOf value).reverse ++ read) rest

theorem lex_comma (text : List Char) : lex read (',' :: text) = lex (.comma :: read) text := rfl

theorem lex_bracketOpen (text : List Char) :
    lex read ('[' :: text) = lex (.bracketOpen :: read) text := rfl

theorem lex_braceOpen (text : List Char) :
    lex read ('{' :: text) = lex (.braceOpen :: read) text := rfl

theorem lex_colon (text : List Char) : lex read (':' :: text) = lex (.colon :: read) text := rfl

theorem lex_renderItems {items : List Json}
    (each : ∀ item ∈ items, item.IsPlain → item.LexesAs) (plain : AllPlain items) :
    lex read (renderItems items ++ rest) = lex ((itemTokens items).reverse ++ read) rest := by
  induction items generalizing read with
  | nil => rfl
  | cons item items ih =>
    have first := each item (by simp) plain.1 (.comma :: read) _ (isEnd_renderItems items rest)
    rw [renderItems, List.append_assoc, List.cons_append, lex_comma, first,
      ih (fun item member => each item (List.mem_cons_of_mem _ member)) plain.2, itemTokens]
    simp

theorem lex_member {value : Json} (inner : value.LexesAs) (key : String) (after : IsEnd rest) :
    lex read (renderText key ++ ':' :: renderChars value ++ rest) =
      lex ((tokensOf value).reverse ++ .colon :: .text (some key) :: read) rest := by
  rw [List.append_assoc, lex_renderText, List.cons_append, lex_colon, inner _ rest after]

theorem lex_renderMembers {members : List (String × Json)}
    (each : ∀ member ∈ members, member.2.IsPlain → member.2.LexesAs)
    (plain : MembersPlain members) :
    lex read (renderMembers members ++ rest) =
      lex ((memberTokens members).reverse ++ read) rest := by
  induction members generalizing read with
  | nil => rfl
  | cons member members ih =>
    obtain ⟨key, value⟩ := member
    have inner : value.LexesAs := each (key, value) (by simp) plain.1
    rw [renderMembers, List.append_assoc, List.cons_append, List.cons_append, lex_comma,
      lex_member inner key (isEnd_renderMembers members rest),
      ih (fun member inside => each member (List.mem_cons_of_mem _ inside)) plain.2, memberTokens]
    simp

theorem lexesAs_of_isPlain {value : Json} (plain : value.IsPlain) : value.LexesAs := by
  induction value using Json.induction with
  | null => exact fun _ _ _ => rfl
  | bool value => cases value <;> exact fun _ _ _ => rfl
  | number value =>
    cases value with
    | natural value => exact fun _ _ after => lex_toDigits plain after
    | negative magnitude => exact plain.elim
    | double value => exact plain.elim
  | text value => exact fun _ _ _ => lex_renderText value
  | array items ih =>
    intro read rest _
    cases items with
    | nil => rfl
    | cons item items =>
      have first : item.LexesAs := ih item (by simp) plain.1
      rw [renderChars, List.append_assoc, List.cons_append, lex_bracketOpen,
        first _ _ (isEnd_renderItems items rest),
        lex_renderItems (fun item member => ih item (List.mem_cons_of_mem _ member)) plain.2,
        tokensOf]
      simp
  | object members ih =>
    intro read rest _
    cases members with
    | nil => rfl
    | cons member members =>
      obtain ⟨key, value⟩ := member
      have first : value.LexesAs := ih (key, value) (by simp) plain.1
      rw [renderChars, List.append_assoc, List.cons_append, List.cons_append, lex_braceOpen,
        lex_member first key (isEnd_renderMembers members rest),
        lex_renderMembers (fun member inside => ih member (List.mem_cons_of_mem _ inside)) plain.2,
        tokensOf]
      simp

theorem tokens_render {value : Json} (plain : value.IsPlain) :
    tokens (Text.ofChars value.render.toList) = tokensOf value := by
  have whole := lexesAs_of_isPlain plain [] [] nofun
  rw [List.append_nil, List.append_nil] at whole
  rw [tokens_ofChars, render, String.toList_ofList, whole]
  simp [lex, Lexer.finish]

end FuzzBridge.Json
