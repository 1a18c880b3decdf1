import FuzzBridge.Proofs.Json.Lexer

/-!
Values that are printed alike are the same value, if their numbers are whole. The first character of
a printed value tells what kind of value it is, and from there on its print ends where the value
does; only a numeral needs the character after it to end.
-/

namespace FuzzBridge.Json

/-- No number of the value is a double. -/
inductive IsWhole : Json → Prop
  | null : IsWhole .null
  | bool (value : Bool) : IsWhole (.bool value)
  | natural (value : Nat) : IsWhole (.number (.natural value))
  | negative (magnitude : Nat) : IsWhole (.number (.negative magnitude))
  | text (value : String) : IsWhole (.text value)
  | array {items : List Json} (each : ∀ item ∈ items, item.IsWhole) : IsWhole (.array items)
  | object {members : List (String × Json)} (each : ∀ member ∈ members, member.2.IsWhole) :
      IsWhole (.object members)

variable {rest rest' : List Char}

/-! Quoted texts. -/

def escapedChars : List Char := '"' :: '\\' :: (List.range 0x20).map Char.ofNat

theorem escapeChar_of_notMem {c : Char} (plain : c ∉ escapedChars) : escapeChar c = [c] := by
  have quote : c ≠ '"' := fun same => plain (by simp [escapedChars, same])
  have backslash : c ≠ '\\' := fun same => plain (by simp [escapedChars, same])
  have printed : ¬ c.toNat < 0x20 := by
    intro control
    have listed : Char.ofNat c.toNat ∈ escapedChars :=
      List.mem_cons_of_mem _ (List.mem_cons_of_mem _
        (List.mem_map.2 ⟨c.toNat, List.mem_range.2 control, rfl⟩))
    exact plain (Char.ofNat_toNat c ▸ listed)
  have newline : c ≠ '\n' := fun same => printed (by simp [same])
  have carriage : c ≠ '\r' := fun same => printed (by simp [same])
  have tab : c ≠ '\t' := fun same => printed (by simp [same])
  rw [escapeChar, if_neg quote, if_neg backslash, if_neg newline, if_neg carriage, if_neg tab,
    if_neg (by omega), if_neg (by omega), if_neg printed]

theorem head_escapeChar (c : Char) :
    ∃ first more, escapeChar c = first :: more ∧ first ≠ '"' ∧
      (first = '\\' ↔ c ∈ escapedChars) := by
  by_cases listed : c ∈ escapedChars
  · have table : (escapedChars.all fun c => (escapeChar c).head? = some '\\') = true := by decide
    have backslashes : (escapeChar c).head? = some '\\' :=
      of_decide_eq_true (List.all_eq_true.1 table c listed)
    obtain ⟨first, more, shown⟩ := List.exists_cons_of_ne_nil
      (show escapeChar c ≠ [] from fun empty => by simp [empty] at backslashes)
    have backslash : first = '\\' := by simpa [shown] using backslashes
    exact ⟨first, more, shown, by simp [backslash], by simp [backslash, listed]⟩
  · refine ⟨c, [], escapeChar_of_notMem listed, ?_, ?_⟩
    · exact fun same => listed (by simp [escapedChars, same])
    · exact ⟨fun same => by simp [escapedChars, same], fun inside => absurd inside listed⟩

theorem eq_of_escapeChar_begins {c d : Char} (h : escapeChar c <+: escapeChar d) : c = d := by
  obtain ⟨first, more, shown, -, escaped⟩ := head_escapeChar c
  obtain ⟨first', more', shown', -, escaped'⟩ := head_escapeChar d
  obtain ⟨rfl, -⟩ : first = first' ∧ _ := by
    rwa [shown, shown', List.cons_prefix_cons] at h
  by_cases listed : c ∈ escapedChars
  · have table : (escapedChars.all fun c => escapedChars.all fun d =>
        escapeChar c <+: escapeChar d → c = d) = true := by decide +kernel
    have row := List.all_eq_true.1 table c listed
    exact of_decide_eq_true (List.all_eq_true.1 row d (escaped'.1 (escaped.2 listed))) h
  · have unlisted : d ∉ escapedChars := fun inside => listed (escaped.1 (escaped'.2 inside))
    rw [escapeChar_of_notMem listed, escapeChar_of_notMem unlisted] at h
    simpa using h

theorem escapeChar_append_inj {c d : Char} (h : escapeChar c ++ rest = escapeChar d ++ rest') :
    c = d ∧ rest = rest' := by
  have same : c = d := by
    rcases List.prefix_or_prefix_of_prefix (List.prefix_append (escapeChar c) rest)
      (h ▸ List.prefix_append (escapeChar d) rest') with shorter | longer
    · exact eq_of_escapeChar_begins shorter
    · exact (eq_of_escapeChar_begins longer).symm
  subst same
  exact ⟨rfl, List.append_cancel_left h⟩

theorem ne_quote_of_escapeChar {c : Char} : escapeChar c ++ rest ≠ '"' :: rest' := by
  obtain ⟨first, more, shown, quote, -⟩ := head_escapeChar c
  rw [shown, List.cons_append]
  exact fun same => quote (List.cons.inj same).1

theorem escaped_append_inj {left right : List Char}
    (h : left.flatMap escapeChar ++ '"' :: rest = right.flatMap escapeChar ++ '"' :: rest') :
    left = right ∧ rest = rest' := by
  induction left generalizing right with
  | nil =>
    cases right with
    | nil => exact ⟨rfl, (List.cons.inj h).2⟩
    | cons d right =>
      rw [List.flatMap_cons, List.append_assoc] at h
      exact absurd h.symm ne_quote_of_escapeChar
  | cons c left ih =>
    rw [List.flatMap_cons, List.append_assoc] at h
    cases right with
    | nil => exact absurd h ne_quote_of_escapeChar
    | cons d right =>
      rw [List.flatMap_cons, List.append_assoc] at h
      obtain ⟨rfl, later⟩ := escapeChar_append_inj h
      obtain ⟨rfl, rests⟩ := ih later
      exact ⟨rfl, rests⟩

theorem renderText_append_inj {left right : String}
    (h : renderText left ++ rest = renderText right ++ rest') : left = right ∧ rest = rest' := by
  simp only [renderText, List.cons_append, List.append_assoc, List.cons.injEq, true_and] at h
  obtain ⟨chars, rests⟩ := escaped_append_inj h
  exact ⟨String.toList_injective chars, rests⟩

/-! Numerals. -/

theorem takeWhile_toDigits (value : Nat) (after : IsEnd rest) :
    (Nat.toDigits 10 value ++ rest).takeWhile Char.isDigit = Nat.toDigits 10 value := by
  have digits : ∀ c ∈ Nat.toDigits 10 value, c.isDigit = true := fun _ member =>
    Nat.isDigit_of_mem_toDigits (by decide) (by decide) member
  have stops : rest.takeWhile Char.isDigit = [] := by
    cases rest with
    | nil => rfl
    | cons c more =>
      rcases after c rfl with rfl | rfl | rfl <;> rfl
  rw [List.takeWhile_append_of_pos digits, stops, List.append_nil]

theorem toDigits_append_inj {left right : Nat} (after : IsEnd rest) (after' : IsEnd rest')
    (h : Nat.toDigits 10 left ++ rest = Nat.toDigits 10 right ++ rest') :
    left = right ∧ rest = rest' := by
  have digits := congrArg (List.takeWhile Char.isDigit) h
  rw [takeWhile_toDigits left after, takeWhile_toDigits right after'] at digits
  have same := congrArg Numeral.natOf digits
  rw [Numeral.natOf_toDigits, Numeral.natOf_toDigits] at same
  subst same
  exact ⟨rfl, List.append_cancel_left h⟩

theorem toDigits_begins (value : Nat) :
    ∃ first more, Nat.toDigits 10 value = first :: more ∧ first.isDigit = true := by
  obtain ⟨first, more, shown⟩ := List.exists_cons_of_ne_nil
    (Nat.toDigits_ne_nil (b := 10) (n := value))
  exact ⟨first, more, shown,
    Nat.isDigit_of_mem_toDigits (by decide) (by decide) (shown ▸ List.mem_cons_self)⟩

theorem ne_minus_of_toDigits (value : Nat) : Nat.toDigits 10 value ++ rest ≠ '-' :: rest' := by
  obtain ⟨first, more, shown, digit⟩ := toDigits_begins value
  rw [shown, List.cons_append]
  intro same
  obtain rfl := (List.cons.inj same).1
  cases digit

/-! Kinds. -/

/-- Values of one kind; of booleans each is a kind of its own. -/
inductive Alike : Json → Json → Prop
  | null : Alike .null .null
  | bool (value : Bool) : Alike (.bool value) (.bool value)
  | number (left right : Numeral) : Alike (.number left) (.number right)
  | text (left right : String) : Alike (.text left) (.text right)
  | array (left right : List Json) : Alike (.array left) (.array right)
  | object (left right : List (String × Json)) : Alike (.object left) (.object right)

/-- What all values of a kind begin with, if it is not a kind of numbers. -/
def mark : Json → Option Char
  | .null => some 'n'
  | .bool value => some (if value then 't' else 'f')
  | .number _ => none
  | .text _ => some '"'
  | .array _ => some '['
  | .object _ => some '{'

def markOf (c : Char) : Option Char := if c = '-' ∨ c.isDigit then none else some c

theorem alike_of_mark {left right : Json} (same : left.mark = right.mark) : Alike left right := by
  cases left with
  | bool value =>
    cases right with
    | bool value' =>
      have values : value = value' := by
        cases value <;> cases value' <;> simp [mark] at same <;> rfl
      exact values ▸ .bool value
    | _ => cases value <;> simp [mark] at same
  | _ =>
    cases right with
    | bool value' => cases value' <;> simp [mark] at same
    | _ => first | constructor | simp [mark] at same

theorem markOf_renderChars {value : Json} (whole : value.IsWhole) (rest : List Char) :
    ∃ first more, value.renderChars ++ rest = first :: more ∧ markOf first = value.mark := by
  cases whole with
  | null => exact ⟨'n', _, rfl, rfl⟩
  | bool value => cases value <;> exact ⟨_, _, rfl, rfl⟩
  | natural value =>
    obtain ⟨first, more, shown, digit⟩ := toDigits_begins value
    refine ⟨first, more ++ rest, ?_, if_pos (.inr digit)⟩
    rw [renderChars, renderNumeral, shown, List.cons_append]
  | negative magnitude => exact ⟨'-', _, rfl, rfl⟩
  | text value => exact ⟨'"', _, rfl, rfl⟩
  | @array items each => cases items <;> exact ⟨'[', _, rfl, rfl⟩
  | @object members each => cases members <;> exact ⟨'{', _, rfl, rfl⟩

theorem alike_of_renderChars {left right : Json} (whole : left.IsWhole) (whole' : right.IsWhole)
    (h : left.renderChars ++ rest = right.renderChars ++ rest') : Alike left right := by
  obtain ⟨first, more, shown, known⟩ := markOf_renderChars whole rest
  obtain ⟨first', more', shown', known'⟩ := markOf_renderChars whole' rest'
  rw [shown, shown'] at h
  refine alike_of_mark ?_
  rw [← known, ← known', (List.cons.inj h).1]

theorem ne_close_of_renderChars {value : Json} (whole : value.IsWhole) :
    value.renderChars ++ rest ≠ ']' :: rest' := by
  obtain ⟨first, more, shown, known⟩ := markOf_renderChars whole rest
  rw [shown]
  intro same
  obtain rfl := (List.cons.inj same).1
  have closing : markOf ']' = some ']' := rfl
  rw [closing] at known
  cases value with
  | bool value => cases value <;> simp [mark] at known
  | _ => simp [mark] at known

/-! Values. -/

/-- A text that begins with the printed value begins with no other one. -/
def IsDelimited (left : Json) : Prop :=
  ∀ right rest rest', right.IsWhole → IsEnd rest → IsEnd rest' →
    renderChars left ++ rest = renderChars right ++ rest' → left = right ∧ rest = rest'

theorem renderItems_append_inj {left right : List Json} (each : ∀ item ∈ left, item.IsDelimited)
    (whole : ∀ item ∈ right, item.IsWhole)
    (h : renderItems left ++ rest = renderItems right ++ rest') : left = right ∧ rest = rest' := by
  induction left generalizing right with
  | nil =>
    cases right with
    | nil => exact ⟨rfl, (List.cons.inj h).2⟩
    | cons item right => simp [renderItems] at h
  | cons item left ih =>
    cases right with
    | nil => simp [renderItems] at h
    | cons other right =>
      rw [List.forall_mem_cons] at each whole
      simp only [renderItems, List.cons_append, List.append_assoc, List.cons.injEq, true_and] at h
      obtain ⟨rfl, later⟩ := each.1 _ _ _ whole.1 (isEnd_renderItems left rest)
        (isEnd_renderItems right rest') h
      obtain ⟨rfl, rests⟩ := ih each.2 whole.2 later
      exact ⟨rfl, rests⟩

theorem member_append_inj {member other : String × Json} (inner : member.2.IsDelimited)
    (whole : other.2.IsWhole) (after : IsEnd rest) (after' : IsEnd rest')
    (h : renderText member.1 ++ ':' :: (renderChars member.2 ++ rest) =
      renderText other.1 ++ ':' :: (renderChars other.2 ++ rest')) :
    member = other ∧ rest = rest' := by
  obtain ⟨keys, values⟩ := renderText_append_inj h
  obtain ⟨same, rests⟩ := inner _ _ _ whole after after' (List.cons.inj values).2
  exact ⟨Prod.ext keys same, rests⟩

theorem renderMembers_append_inj {left right : List (String × Json)}
    (each : ∀ member ∈ left, member.2.IsDelimited) (whole : ∀ member ∈ right, member.2.IsWhole)
    (h : renderMembers left ++ rest = renderMembers right ++ rest') :
    left = right ∧ rest = rest' := by
  induction left generalizing right with
  | nil =>
    cases right with
    | nil => exact ⟨rfl, (List.cons.inj h).2⟩
    | cons member right => simp [renderMembers] at h
  | cons member left ih =>
    cases right with
    | nil => simp [renderMembers] at h
    | cons other right =>
      rw [List.forall_mem_cons] at each whole
      simp only [renderMembers, List.cons_append, List.append_assoc, List.cons.injEq,
        true_and] at h
      obtain ⟨rfl, later⟩ := member_append_inj each.1 whole.1 (isEnd_renderMembers left rest)
        (isEnd_renderMembers right rest') h
      obtain ⟨rfl, rests⟩ := ih each.2 whole.2 later
      exact ⟨rfl, rests⟩

theorem array_append_inj {left right : List Json} (each : ∀ item ∈ left, item.IsDelimited)
    (whole : ∀ item ∈ left, item.IsWhole) (whole' : ∀ item ∈ right, item.IsWhole)
    (h : renderChars (.array left) ++ rest = renderChars (.array right) ++ rest') :
    left = right ∧ rest = rest' := by
  cases left with
  | nil =>
    cases right with
    | nil => exact ⟨rfl, List.append_cancel_left h⟩
    | cons other right =>
      rw [List.forall_mem_cons] at whole'
      simp only [renderChars, List.cons_append, List.append_assoc, List.nil_append,
        List.cons.injEq, true_and] at h
      exact absurd h.symm (ne_close_of_renderChars whole'.1)
  | cons item left =>
    rw [List.forall_mem_cons] at each whole
    cases right with
    | nil =>
      simp only [renderChars, List.cons_append, List.append_assoc, List.nil_append,
        List.cons.injEq, true_and] at h
      exact absurd h (ne_close_of_renderChars whole.1)
    | cons other right =>
      rw [List.forall_mem_cons] at whole'
      simp only [renderChars, List.cons_append, List.append_assoc, List.cons.injEq,
        true_and] at h
      obtain ⟨rfl, later⟩ := each.1 _ _ _ whole'.1 (isEnd_renderItems left rest)
        (isEnd_renderItems right rest') h
      obtain ⟨rfl, rests⟩ := renderItems_append_inj each.2 whole'.2 later
      exact ⟨rfl, rests⟩

theorem object_append_inj {left right : List (String × Json)}
    (each : ∀ member ∈ left, member.2.IsDelimited) (whole' : ∀ member ∈ right, member.2.IsWhole)
    (h : renderChars (.object left) ++ rest = renderChars (.object right) ++ rest') :
    left = right ∧ rest = rest' := by
  cases left with
  | nil =>
    cases right with
    | nil => exact ⟨rfl, List.append_cancel_left h⟩
    | cons other right => simp [renderChars, renderText] at h
  | cons member left =>
    cases right with
    | nil => simp [renderChars, renderText] at h
    | cons other right =>
      rw [List.forall_mem_cons] at each whole'
      simp only [renderChars, List.cons_append, List.append_assoc, List.cons.injEq,
        true_and] at h
      obtain ⟨rfl, later⟩ := member_append_inj each.1 whole'.1 (isEnd_renderMembers left rest)
        (isEnd_renderMembers right rest') h
      obtain ⟨rfl, rests⟩ := renderMembers_append_inj each.2 whole'.2 later
      exact ⟨rfl, rests⟩

theorem isDelimited_of_isWhole {left : Json} (whole : left.IsWhole) : left.IsDelimited := by
  induction left using Json.induction with
  | null | bool value =>
    intro right rest rest' whole' _ _ h
    cases alike_of_renderChars whole whole' h
    exact ⟨rfl, List.append_cancel_left h⟩
  | number numeral =>
    intro right rest rest' whole' after after' h
    cases alike_of_renderChars whole whole' h
    cases whole with
    | natural value =>
      cases whole' with
      | natural value' =>
        obtain ⟨rfl, rests⟩ := toDigits_append_inj after after' h
        exact ⟨rfl, rests⟩
      | negative magnitude => exact absurd h (ne_minus_of_toDigits value)
    | negative magnitude =>
      cases whole' with
      | natural value' => exact absurd h.symm (ne_minus_of_toDigits value')
      | negative magnitude' =>
        obtain ⟨rfl, rests⟩ := toDigits_append_inj after after' (List.cons.inj h).2
        exact ⟨rfl, rests⟩
  | text value =>
    intro right rest rest' whole' _ _ h
    cases alike_of_renderChars whole whole' h
    obtain ⟨rfl, rests⟩ := renderText_append_inj h
    exact ⟨rfl, rests⟩
  | array items ih =>
    intro right rest rest' whole' _ _ h
    cases alike_of_renderChars whole whole' h
    cases whole with
    | array each =>
      cases whole' with
      | array each' =>
        obtain ⟨rfl, rests⟩ := array_append_inj
          (fun item member => ih item member (each item member)) each each' h
        exact ⟨rfl, rests⟩
  | object members ih =>
    intro right rest rest' whole' _ _ h
    cases alike_of_renderChars whole whole' h
    cases whole with
    | object each =>
      cases whole' with
      | object each' =>
        obtain ⟨rfl, rests⟩ := object_append_inj
          (fun member inside => ih member inside (each member inside)) each' h
        exact ⟨rfl, rests⟩

theorem render_inj {left right : Json} (whole : left.IsWhole) (whole' : right.IsWhole)
    (h : left.render = right.render) : left = right := by
  have chars := congrArg (· ++ []) (String.ofList_injective h)
  exact (isDelimited_of_isWhole whole right [] [] whole' nofun nofun chars).1

end FuzzBridge.Json
