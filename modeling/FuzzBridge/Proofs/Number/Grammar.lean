import FuzzBridge.Proofs.Number.Numeral

/-!
The grammar of integer literals. A text is read if and only if the grammar has it, and what is read
is the number that the text spells.
-/

namespace FuzzBridge.Number

/-- The printed digit of a value, in either case. -/
def IsDigit (base : Nat) (c : Char) (value : Nat) : Prop :=
  value < base ∧ (c = Nat.digitChar value ∨ c = (Nat.digitChar value).toUpper)

/-- The texts of digits, the most significant one first, and the numbers that they spell. An
underscore may stand anywhere but at the beginning. -/
inductive Spells (base : Nat) : List Char → Nat → Prop
  | first {c : Char} {value : Nat} (digit : IsDigit base c value) : Spells base [c] value
  | digit {text : List Char} {c : Char} {high value : Nat} (front : Spells base text high)
      (last : IsDigit base c value) : Spells base (text ++ [c]) (high * base + value)
  | underscore {text : List Char} {value : Nat} (front : Spells base text value) :
      Spells base (text ++ ['_']) value

/-- Digits after at most one plus sign. -/
def IsNatural (base : Nat) (text : List Char) (value : Nat) : Prop :=
  Spells base text value ∨ ∃ digits, text = '+' :: digits ∧ Spells base digits value

/-- Digits after at most one sign. -/
def IsInteger (base : Nat) (text : List Char) (value : Int) : Prop :=
  (∃ magnitude : Nat, IsNatural base text magnitude ∧ value = magnitude) ∨
    ∃ digits, ∃ magnitude : Nat,
      text = '-' :: digits ∧ Spells base digits magnitude ∧ value = -(magnitude : Int)

/-- A text that begins with a hexadecimal base mark, and what follows the mark. -/
def IsMarked (text digits : List Char) : Prop :=
  text = '0' :: 'x' :: digits ∨ text = '0' :: 'X' :: digits

/-- A text with white space around it. -/
def IsPadded (text body : List Char) : Prop :=
  ∃ front back, text = front ++ body ++ back ∧
    (∀ c ∈ front, Text.isBlank c = true) ∧ ∀ c ∈ back, Text.isBlank c = true

variable {base : Nat} {text : List Char} {c : Char} {value : Nat}

/-! Digits. -/

theorem IsDigit.of_digit? (small : base ≤ 16) (read : digit? base c = some value) :
    IsDigit base c value := by
  have figures : ∀ value < 10, Nat.digitChar value = Char.ofNat (value + 48) := by decide
  have letters : ∀ value < 16, 10 ≤ value → Nat.digitChar value = Char.ofNat (value + 87) ∧
      (Nat.digitChar value).toUpper = Char.ofNat (value + 55) := by decide
  simp only [digit?, Option.ite_none_right_eq_some, Option.some.injEq] at read
  obtain ⟨lt, same⟩ := read
  rw [same] at lt
  refine ⟨lt, ?_⟩
  rw [← Char.ofNat_toNat c]
  split at same
  · next range =>
    have low : 48 ≤ c.toNat := range.1
    have high : c.toNat ≤ 57 := range.2
    have code : value + 48 = c.toNat := by simp at same; omega
    exact .inl (by rw [figures value (by omega), code])
  split at same
  · next range =>
    have low : 97 ≤ c.toNat := range.1
    have code : value + 87 = c.toNat := by simp at same; omega
    exact .inl (by rw [(letters value (by omega) (by omega)).1, code])
  split at same
  · next range =>
    have low : 65 ≤ c.toNat := range.1
    have code : value + 55 = c.toNat := by simp at same; omega
    exact .inr (by rw [(letters value (by omega) (by omega)).2, code])
  · omega

theorem IsDigit.read (digit : IsDigit base c value) (small : base ≤ 16) :
    digit? base c = some value := by
  obtain ⟨lt, rfl | rfl⟩ := digit
  · exact digit?_digitChar lt small
  · have table : ∀ value < 16, digit? 16 (Nat.digitChar value).toUpper = some value := by decide
    exact digit?_of_lt (table value (by omega)) lt small

theorem IsDigit.ne_mark (digit : IsDigit base c value) (small : base ≤ 16) :
    c ≠ '_' ∧ c ≠ '+' ∧ c ≠ '-' ∧ Text.isBlank c = false := by
  obtain ⟨lt, rfl | rfl⟩ := digit
  · have lower := (mem_lowerDigits_iff small _).2 ⟨value, lt, rfl⟩
    exact ne_mark_of_mem_lowerDigits (List.mem_of_mem_take lower)
  · have table : ∀ value < 16, (Nat.digitChar value).toUpper ≠ '_' ∧
        (Nat.digitChar value).toUpper ≠ '+' ∧ (Nat.digitChar value).toUpper ≠ '-' ∧
        Text.isBlank (Nat.digitChar value).toUpper = false := by decide
    exact table value (Nat.lt_of_lt_of_le lt small)

theorem Spells.begins (spells : Spells base text value) :
    ∃ c rest first, text = c :: rest ∧ IsDigit base c first := by
  induction spells with
  | first digit => exact ⟨_, [], _, rfl, digit⟩
  | digit _ _ ih | underscore _ ih =>
    obtain ⟨c, rest, first, rfl, digit⟩ := ih
    exact ⟨c, rest ++ [_], first, rfl, digit⟩

theorem Spells.ends (spells : Spells base text value) :
    ∃ front c, text = front ++ [c] ∧ (c = '_' ∨ ∃ last, IsDigit base c last) := by
  cases spells with
  | first digit => exact ⟨[], _, rfl, .inr ⟨_, digit⟩⟩
  | digit front last => exact ⟨_, _, rfl, .inr ⟨_, last⟩⟩
  | underscore front => exact ⟨_, '_', rfl, .inl rfl⟩

theorem Spells.read (spells : Spells base text value) (small : base ≤ 16) :
    digitsFrom? base 0 text = some value := by
  induction spells with
  | first digit => simp [digitsFrom?, (digit.ne_mark small).1, digit.read small]
  | digit _ last ih =>
    rw [digitsFrom?_append, ih, Option.bind_some]
    simp [digitsFrom?, (last.ne_mark small).1, last.read small]
  | underscore _ ih =>
    rw [digitsFrom?_append, ih]
    rfl

theorem Spells.of_digitsFrom? (small : base ≤ 16) (shown : text ≠ [])
    (leading : text.head? ≠ some '_') (read : digitsFrom? base 0 text = some value) :
    Spells base text value := by
  -- Texts of the grammar grow at their end, while digits are read from the front.
  induction text using List.reverseRecOn generalizing value with
  | nil => exact absurd rfl shown
  | append_singleton front c ih =>
    rw [digitsFrom?_append] at read
    obtain ⟨high, before, last⟩ := Option.bind_eq_some_iff.1 read
    by_cases empty : front = []
    · subst empty
      obtain rfl : 0 = high := Option.some.inj before
      have digit : c ≠ '_' := by simpa using leading
      rw [digitsFrom?, if_neg digit] at last
      split at last
      · next value' known =>
        obtain rfl : 0 * base + value' = value := Option.some.inj last
        rw [Nat.zero_mul, Nat.zero_add]
        exact .first (.of_digit? small known)
      · cases last
    · obtain ⟨first, rest, rfl⟩ := List.exists_cons_of_ne_nil empty
      have front := ih empty (by simpa using leading) before
      rw [digitsFrom?] at last
      split at last
      · next underscore =>
        obtain rfl : high = value := Option.some.inj last
        exact underscore ▸ .underscore front
      split at last
      · next value' known =>
        obtain rfl : high * base + value' = value := Option.some.inj last
        exact .digit front (.of_digit? small known)
      · cases last

/-! Literals. -/

theorem natural?_eq_some_iff_spells (small : base ≤ 16) :
    natural? base text = some value ↔ Spells base (dropPlus text) value := by
  unfold natural?
  cases dropPlus text with
  | nil =>
    refine ⟨nofun, fun spells => ?_⟩
    obtain ⟨c, rest, first, same, -⟩ := spells.begins
    cases same
  | cons c rest =>
    constructor
    · intro read
      obtain ⟨digit, read⟩ := Option.ite_none_left_eq_some.1 read
      exact .of_digitsFrom? small (by simp) (by simpa using digit) read
    · intro spells
      obtain ⟨c', rest', first, same, digit⟩ := spells.begins
      obtain ⟨rfl, rfl⟩ := List.cons.inj same
      exact (if_neg (digit.ne_mark small).1).trans (spells.read small)

theorem Spells.not_signed (spells : Spells base text value) (small : base ≤ 16)
    (rest : List Char) : text ≠ '+' :: rest ∧ text ≠ '-' :: rest := by
  obtain ⟨c, tail, first, rfl, digit⟩ := spells.begins
  obtain ⟨-, plus, minus, -⟩ := digit.ne_mark small
  constructor
  · intro same
    exact plus (List.cons.inj same).1
  · intro same
    exact minus (List.cons.inj same).1

theorem natural?_eq_some (small : base ≤ 16) :
    natural? base text = some value ↔ IsNatural base text value := by
  rw [natural?_eq_some_iff_spells small, IsNatural]
  unfold dropPlus
  split
  · next rest =>
    -- The second sign is no digit, and neither is the first.
    constructor
    · exact .inl
    · rintro (spells | ⟨digits, same, spells⟩)
      · exact spells
      · exact absurd (List.cons.inj same).2.symm (spells.not_signed small rest).1
  · next rest _ =>
    constructor
    · exact fun spells => .inr ⟨rest, rfl, spells⟩
    · rintro (spells | ⟨digits, same, spells⟩)
      · exact absurd rfl (spells.not_signed small rest).1
      · exact (List.cons.inj same).2 ▸ spells
  · next _ unsigned =>
    constructor
    · exact .inl
    · rintro (spells | ⟨digits, same, -⟩)
      · exact spells
      · exact absurd same (unsigned digits)

theorem IsNatural.ne_minus (natural : IsNatural base text value) (small : base ≤ 16)
    (rest : List Char) : text ≠ '-' :: rest := by
  rcases natural with spells | ⟨digits, rfl, -⟩
  · exact (spells.not_signed small rest).2
  · simp

theorem integer?_eq_some (small : base ≤ 16) {value : Int} :
    integer? base text = some value ↔ IsInteger base text value := by
  unfold integer?
  split
  · next rest =>
    -- Nothing reads a plus sign after a minus sign.
    refine ⟨nofun, ?_⟩
    rintro (⟨magnitude, natural, -⟩ | ⟨digits, magnitude, same, spells, -⟩)
    · exact absurd rfl (natural.ne_minus small _)
    · exact absurd (List.cons.inj same).2.symm (spells.not_signed small rest).1
  · next rest unsigned =>
    rw [Option.map_eq_some_iff]
    constructor
    · rintro ⟨integer, lifted, rfl⟩
      obtain ⟨magnitude, read, same⟩ := Option.bind_eq_some_iff.1 lifted
      obtain rfl : (magnitude : Int) = integer := Option.some.inj same
      rcases (natural?_eq_some small).1 read with spells | ⟨digits, rfl, -⟩
      · exact .inr ⟨rest, magnitude, rfl, spells, rfl⟩
      · exact absurd rfl (unsigned digits)
    · rintro (⟨magnitude, natural, -⟩ | ⟨digits, magnitude, same, spells, rfl⟩)
      · exact absurd rfl (natural.ne_minus small rest)
      · obtain ⟨-, rfl⟩ := List.cons.inj same
        have read := (natural?_eq_some small).2 (.inl spells)
        exact ⟨magnitude, Option.bind_eq_some_iff.2 ⟨magnitude, read, rfl⟩, rfl⟩
  · next _ unsigned =>
    rw [Option.map_eq_some_iff]
    constructor
    · rintro ⟨magnitude, read, rfl⟩
      exact .inl ⟨magnitude, (natural?_eq_some small).1 read, rfl⟩
    · rintro (⟨magnitude, natural, rfl⟩ | ⟨digits, magnitude, same, -⟩)
      · exact ⟨magnitude, (natural?_eq_some small).2 natural, rfl⟩
      · exact absurd same (unsigned digits)

/-! White space. -/

/-- Some text, with no white space at its ends. -/
def IsTrimmed (text : List Char) : Prop :=
  (∃ c rest, text = c :: rest ∧ Text.isBlank c = false) ∧
    ∃ front c, text = front ++ [c] ∧ Text.isBlank c = false

theorem IsTrimmed.cons (trimmed : IsTrimmed text) (shown : Text.isBlank c = false) :
    IsTrimmed (c :: text) := by
  obtain ⟨-, front, last, rfl, ends⟩ := trimmed
  exact ⟨⟨c, _, rfl, shown⟩, c :: front, last, rfl, ends⟩

theorem Spells.isTrimmed (spells : Spells base text value) (small : base ≤ 16) :
    IsTrimmed text := by
  constructor
  · obtain ⟨c, rest, first, same, digit⟩ := spells.begins
    exact ⟨c, rest, same, (digit.ne_mark small).2.2.2⟩
  · obtain ⟨front, c, same, rfl | ⟨last, digit⟩⟩ := spells.ends
    · exact ⟨front, '_', same, rfl⟩
    · exact ⟨front, c, same, (digit.ne_mark small).2.2.2⟩

theorem IsInteger.isTrimmed {value : Int} (integer : IsInteger base text value)
    (small : base ≤ 16) : IsTrimmed text := by
  rcases integer with ⟨magnitude, spells | ⟨digits, rfl, spells⟩, -⟩ |
    ⟨digits, magnitude, rfl, spells, -⟩
  · exact spells.isTrimmed small
  · exact (spells.isTrimmed small).cons rfl
  · exact (spells.isTrimmed small).cons rfl

theorem trimStart_append {front : List Char} (blank : ∀ c ∈ front, Text.isBlank c = true)
    (shown : Text.isBlank c = false) (rest : List Char) :
    Text.trimStart (front ++ c :: rest) = c :: rest := by
  rw [Text.trimStart, List.dropWhile_append_of_pos blank, List.dropWhile_cons, shown]
  rfl

theorem IsPadded.trim {body : List Char} (padded : IsPadded text body)
    (trimmed : IsTrimmed body) : Text.trim text = body := by
  obtain ⟨front, back, rfl, before, after⟩ := padded
  obtain ⟨⟨first, rest, begins, firstShown⟩, inner, last, ends, lastShown⟩ := trimmed
  have start : Text.trimStart (front ++ body ++ back) = body ++ back := by
    rw [begins, List.append_assoc, List.cons_append, trimStart_append before firstShown]
  have turned : (body ++ back).reverse = back.reverse ++ last :: inner.reverse := by
    rw [ends]
    simp
  have blank : ∀ c ∈ back.reverse, Text.isBlank c = true := by simpa using after
  rw [Text.trim, start, turned, trimStart_append blank lastShown, ends]
  simp

theorem exists_trimStart (text : List Char) :
    ∃ front, text = front ++ Text.trimStart text ∧ ∀ c ∈ front, Text.isBlank c = true :=
  ⟨text.takeWhile Text.isBlank, List.takeWhile_append_dropWhile.symm,
    List.all_eq_true.1 List.all_takeWhile⟩

theorem isPadded_trim (text : List Char) : IsPadded text (Text.trim text) := by
  obtain ⟨front, start, before⟩ := exists_trimStart text
  obtain ⟨back, finish, after⟩ := exists_trimStart (Text.trimStart text).reverse
  refine ⟨front, back.reverse, ?_, before, by simpa using after⟩
  have kept : Text.trimStart text = Text.trim text ++ back.reverse := by
    rw [← List.reverse_reverse (Text.trimStart text), finish, List.reverse_append]
    rfl
  rw [List.append_assoc, ← kept, ← start]

/-! Texts. -/

theorem ofHex?_eq_some {text : String} {digits : List Char} (marked : IsMarked text.toList digits) :
    ofHex? text = some value ↔ digits = [] ∧ value = 0 ∨ IsNatural 16 digits value := by
  have unmarked : dropBaseMark text.toList = digits := by
    rcases marked with same | same <;> rw [same] <;> rfl
  rw [ofHex?, unmarked]
  cases digits with
  | nil =>
    have none : ¬ IsNatural 16 [] value := by
      rw [← natural?_eq_some (by decide)]
      simp [natural?, dropPlus]
    simp [none, eq_comm]
  | cons c rest => simp [natural?_eq_some]

example : ofHex? "0X+fF_" = some 255 := by decide

theorem ofDecimal?_eq_some {text : String} {value : Int} :
    ofDecimal? text = some value ↔
      ∃ body, IsPadded text.toList body ∧ IsInteger 10 body value := by
  rw [ofDecimal?]
  constructor
  · intro read
    exact ⟨_, isPadded_trim text.toList, (integer?_eq_some (by decide)).1 read⟩
  · rintro ⟨body, padded, integer⟩
    rw [padded.trim (integer.isTrimmed (by decide))]
    exact (integer?_eq_some (by decide)).2 integer

/-- Zero may have a minus sign. -/
example : ofDecimal? " -0_0 " = some 0 := by decide

end FuzzBridge.Number
