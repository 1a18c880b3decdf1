import Mathlib.Data.List.Induction
import FuzzBridge.Fault
import FuzzBridge.Number.Word

/-!
Printed numbers read back as what they are, and a text that is already in printed form is the print
of the number that it denotes.
-/

namespace FuzzBridge.Number

def lowerDigits : List Char :=
  ['0', '1', '2', '3', '4', '5', '6', '7', '8', '9', 'a', 'b', 'c', 'd', 'e', 'f']

def IsPrinted (base : Nat) (digits : List Char) : Prop := ∀ c ∈ digits, c ∈ lowerDigits.take base

/-- Printed digits without a leading zero; zero itself is one digit. -/
structure IsShortest (base : Nat) (digits : List Char) : Prop where
  printed : IsPrinted base digits
  nonempty : digits ≠ []
  leading : digits.head? = some '0' → digits = ['0']

instance (base : Nat) (digits : List Char) : Decidable (IsPrinted base digits) :=
  List.decidableBAll (fun c => c ∈ lowerDigits.take base) digits

instance (base : Nat) (digits : List Char) : Decidable (IsShortest base digits) :=
  decidable_of_iff
    (IsPrinted base digits ∧ digits ≠ [] ∧ (digits.head? = some '0' → digits = ['0']))
    ⟨fun ⟨printed, nonempty, leading⟩ => ⟨printed, nonempty, leading⟩,
      fun ⟨printed, nonempty, leading⟩ => ⟨printed, nonempty, leading⟩⟩

/-- A base mark and the shortest digits. -/
def IsShortestHex (text : String) : Prop :=
  ∃ digits, text.toList = '0' :: 'x' :: digits ∧ IsShortest 16 digits

/-- A base mark and forty digits. -/
def IsAddressText (text : String) : Prop :=
  ∃ digits, text.toList = '0' :: 'x' :: digits ∧ digits.length = 40 ∧ IsPrinted 16 digits

/-- The shortest digits, after a minus sign if the number is negative. -/
def IsShortestDecimal (text : String) : Prop :=
  IsShortest 10 text.toList ∨
    ∃ digits, text.toList = '-' :: digits ∧ IsShortest 10 digits ∧ digits ≠ ['0']

/-! Digits and their values. -/

theorem mem_lowerDigits_iff {base : Nat} (small : base ≤ 16) (c : Char) :
    c ∈ lowerDigits.take base ↔ ∃ digit < base, c = Nat.digitChar digit := by
  have table : ∀ digit (h : digit < 16), lowerDigits.get ⟨digit, h⟩ = Nat.digitChar digit := by
    decide
  have length : lowerDigits.length = 16 := rfl
  rw [List.mem_take_iff_getElem]
  constructor
  · rintro ⟨digit, h, rfl⟩
    exact ⟨digit, by omega, table digit (by omega)⟩
  · rintro ⟨digit, h, rfl⟩
    exact ⟨digit, by omega, table digit (by omega)⟩

theorem digit?_of_lt {base digit : Nat} {c : Char} (known : digit? 16 c = some digit)
    (h : digit < base) (small : base ≤ 16) : digit? base c = some digit := by
  unfold digit? at known ⊢
  grind

theorem digit?_digitChar {base digit : Nat} (h : digit < base) (small : base ≤ 16) :
    digit? base (Nat.digitChar digit) = some digit := by
  have table : ∀ digit < 16, digit? 16 (Nat.digitChar digit) = some digit := by decide
  exact digit?_of_lt (table digit (by omega)) h small

theorem ne_mark_of_mem_lowerDigits {c : Char} (h : c ∈ lowerDigits) :
    c ≠ '_' ∧ c ≠ '+' ∧ c ≠ '-' ∧ Text.isBlank c = false := by
  have table : lowerDigits.all
      fun c => c ≠ '_' ∧ c ≠ '+' ∧ c ≠ '-' ∧ Text.isBlank c = false := by decide
  exact of_decide_eq_true (List.all_eq_true.1 table c h)

theorem IsPrinted.ne_mark {base : Nat} {digits : List Char} (printed : IsPrinted base digits)
    {c : Char} (h : c ∈ digits) : c ≠ '_' ∧ c ≠ '+' ∧ c ≠ '-' ∧ Text.isBlank c = false :=
  ne_mark_of_mem_lowerDigits (List.mem_of_mem_take (printed c h))

theorem isPrinted_toDigits {base : Nat} (large : 1 < base) (small : base ≤ 16) (value : Nat) :
    IsPrinted base (Nat.toDigits base value) := by
  induction value using Nat.strongRecOn with
  | ind value ih =>
    intro c h
    rw [Nat.toDigits_eq_if large] at h
    split at h
    · next lt =>
      rw [List.mem_singleton.1 h]
      exact (mem_lowerDigits_iff small _).2 ⟨value, lt, rfl⟩
    · next ge =>
      have smaller : value / base < value := Nat.div_lt_self (by omega) large
      rcases List.mem_append.1 h with h | h
      · exact ih _ smaller c h
      · rw [List.mem_singleton.1 h]
        exact (mem_lowerDigits_iff small _).2 ⟨value % base, Nat.mod_lt _ (by omega), rfl⟩

theorem digitsFrom?_append (base high : Nat) (left right : List Char) :
    digitsFrom? base high (left ++ right) =
      (digitsFrom? base high left).bind fun value => digitsFrom? base value right := by
  induction left generalizing high with
  | nil => rfl
  | cons c rest ih =>
    simp only [List.cons_append, digitsFrom?]
    split
    · exact ih high
    · split
      · exact ih _
      · rfl

theorem digitsFrom?_digitChar {base digit : Nat} (high : Nat) (h : digit < base)
    (small : base ≤ 16) :
    digitsFrom? base high [Nat.digitChar digit] = some (high * base + digit) := by
  have member := (mem_lowerDigits_iff small (Nat.digitChar digit)).2 ⟨digit, h, rfl⟩
  have shown := (ne_mark_of_mem_lowerDigits (List.mem_of_mem_take member)).1
  simp [digitsFrom?, shown, digit?_digitChar h small]

theorem digitsFrom?_toDigits {base : Nat} (large : 1 < base) (small : base ≤ 16) (value : Nat) :
    digitsFrom? base 0 (Nat.toDigits base value) = some value := by
  induction value using Nat.strongRecOn with
  | ind value ih =>
    rw [Nat.toDigits_eq_if large]
    split
    · next lt => simp [digitsFrom?_digitChar 0 lt small]
    · next ge =>
      have smaller : value / base < value := Nat.div_lt_self (by omega) large
      rw [digitsFrom?_append, ih _ smaller, Option.bind_some,
        digitsFrom?_digitChar _ (Nat.mod_lt _ (by omega)) small, Nat.div_add_mod']

theorem digitsFrom?_zeros (base count : Nat) (positive : 0 < base) :
    digitsFrom? base 0 (List.replicate count '0') = some 0 := by
  induction count with
  | zero => rfl
  | succ count ih =>
    have zero : digit? base '0' = some 0 := by simp [digit?, positive]
    rw [List.replicate_succ, digitsFrom?, if_neg (by decide), zero]
    simpa using ih

theorem digitsFrom?_padLeft {base : Nat} (large : 1 < base) (small : base ≤ 16)
    (width value : Nat) :
    digitsFrom? base 0 (padLeft width '0' (Nat.toDigits base value)) = some value := by
  rw [padLeft, digitsFrom?_append, digitsFrom?_zeros base _ (by omega), Option.bind_some,
    digitsFrom?_toDigits large small]

theorem isPrinted_padLeft {base : Nat} (large : 1 < base) (small : base ≤ 16)
    (width value : Nat) : IsPrinted base (padLeft width '0' (Nat.toDigits base value)) := by
  intro c h
  rcases List.mem_append.1 h with h | h
  · rw [List.eq_of_mem_replicate h]
    exact (mem_lowerDigits_iff small _).2 ⟨0, by omega, rfl⟩
  · exact isPrinted_toDigits large small value c h

theorem padLeft_of_digitsFrom? {base : Nat} (large : 1 < base) (small : base ≤ 16)
    {digits : List Char} (printed : IsPrinted base digits) (nonempty : digits ≠ []) {value : Nat}
    (h : digitsFrom? base 0 digits = some value) :
    padLeft digits.length '0' (Nat.toDigits base value) = digits := by
  induction digits using List.reverseRecOn generalizing value with
  | nil => exact absurd rfl nonempty
  | append_singleton front c ih =>
    obtain ⟨digit, lt, rfl⟩ := (mem_lowerDigits_iff small c).1 (printed c (by simp))
    rw [digitsFrom?_append] at h
    obtain ⟨high, hfront, hlast⟩ := Option.bind_eq_some_iff.1 h
    rw [digitsFrom?_digitChar high lt small] at hlast
    obtain rfl := Option.some.inj hlast
    by_cases empty : front = []
    · subst empty
      obtain rfl : 0 = high := by simpa [digitsFrom?] using hfront
      simp [padLeft, Nat.toDigits_of_lt_base, lt]
    · have front_eq := ih (fun c h => printed c (by simp [h])) empty hfront
      have length : 0 < front.length := List.length_pos_iff.2 empty
      rcases Nat.eq_zero_or_pos high with rfl | positive
      · have zeros : front = List.replicate front.length '0' := by
          rw [Nat.toDigits_zero, padLeft, List.length_singleton,
            ← List.replicate_one, List.replicate_append_replicate] at front_eq
          rw [show front.length - 1 + 1 = front.length by omega] at front_eq
          exact front_eq.symm
        rw [Nat.zero_mul, Nat.zero_add, Nat.toDigits_of_lt_base lt, padLeft]
        simp only [List.length_append, List.length_singleton, Nat.add_sub_cancel]
        rw [← zeros]
      · rw [Nat.mul_comm, ← Nat.toDigits_append_toDigits large positive lt,
          Nat.toDigits_of_lt_base lt]
        unfold padLeft at front_eq ⊢
        rw [← List.append_assoc]
        simp only [List.length_append, List.length_singleton, Nat.add_sub_add_right]
        rw [front_eq]

theorem toDigits_of_digitsFrom? {base : Nat} (large : 1 < base) (small : base ≤ 16)
    {digits : List Char} (shortest : IsShortest base digits) {value : Nat}
    (h : digitsFrom? base 0 digits = some value) : Nat.toDigits base value = digits := by
  have padded := padLeft_of_digitsFrom? large small shortest.printed shortest.nonempty h
  unfold padLeft at padded
  rcases Nat.eq_zero_or_pos (digits.length - (Nat.toDigits base value).length) with none | some
  · rwa [none, List.replicate_zero, List.nil_append] at padded
  · obtain ⟨count, hcount⟩ := Nat.exists_eq_add_of_lt some
    rw [hcount, Nat.zero_add, List.replicate_succ] at padded
    have zero := shortest.leading (by rw [← padded]; rfl)
    subst zero
    have : 0 < (Nat.toDigits base value).length := Nat.length_toDigits_pos
    simp only [List.length_singleton] at some
    omega

/-! Literals. -/

theorem natural?_of_isPrinted {base : Nat} {digits : List Char} (printed : IsPrinted base digits)
    (nonempty : digits ≠ []) : natural? base digits = digitsFrom? base 0 digits := by
  obtain ⟨c, rest, rfl⟩ := List.exists_cons_of_ne_nil nonempty
  obtain ⟨underscore, plus, -, -⟩ := printed.ne_mark (List.mem_cons_self (a := c) (l := rest))
  have unsigned : dropPlus (c :: rest) = c :: rest := by
    unfold dropPlus
    split <;> simp_all
  simp [natural?, unsigned, underscore]

theorem ofHex?_of_isPrinted {text : String} {digits : List Char}
    (h : text.toList = '0' :: 'x' :: digits) (printed : IsPrinted 16 digits)
    (nonempty : digits ≠ []) : ofHex? text = digitsFrom? 16 0 digits := by
  obtain ⟨c, rest, rfl⟩ := List.exists_cons_of_ne_nil nonempty
  simp only [ofHex?, h, dropBaseMark]
  exact natural?_of_isPrinted printed nonempty

theorem ofHex?_toHex (value : Nat) : ofHex? (toHex value) = some value := by
  have text : (toHex value).toList = '0' :: 'x' :: Nat.toDigits 16 value := by
    simp [toHex, hexDigits]
  rw [ofHex?_of_isPrinted text (isPrinted_toDigits (by decide) (by decide) value)
    Nat.toDigits_ne_nil]
  exact digitsFrom?_toDigits (by decide) (by decide) value

theorem ofHex?_toAddress (value : Nat) :
    ofHex? (toAddress value) = some (mask value 160) := by
  have nonempty : padLeft 40 '0' (Nat.toDigits 16 (value % Nat.pow 2 160)) ≠ [] := by
    simp [padLeft]
  rw [ofHex?_of_isPrinted (by rw [toAddress, String.toList_ofList]; rfl)
    (isPrinted_padLeft (by decide) (by decide) 40 _) nonempty]
  exact digitsFrom?_padLeft (by decide) (by decide) 40 _

theorem toHex_of_isShortestHex {text : String} {value : Nat} (shortest : IsShortestHex text)
    (h : ofHex? text = some value) : toHex value = text := by
  obtain ⟨digits, text_eq, shortest⟩ := shortest
  rw [ofHex?_of_isPrinted text_eq shortest.printed shortest.nonempty] at h
  rw [toHex, hexDigits, toDigits_of_digitsFrom? (by decide) (by decide) shortest h, ← text_eq,
    String.ofList_toList]

theorem toAddress_of_isAddressText {text : String} {value : Nat} (address : IsAddressText text)
    (h : ofHex? text = some value) : toAddress value = text := by
  obtain ⟨digits, text_eq, length, printed⟩ := address
  have nonempty : digits ≠ [] := by
    rintro rfl
    simp at length
  rw [ofHex?_of_isPrinted text_eq printed nonempty] at h
  have padded := padLeft_of_digitsFrom? (by decide) (by decide) printed nonempty h
  have fits : value < 16 ^ 40 := by
    rw [← Nat.length_toDigits_le_iff (by decide) (by decide), ← length, ← padded]
    simp only [padLeft, List.length_append]
    omega
  rw [length] at padded
  rw [toAddress, hexDigits, Nat.mod_eq_of_lt (by simpa using fits), padded, ← text_eq,
    String.ofList_toList]

theorem toAddress_mask (value : Nat) : toAddress (mask value 160) = toAddress value := by
  rw [toAddress, toAddress, mask, wordCount, Nat.mod_mod]

theorem trim_eq_self {text : List Char} (h : ∀ c ∈ text, Text.isBlank c = false) :
    Text.trim text = text := by
  have keep (list : List Char) (h : ∀ c ∈ list, Text.isBlank c = false) :
      Text.trimStart list = list := by
    cases list with
    | nil => rfl
    | cons c rest => simp [Text.trimStart, h c]
  rw [Text.trim, keep text h, keep text.reverse (by simpa using h), List.reverse_reverse]

theorem ofDecimal?_of_isPrinted {text : String} (printed : IsPrinted 10 text.toList)
    (nonempty : text.toList ≠ []) :
    ofDecimal? text = (digitsFrom? 10 0 text.toList).map Int.ofNat := by
  obtain ⟨c, rest, text_eq⟩ := List.exists_cons_of_ne_nil nonempty
  have minus := (printed.ne_mark (c := c) (by simp [text_eq])).2.2.1
  rw [ofDecimal?, trim_eq_self fun c h => (printed.ne_mark h).2.2.2, text_eq]
  have unsigned : integer? 10 (c :: rest) = (natural? 10 (c :: rest)).map Int.ofNat := by
    unfold integer?
    split <;> simp_all
  rw [unsigned, ← text_eq, natural?_of_isPrinted printed nonempty]

theorem ofDecimal?_of_minus {text : String} {digits : List Char}
    (h : text.toList = '-' :: digits) (printed : IsPrinted 10 digits) (nonempty : digits ≠ []) :
    ofDecimal? text = (digitsFrom? 10 0 digits).map fun value : Nat => -(value : Int) := by
  obtain ⟨c, rest, rfl⟩ := List.exists_cons_of_ne_nil nonempty
  have plus := (printed.ne_mark (c := c) (by simp)).2.1
  have shown : ∀ d ∈ text.toList, Text.isBlank d = false := by
    rw [h]
    intro d member
    rcases List.mem_cons.1 member with rfl | member
    · rfl
    · exact (printed.ne_mark member).2.2.2
  rw [ofDecimal?, trim_eq_self shown, h, ← natural?_of_isPrinted printed nonempty]
  cases read : natural? 10 (c :: rest) <;> simp [integer?, plus, read]

theorem isPrinted_decimal (value : Nat) : IsPrinted 10 (Nat.toDigits 10 value) :=
  isPrinted_toDigits (by decide) (by decide) value

theorem digitsFrom?_decimal (value : Nat) : digitsFrom? 10 0 (Nat.toDigits 10 value) = some value :=
  digitsFrom?_toDigits (by decide) (by decide) value

theorem ofDecimal?_decimal (value : Int) :
    ofDecimal? (String.ofList (Datum.decimal value)) = some value := by
  cases value with
  | ofNat magnitude =>
    rw [ofDecimal?_of_isPrinted (by simpa [Datum.decimal] using isPrinted_decimal magnitude)
      (by simp [Datum.decimal])]
    simp [Datum.decimal, digitsFrom?_decimal]
  | negSucc magnitude =>
    have text : (String.ofList (Datum.decimal (Int.negSucc magnitude))).toList =
        '-' :: Nat.toDigits 10 (magnitude + 1) := by
      simp [Datum.decimal]
    rw [ofDecimal?_of_minus text (isPrinted_decimal (magnitude + 1)) Nat.toDigits_ne_nil]
    simp [digitsFrom?_decimal, Int.negSucc_eq]

theorem decimal_of_isShortestDecimal {text : String} {value : Int}
    (shortest : IsShortestDecimal text) (h : ofDecimal? text = some value) :
    String.ofList (Datum.decimal value) = text := by
  rcases shortest with shortest | ⟨digits, text_eq, shortest, nonzero⟩
  · rw [ofDecimal?_of_isPrinted shortest.printed shortest.nonempty] at h
    obtain ⟨magnitude, read, rfl⟩ := Option.map_eq_some_iff.1 h
    have digits_eq := toDigits_of_digitsFrom? (by decide) (by decide) shortest read
    simp [Datum.decimal, digits_eq]
  · rw [ofDecimal?_of_minus text_eq shortest.printed shortest.nonempty] at h
    obtain ⟨magnitude, read, rfl⟩ := Option.map_eq_some_iff.1 h
    have digits_eq := toDigits_of_digitsFrom? (by decide) (by decide) shortest read
    cases magnitude with
    | zero => exact absurd digits_eq.symm (by simpa using nonzero)
    | succ magnitude =>
      rw [show -((magnitude + 1 : Nat) : Int) = Int.negSucc magnitude from rfl, Datum.decimal,
        digits_eq, ← text_eq, String.ofList_toList]

end FuzzBridge.Number

namespace FuzzBridge

theorem readHex_eq_ok {text : String} {value : Nat} :
    readHex text = .ok value ↔ Number.ofHex? text = some value := by
  unfold readHex
  cases Number.ofHex? text <;> simp

theorem readDecimal_eq_ok {text : String} {value : Int} :
    readDecimal text = .ok value ↔ Number.ofDecimal? text = some value := by
  unfold readDecimal
  cases Number.ofDecimal? text <;> simp

@[simp] theorem readHex_toHex (value : Nat) : readHex (Number.toHex value) = .ok value :=
  readHex_eq_ok.2 (Number.ofHex?_toHex value)

@[simp] theorem readHex_toAddress (value : Nat) :
    readHex (Number.toAddress value) = .ok (Number.mask value 160) :=
  readHex_eq_ok.2 (Number.ofHex?_toAddress value)

@[simp] theorem readDecimal_decimal (value : Int) :
    readDecimal (String.ofList (Datum.decimal value)) = .ok value :=
  readDecimal_eq_ok.2 (Number.ofDecimal?_decimal value)

@[simp] theorem readDecimal_toDigits (value : Nat) :
    readDecimal (String.ofList (Nat.toDigits 10 value)) = .ok (value : Int) :=
  readDecimal_decimal value

end FuzzBridge
