import Mathlib.Data.Nat.Find
import FuzzBridge.Proofs.Solver.Place
import FuzzBridge.Proofs.Storage.Folder
import FuzzBridge.Storage.FreeName

/-!
Numbered names. A stem in a folder gives names in that folder, each number another one, and the
number that is taken is the smallest whose name is free.
-/

namespace FuzzBridge.Storage

variable {storage : Storage} {stem ending : String}

/-! The names. -/

/-- Whether a stem and an ending make names of files. -/
structure IsStem (stem ending : String) : Prop where
  slash : '/' ∉ (stem ++ ending).toList
  plain : Char.ofNat 0 ∉ (stem ++ ending).toList
  short : (stem ++ ending).utf8ByteSize ≤ 200

theorem toList_numbered (stem ending : String) (number : Nat) :
    (numbered stem ending number).toList =
      stem.toList ++ '_' :: (Nat.toDigits 10 number ++ ending.toList) := by
  simp [numbered]

theorem numbered_injective {left right : Nat}
    (h : numbered stem ending left = numbered stem ending right) : left = right := by
  have spelled := congrArg String.toList h
  rw [toList_numbered, toList_numbered] at spelled
  have digits := (List.cons.inj (List.append_cancel_left spelled)).2
  exact toDigits_ten_injective (List.append_cancel_right digits)

theorem notMem_numbered {c : Char} (outside : c ∉ (stem ++ ending).toList) (mark : c ≠ '_')
    (digit : c.isDigit = false) (number : Nat) : c ∉ (numbered stem ending number).toList := by
  rw [String.toList_append, List.mem_append, not_or] at outside
  simp [toList_numbered, outside, mark, notMem_toDigits_ten digit number]

namespace IsStem

theorem isName (isStem : IsStem stem ending) (number : Nat) :
    Path.IsName (numbered stem ending number) := by
  have mark : '_' ∈ (numbered stem ending number).toList := by simp [toList_numbered]
  refine ⟨notMem_numbered isStem.slash (by decide) (by decide) number, ?_, ?_, ?_⟩
  all_goals
    intro same
    rw [same] at mark
    exact absurd mark (by decide)

theorem numbered_join (isStem : IsStem stem ending) (folder : String) (number : Nat) :
    numbered (Path.join folder stem) ending number =
      Path.join folder (numbered stem ending number) := by
  have relative : Path.isAbsolute stem = false := by
    rw [Path.isAbsolute, decide_eq_false_iff_not]
    intro first
    refine isStem.slash ?_
    rw [String.toList_append]
    exact List.mem_append_left _ (List.mem_of_head? first)
  rw [Path.join, Path.join, relative, (isStem.isName number).isAbsolute]
  split
  · rfl
  split <;> simp only [numbered, String.append_assoc]

theorem size_ofList_le (text : List Char) :
    (String.ofList text).utf8ByteSize ≤ 4 * text.length := by
  induction text with
  | nil => exact Nat.le_refl 0
  | cons c rest ih =>
    have split : String.ofList (c :: rest) = String.singleton c ++ String.ofList rest :=
      String.toList_injective (by simp)
    have size : c.utf8Size ≤ 4 := c.utf8Size_le_four
    rw [split, String.utf8ByteSize_append, String.utf8ByteSize_singleton, List.length_cons]
    omega

theorem size_numbered (isStem : IsStem stem ending) {number : Nat} (limit : number < nameLimit) :
    (numbered stem ending number).utf8ByteSize ≤ nameBytes := by
  have short := isStem.short
  have digits : (Nat.toDigits 10 number).length ≤ 5 :=
    (Nat.length_toDigits_le_iff (by decide) (by decide)).2 limit
  have size := size_ofList_le (Nat.toDigits 10 number)
  have mark : "_".utf8ByteSize = 1 := rfl
  rw [String.utf8ByteSize_append] at short
  rw [numbered, String.utf8ByteSize_append, String.utf8ByteSize_append, String.utf8ByteSize_append,
    Nat.toString_eq_ofList_toDigits, mark, nameBytes]
  omega

end IsStem

/-! The number that is taken. -/

/-- Whether a number is the smallest whose name is free. -/
structure IsFirstFree (storage : Storage) (stem ending : String) (number : Nat) : Prop where
  limit : number < nameLimit
  free : storage.occupied (numbered stem ending number) = false
  least : ∀ smaller < number, storage.occupied (numbered stem ending smaller)

theorem freeFrom_eq_some {count start : Nat} {path : String}
    (below : ∀ smaller < start, storage.occupied (numbered stem ending smaller)) :
    storage.freeFrom stem ending count start = some path ↔
      ∃ number < start + count, storage.occupied (numbered stem ending number) = false ∧
        (∀ smaller < number, storage.occupied (numbered stem ending smaller)) ∧
        numbered stem ending number = path := by
  induction count generalizing start with
  | zero =>
    refine ⟨nofun, ?_⟩
    rintro ⟨number, less, free, -⟩
    rw [below number less] at free
    cases free
  | succ count ih =>
    rw [freeFrom]
    split
    · next taken =>
      have below : ∀ smaller < start + 1, storage.occupied (numbered stem ending smaller) :=
        Nat.forall_lt_succ_right.2 ⟨below, taken⟩
      rw [ih below, Nat.add_right_comm, Nat.add_assoc]
    · next free =>
      rw [Bool.not_eq_true] at free
      rw [Option.some_inj]
      constructor
      · rintro rfl
        exact ⟨start, by omega, free, below, rfl⟩
      · rintro ⟨number, -, first, least, rfl⟩
        rcases Nat.lt_trichotomy number start with less | rfl | more
        · rw [below number less] at first
          cases first
        · rfl
        · rw [least start more] at free
          cases free

theorem freeName_eq_ok {path : String} :
    storage.freeName stem ending = .ok path ↔
      ∃ number, storage.IsFirstFree stem ending number ∧ numbered stem ending number = path := by
  have found : storage.freeName stem ending = .ok path ↔
      storage.freeFrom stem ending nameLimit 0 = some path := by
    unfold freeName
    split <;> simp [*]
  rw [found, freeFrom_eq_some fun _ less => absurd less (Nat.not_lt_zero _), Nat.zero_add]
  constructor
  · rintro ⟨number, limit, free, least, same⟩
    exact ⟨number, ⟨limit, free, least⟩, same⟩
  · rintro ⟨number, ⟨limit, free, least⟩, same⟩
    exact ⟨number, limit, free, least, same⟩

theorem exists_isFirstFree {number : Nat} (limit : number < nameLimit)
    (free : storage.occupied (numbered stem ending number) = false) :
    ∃ first, storage.IsFirstFree stem ending first := by
  have some : ∃ number, storage.occupied (numbered stem ending number) = false := ⟨number, free⟩
  refine ⟨Nat.find some, Nat.lt_of_le_of_lt (Nat.find_le free) limit, Nat.find_spec some, ?_⟩
  exact fun smaller less => by simpa using Nat.find_min some less

end FuzzBridge.Storage
