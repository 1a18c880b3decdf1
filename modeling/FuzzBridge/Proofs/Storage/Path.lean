import Mathlib.Data.List.Basic
import FuzzBridge.Storage.Path

/-!
Paths as lists of pieces. The path of a name in a folder has the name as its last piece, and the
folder that it is named in has the pieces before it, without idle ones at the end.
-/

namespace FuzzBridge.Path

theorem piecesOf_ne_nil (text : List Char) : piecesOf text ≠ [] := by
  cases text with
  | nil => simp [piecesOf]
  | cons c rest =>
    rw [piecesOf]
    split
    · simp
    · split <;> simp

theorem pieces_ne_nil (path : String) : pieces path ≠ [] := by
  rw [pieces, Ne, List.map_eq_nil_iff]
  exact piecesOf_ne_nil _

theorem piecesOf_append_cons (front back : List Char) :
    piecesOf (front ++ '/' :: back) = piecesOf front ++ piecesOf back := by
  induction front with
  | nil => simp [piecesOf]
  | cons c front ih =>
    obtain ⟨piece, pieces, some⟩ := List.exists_cons_of_ne_nil (piecesOf_ne_nil front)
    by_cases slash : c = '/'
    · simp [piecesOf, slash, ih]
    · simp [piecesOf, slash, ih, some]

theorem piecesOf_of_notMem {text : List Char} (h : '/' ∉ text) : piecesOf text = [text] := by
  induction text with
  | nil => rfl
  | cons c rest ih =>
    rw [List.mem_cons, not_or] at h
    simp [piecesOf, Ne.symm h.1, ih h.2]

theorem slash_notMem_piecesOf {text piece : List Char} (member : piece ∈ piecesOf text) :
    '/' ∉ piece := by
  induction text generalizing piece with
  | nil => simp_all [piecesOf]
  | cons c rest ih =>
    obtain ⟨first, others, some⟩ := List.exists_cons_of_ne_nil (piecesOf_ne_nil rest)
    rw [some] at ih
    by_cases slash : c = '/'
    · rw [piecesOf, if_pos slash, some] at member
      rcases List.mem_cons.1 member with rfl | member
      · exact List.not_mem_nil
      · exact ih member
    · simp only [piecesOf, if_neg slash, some] at member
      rcases List.mem_cons.1 member with rfl | member
      · rw [List.mem_cons, not_or]
        exact ⟨Ne.symm slash, ih List.mem_cons_self⟩
      · exact ih (List.mem_cons_of_mem _ member)

theorem slash_notMem_pieces {path piece : String} (member : piece ∈ pieces path) :
    '/' ∉ piece.toList := by
  obtain ⟨text, inside, rfl⟩ := List.mem_map.1 member
  rw [String.toList_ofList]
  exact slash_notMem_piecesOf inside

theorem pieces_append_slash (front back : String) :
    pieces (front ++ "/" ++ back) = pieces front ++ pieces back := by
  have spelled : (front ++ "/" ++ back).toList = front.toList ++ '/' :: back.toList := by simp
  rw [pieces, spelled, piecesOf_append_cons, List.map_append, pieces, pieces]

theorem pieces_of_notMem {piece : String} (h : '/' ∉ piece.toList) : pieces piece = [piece] := by
  simp [pieces, piecesOf_of_notMem h]

theorem pieces_intercalate {parts : List String} (nonempty : parts ≠ [])
    (plain : ∀ part ∈ parts, '/' ∉ part.toList) : pieces ("/".intercalate parts) = parts := by
  induction parts with
  | nil => exact absurd rfl nonempty
  | cons part rest ih =>
    rw [List.forall_mem_cons] at plain
    by_cases last : rest = []
    · rw [last, String.intercalate_singleton, pieces_of_notMem plain.1]
    · rw [String.intercalate_cons_of_ne_nil last, pieces_append_slash, pieces_of_notMem plain.1,
        ih last plain.2, List.singleton_append]

theorem intercalate_piecesOf (text : List Char) :
    "/".intercalate ((piecesOf text).map String.ofList) = String.ofList text := by
  induction text with
  | nil => rfl
  | cons c rest ih =>
    obtain ⟨piece, others, some⟩ := List.exists_cons_of_ne_nil (piecesOf_ne_nil rest)
    rw [some, List.map_cons] at ih
    have cons (c : Char) (text : List Char) :
        String.ofList (c :: text) = String.singleton c ++ String.ofList text :=
      String.toList_injective (by simp)
    by_cases slash : c = '/'
    · rw [piecesOf, if_pos slash, some, List.map_cons, List.map_cons, cons,
        String.intercalate_cons_cons, ih, slash]
      rfl
    · simp only [piecesOf, if_neg slash, some, List.map_cons]
      rw [cons, String.intercalate_cons_append, ih, cons]

theorem intercalate_pieces (path : String) : "/".intercalate (pieces path) = path := by
  rw [pieces, intercalate_piecesOf, String.ofList_toList]

theorem head?_pieces {path : String} (nonempty : path ≠ "") :
    (pieces path).head? = some "" ↔ isAbsolute path := by
  obtain ⟨c, rest, spelled⟩ : ∃ c rest, path.toList = c :: rest :=
    List.exists_cons_of_ne_nil fun empty => nonempty (String.toList_eq_nil_iff.1 empty)
  obtain ⟨piece, more, split⟩ := List.exists_cons_of_ne_nil (piecesOf_ne_nil rest)
  rw [pieces, isAbsolute, spelled, piecesOf, split]
  by_cases slash : c = '/' <;> simp [slash]

theorem isAbsolute_congr {path other : String} {kept idles more : List String}
    (nonempty : path ≠ "") (named : other ≠ "") (some : kept ≠ [])
    (split : pieces path = kept ++ idles) (parts : pieces other = kept ++ more) :
    isAbsolute path = isAbsolute other := by
  obtain ⟨first, rest, rfl⟩ := List.exists_cons_of_ne_nil some
  rw [Bool.eq_iff_iff, ← head?_pieces nonempty, ← head?_pieces named, split, parts]
  rfl

/-! Names in folders. -/

/-- A name that is a piece of its own and leads on. -/
structure IsName (name : String) : Prop where
  slash : '/' ∉ name.toList
  nonempty : name ≠ ""
  dot : name ≠ "."
  dots : name ≠ ".."

theorem IsName.isAbsolute {name : String} (isName : IsName name) : isAbsolute name = false := by
  have slash := isName.slash
  rw [Path.isAbsolute, decide_eq_false_iff_not]
  exact fun first => slash (List.mem_of_head? first)

theorem IsName.not_isIdle {name : String} (isName : IsName name) : isIdle name = false := by
  simp [isIdle, isName.nonempty, isName.dot]

/-- A folder's path ends with one slash before the name. -/
theorem join_eq {folder name : String} (nonempty : folder ≠ "")
    (relative : isAbsolute name = false) :
    ∃ base, join folder name = base ++ "/" ++ name ∧ (folder = base ∨ folder = base ++ "/") := by
  rw [join, relative, Bool.false_or, if_neg (by simpa using nonempty)]
  split
  · next slash =>
    obtain ⟨base, ends⟩ := List.getLast?_eq_some_iff.1 slash
    have folder : folder = String.ofList base ++ "/" := String.toList_injective (by simp [ends])
    exact ⟨String.ofList base, by rw [← folder], .inr folder⟩
  · exact ⟨folder, rfl, .inl rfl⟩

theorem join_ne_empty {folder name : String} (nonempty : folder ≠ "")
    (relative : isAbsolute name = false) : join folder name ≠ "" := by
  obtain ⟨base, joined, -⟩ := join_eq nonempty relative
  intro empty
  simpa [joined] using congrArg String.toList empty

theorem pieces_join {folder name : String} (nonempty : folder ≠ "") (isName : IsName name) :
    ∃ front, front ≠ [] ∧ pieces (join folder name) = front ++ [name] ∧
      (pieces folder = front ∨ pieces folder = front ++ [""]) := by
  obtain ⟨base, joined, ends⟩ := join_eq nonempty isName.isAbsolute
  refine ⟨pieces base, pieces_ne_nil base, ?_, ?_⟩
  · rw [joined, pieces_append_slash, pieces_of_notMem isName.slash]
  · rcases ends with rfl | rfl
    · exact .inl rfl
    · right
      rw [← String.append_empty (s := base ++ "/"), pieces_append_slash]
      rfl

theorem pieces_folder {folder name : String} (nonempty : folder ≠ "") (isName : IsName name) :
    ∃ front idles, front ≠ [] ∧ (∀ piece ∈ idles, isIdle piece) ∧
      pieces folder = front ++ idles ∧ pieces (join folder name) = front ++ [name] := by
  obtain ⟨front, some, joined, ends | ends⟩ := pieces_join nonempty isName
  · exact ⟨front, [], some, nofun, by rw [ends, List.append_nil], joined⟩
  · exact ⟨front, [""], some, by simp [isIdle], ends, joined⟩

/-! The folder of a path. -/

theorem dropIdle_split {reversed : List String} (nonempty : reversed ≠ []) :
    dropIdle reversed ≠ [] ∧
      ∃ idles, (∀ piece ∈ idles, isIdle piece) ∧ reversed = idles ++ dropIdle reversed := by
  induction reversed with
  | nil => exact absurd rfl nonempty
  | cons piece rest ih =>
    cases rest with
    | nil => exact ⟨nofun, [], nofun, rfl⟩
    | cons before rest =>
      rw [dropIdle]
      split
      · next idle =>
        obtain ⟨kept, idles, each, split⟩ := ih nofun
        refine ⟨kept, piece :: idles, List.forall_mem_cons.2 ⟨idle, each⟩, ?_⟩
        rw [List.cons_append, ← split]
      · exact ⟨nofun, [], nofun, rfl⟩

/-- A folder's path without idle pieces at its end. -/
def trimmed (folder : String) : String := ofReversed (dropIdle (pieces folder).reverse)

theorem parent?_join {folder name : String} (nonempty : folder ≠ "") (isName : IsName name) :
    parent? (join folder name) = some (trimmed folder) := by
  obtain ⟨front, some, joined, ends⟩ := pieces_join nonempty isName
  have kept : dropIdle (pieces (join folder name)).reverse = name :: front.reverse := by
    obtain ⟨before, rest, reversed⟩ :=
      List.exists_cons_of_ne_nil (List.reverse_ne_nil_iff.2 some)
    rw [joined, List.reverse_append, List.reverse_singleton, List.singleton_append, reversed,
      dropIdle, if_neg (by simp [isName.not_isIdle])]
  have same : dropIdle (pieces folder).reverse = dropIdle front.reverse := by
    rcases ends with ends | ends
    · rw [ends]
    · obtain ⟨before, rest, reversed⟩ :=
        List.exists_cons_of_ne_nil (List.reverse_ne_nil_iff.2 some)
      rw [ends, List.reverse_append, List.reverse_singleton, List.singleton_append, reversed,
        dropIdle, if_pos (by decide)]
  rw [parent?, kept, trimmed, same]
  split
  · next none => cases none
  · next empty => exact absurd (List.cons.inj empty).1 isName.nonempty
  · next split => rw [(List.cons.inj split).2]

theorem ofReversed_of_ne {reversed : List String} (nonempty : reversed ≠ [])
    (named : reversed ≠ [""]) : ofReversed reversed = "/".intercalate reversed.reverse := by
  unfold ofReversed
  split <;> simp_all

/-- Of a folder's path only idle pieces at the end are left out; the root keeps its slash. -/
theorem trimmed_eq (folder : String) :
    ∃ kept idles, pieces folder = kept ++ idles ∧ (∀ piece ∈ idles, isIdle piece) ∧ kept ≠ [] ∧
      (kept = [""] ∧ trimmed folder = "/" ∨
        kept ≠ [""] ∧ trimmed folder = "/".intercalate kept ∧ pieces (trimmed folder) = kept) := by
  obtain ⟨some, idles, idle, split⟩ :=
    dropIdle_split (List.reverse_ne_nil_iff.2 (pieces_ne_nil folder))
  have whole : pieces folder = (dropIdle (pieces folder).reverse).reverse ++ idles.reverse := by
    rw [← List.reverse_append, ← split, List.reverse_reverse]
  refine ⟨_, _, whole, fun piece member => idle piece (List.mem_reverse.1 member),
    List.reverse_ne_nil_iff.2 some, ?_⟩
  by_cases root : dropIdle (pieces folder).reverse = [""]
  · exact .inl ⟨by rw [root]; rfl, by rw [trimmed, root]; rfl⟩
  · have named : trimmed folder = "/".intercalate (dropIdle (pieces folder).reverse).reverse := by
      rw [trimmed, ofReversed_of_ne some root]
    refine .inr ⟨fun single => root (by simpa using single), named, ?_⟩
    rw [named]
    refine pieces_intercalate (List.reverse_ne_nil_iff.2 some) fun piece member => ?_
    have inside : piece ∈ pieces folder := by
      rw [whole]
      exact List.mem_append_left _ member
    exact slash_notMem_pieces inside

theorem trimmed_ne_empty (folder : String) : trimmed folder ≠ "" := by
  obtain ⟨kept, -, -, -, -, ⟨-, root⟩ | ⟨named, -, same⟩⟩ := trimmed_eq folder
  · rw [root]
    decide
  · intro empty
    rw [empty] at same
    exact named same.symm

theorem trimmed_isPrefix {folder : String} (nonempty : folder ≠ "") :
    ∃ rest, folder = trimmed folder ++ rest := by
  obtain ⟨kept, idles, whole, -, some, trim⟩ := trimmed_eq folder
  have spelled := intercalate_pieces folder
  rw [whole] at spelled
  by_cases last : idles = []
  · rw [last, List.append_nil] at spelled
    rcases trim with ⟨rfl, -⟩ | ⟨-, trim, -⟩
    · exact absurd spelled.symm nonempty
    · exact ⟨"", by rw [trim, spelled, String.append_empty]⟩
  · rw [String.intercalate_append_of_ne_nil some last] at spelled
    rcases trim with ⟨rfl, trim⟩ | ⟨-, trim, -⟩
    · exact ⟨"/".intercalate idles, by rw [trim, ← spelled]; rfl⟩
    · exact ⟨"/" ++ "/".intercalate idles, by rw [trim, ← spelled, String.append_assoc]⟩

theorem pieces_trimmed (folder : String) :
    ∃ kept idles more, kept ≠ [] ∧ (∀ piece ∈ idles, isIdle piece) ∧
      (∀ piece ∈ more, isIdle piece) ∧ pieces folder = kept ++ idles ∧
      pieces (trimmed folder) = kept ++ more := by
  obtain ⟨kept, idles, whole, idle, some, ⟨rfl, root⟩ | ⟨-, -, same⟩⟩ := trimmed_eq folder
  · exact ⟨[""], idles, [""], nofun, idle, by simp [isIdle], whole, by rw [root]; rfl⟩
  · exact ⟨kept, idles, [], some, idle, nofun, whole, by rw [same, List.append_nil]⟩

end FuzzBridge.Path
