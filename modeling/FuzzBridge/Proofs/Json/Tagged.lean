import FuzzBridge.Json.Tagged
import FuzzBridge.Proofs.Json.Draft
import FuzzBridge.Proofs.Result

/-!
Reading arrays and tagged values back, and what a successful reading of one has found. How deep a
value nests is what decides whether the levels of a reader are enough.
-/

namespace FuzzBridge.Json

mutual

/-- How many arrays and objects are around the innermost part. -/
def depth : Json → Nat
  | .array items => itemsDepth items + 1
  | .object members => membersDepth members + 1
  | _ => 0
termination_by structural value => value

def itemsDepth : List Json → Nat
  | [] => 0
  | item :: rest => max item.depth (itemsDepth rest)
termination_by structural items => items

def membersDepth : List (String × Json) → Nat
  | [] => 0
  | (_, value) :: rest => max value.depth (membersDepth rest)
termination_by structural members => members

end

@[simp] theorem depth_nat (value : Nat) : (nat value).depth = 0 := rfl

@[simp] theorem depth_text (value : String) : (Json.text value).depth = 0 := rfl

@[simp] theorem depth_bool (value : Bool) : (Json.bool value).depth = 0 := rfl

theorem itemsDepth_le {items : List Json} {levels : Nat} :
    itemsDepth items ≤ levels ↔ ∀ item ∈ items, item.depth ≤ levels := by
  induction items with
  | nil => simp [itemsDepth]
  | cons item rest ih => rw [itemsDepth, Nat.max_le, ih, List.forall_mem_cons]

@[simp] theorem depth_tagged (tag : String) (contents : Json) :
    (tagged tag contents).depth = contents.depth + 1 := by
  simp [tagged, depth, membersDepth]

@[simp] theorem depth_bareTag (tag : String) : (bareTag tag).depth = 1 := rfl

@[simp] theorem isPlain_tagged {tag : String} {contents : Json} :
    (tagged tag contents).IsPlain ↔ contents.IsPlain := by
  simp [tagged, IsPlain, MembersPlain]

@[simp] theorem isPlain_bareTag (tag : String) : (bareTag tag).IsPlain := by
  simp [bareTag, IsPlain, MembersPlain]

theorem allPlain_iff {items : List Json} : AllPlain items ↔ ∀ item ∈ items, item.IsPlain := by
  induction items with
  | nil => simp [AllPlain]
  | cons item rest ih => rw [AllPlain, ih, List.forall_mem_cons]

theorem membersPlain_iff {members : List (String × Json)} :
    MembersPlain members ↔ ∀ member ∈ members, member.2.IsPlain := by
  induction members with
  | nil => simp [MembersPlain]
  | cons member rest ih => rw [MembersPlain, ih, List.forall_mem_cons]

/-! Arrays. -/

namespace Items

variable {α β : Type}

theorem pair_of_ok {first : Draft → Read α} {second : Draft → Read β} {left right : Draft}
    {a : α} {b : β} (hleft : first left = .ok a) (hright : second right = .ok b) :
    pair first second (.cons left (.cons right (.stop true))) = .ok (a, b) := by
  simp [pair, next, done, hleft, hright, bind, Except.bind, pure, Except.pure]

theorem ok_of_pair {first : Draft → Read α} {second : Draft → Read β} {items : Items}
    {found : α × β} (h : pair first second items = .ok found) :
    ∃ left right, first left = .ok found.1 ∧ second right = .ok found.2 := by
  obtain ⟨⟨left, rest⟩, -, h⟩ := Result.bind_eq_ok.1 h
  obtain ⟨a, hleft, h⟩ := Result.bind_eq_ok.1 h
  obtain ⟨⟨right, rest⟩, -, h⟩ := Result.bind_eq_ok.1 h
  obtain ⟨b, hright, h⟩ := Result.bind_eq_ok.1 h
  obtain ⟨_, -, h⟩ := Result.bind_eq_ok.1 h
  obtain rfl := Result.pure_eq_ok.1 h
  exact ⟨left, right, hleft, hright⟩

theorem list_itemsDraft {read : Draft → Read α} {toJson : α → Json} {values : List α}
    (each : ∀ value ∈ values, read (toJson value).draft = .ok value) :
    (itemsDraft (values.map toJson)).list read = .ok values := by
  induction values with
  | nil => rfl
  | cons value rest ih =>
    rw [List.map_cons, itemsDraft, list, each value (by simp),
      ih fun value member => each value (List.mem_cons_of_mem _ member)]
    rfl

theorem ok_of_list {read : Draft → Read α} {items : Items} {values : List α}
    (h : items.list read = .ok values) : ∀ value ∈ values, ∃ draft, read draft = .ok value := by
  induction values generalizing items with
  | nil => simp
  | cons value rest ih =>
    cases items with
    | stop closed => cases closed <;> simp [list] at h
    | cons first others =>
      obtain ⟨found, hfirst, h⟩ := Result.bind_eq_ok.1 h
      obtain ⟨more, hmore, h⟩ := Result.bind_eq_ok.1 h
      obtain ⟨rfl, rfl⟩ := List.cons.inj (Result.pure_eq_ok.1 h)
      exact List.forall_mem_cons.2 ⟨⟨first, hfirst⟩, ih hmore⟩

end Items

theorem Draft.ok_of_items {α : Type} {levels : Nat} {read : Nat → Items → Read α} {draft : Draft}
    {found : α} (h : draft.items levels read = .ok found) :
    ∃ inner items, levels = inner + 1 ∧ read inner items = .ok found := by
  unfold items at h
  split at h
  · next items =>
    cases levels with
    | zero => cases h
    | succ inner => exact ⟨inner, items, rfl, h⟩
  · cases h

theorem Draft.noItems_ne_ok {α : Type} {draft : Draft} {found : α} : draft.noItems ≠ .ok found := by
  cases draft <;> exact nofun

theorem Draft.tooDeep_ne_ok {α : Type} {draft : Draft} {found : α} : draft.tooDeep ≠ .ok found := by
  cases draft <;> exact nofun

/-! Objects whose members are read in order. -/

theorem Members.induction {motive : Members → Prop} (stop : ∀ closed, motive (.stop closed))
    (cons : ∀ key value rest, motive rest → motive (.cons key value rest)) (members : Members) :
    motive members :=
  Members.rec (motive_1 := fun _ => True) (motive_2 := fun _ => True) (motive_3 := motive)
    trivial trivial (fun _ => trivial) (fun _ => trivial) (fun _ => trivial) (fun _ _ => trivial)
    (fun _ _ => trivial) (fun _ => trivial) (fun _ _ _ _ => trivial) stop
    (fun key value rest _ => cons key value rest) members

theorem Members.walk_cons {σ : Type} {slot : σ → String → Slot σ} {state state' : σ} {key : String}
    {read : Draft → Read σ} {value : Draft} (known : slot state key = .read read)
    (found : read value = .ok state') (rest : Members) :
    (Members.cons (some key) value rest).walk slot state = rest.walk slot state' := by
  rw [walk, known]
  simp only [found, bind, Except.bind]

/-- What every slot keeps, a whole walk keeps. -/
theorem Members.walk_invariant {σ : Type} {slot : σ → String → Slot σ} {invariant : σ → Prop}
    (keeps : ∀ state key read draft state', invariant state → slot state key = .read read →
      read draft = .ok state' → invariant state')
    {state state' : σ} (holds : invariant state) {members : Members}
    (h : members.walk slot state = .ok state') : invariant state' := by
  induction members using Members.induction generalizing state with
  | stop closed =>
    cases closed with
    | false => cases h
    | true =>
      obtain rfl := Except.ok.inj h
      exact holds
  | cons key value rest ih =>
    cases key with
    | none => cases h
    | some key =>
      rw [walk] at h
      split at h
      · obtain ⟨_, -, h⟩ := Result.bind_eq_ok.1 h
        exact ih holds h
      · cases h
      · next read known =>
        obtain ⟨next, found, h⟩ := Result.bind_eq_ok.1 h
        exact ih (keeps state key read value next holds known found) h

/-! Tagged values. -/

namespace Tagging

variable {κ α : Type} {tagging : Tagging κ α} {isHeld : Bool} {levels : Nat}

theorem read_tagged {tag : String} {kind : κ} (known : tagging.kind tag = .ok kind)
    (filled : tagging.bare? kind = none) (contents : Json) :
    tagging.read isHeld levels (tagged tag contents).draft =
      tagging.contents isHeld kind contents.draft := by
  cases isHeld <;> cases found : tagging.contents _ kind contents.draft <;>
    simp [read, tagged, draft, membersDraft, ofMembers, Members.walk, slot, readTag, readHeldTag,
      known, readContents, filled, found, finish, bind, Except.bind, pure, Except.pure]

theorem read_bareTag {tag : String} {kind : κ} (known : tagging.kind tag = .ok kind) {value : α}
    (bare : tagging.bare? kind = some value) :
    tagging.read isHeld levels (bareTag tag).draft = .ok value := by
  cases isHeld <;>
    simp [read, bareTag, draft, membersDraft, ofMembers, Members.walk, slot, readTag, readHeldTag,
      known, bare, finish, bind, Except.bind, pure, Except.pure]

/-- Values of a kind without contents, and values that are read from contents. -/
def Offers (tagging : Tagging κ α) (value : α) : Prop :=
  (∃ kind, tagging.bare? kind = some value) ∨
    ∃ isHeld kind contents, tagging.contents isHeld kind contents = .ok value

theorem offers_of_readContents {kind : κ} {contents : Draft} {value : α}
    (h : tagging.readContents isHeld levels kind contents = .ok value) : tagging.Offers value := by
  unfold readContents at h
  split at h
  · next bareValue bare =>
    left
    refine ⟨kind, ?_⟩
    split at h
    · cases h
    · cases h
    · obtain ⟨_, -, h⟩ := Result.bind_eq_ok.1 h
      obtain rfl := Result.pure_eq_ok.1 h
      exact bare
  · exact .inr ⟨isHeld, kind, contents, h⟩

theorem offers_of_ofItems {items : Items} {value : α}
    (h : tagging.ofItems isHeld levels items = .ok value) : tagging.Offers value := by
  obtain ⟨⟨tag, rest⟩, -, h⟩ := Result.bind_eq_ok.1 h
  obtain ⟨kind, -, h⟩ := Result.bind_eq_ok.1 h
  obtain ⟨⟨contents, rest⟩, -, h⟩ := Result.bind_eq_ok.1 h
  obtain ⟨found, read, h⟩ := Result.bind_eq_ok.1 h
  obtain ⟨_, -, h⟩ := Result.bind_eq_ok.1 h
  obtain rfl := Result.pure_eq_ok.1 h
  exact offers_of_readContents read

/-- A state that is done has a value that the tagging offers. -/
def IsSound (tagging : Tagging κ α) : State κ α → Prop
  | .done value => tagging.Offers value
  | _ => True

theorem isSound_of_slot {state state' : State κ α} {key : String}
    {read : Draft → Read (State κ α)} {draft : Draft}
    (known : tagging.slot isHeld levels state key = .read read) (h : read draft = .ok state') :
    tagging.IsSound state' := by
  unfold slot at known
  split at known
  · cases state with
    | start =>
      obtain rfl := Slot.read.inj known
      obtain ⟨kind, -, h⟩ := Result.bind_eq_ok.1 h
      obtain rfl := Result.pure_eq_ok.1 h
      trivial
    | held contents =>
      obtain rfl := Slot.read.inj known
      obtain ⟨kind, -, h⟩ := Result.bind_eq_ok.1 h
      split at h
      · next value found =>
        obtain rfl := Result.pure_eq_ok.1 h
        exact offers_of_readContents found
      · cases h
    | tagged kind => cases known
    | done value => cases known
  · cases state with
    | start =>
      obtain rfl := Slot.read.inj known
      obtain ⟨_, -, h⟩ := Result.bind_eq_ok.1 h
      obtain rfl := Result.pure_eq_ok.1 h
      trivial
    | tagged kind =>
      obtain rfl := Slot.read.inj known
      obtain ⟨value, found, h⟩ := Result.bind_eq_ok.1 h
      obtain rfl := Result.pure_eq_ok.1 h
      exact offers_of_readContents found
    | held contents => cases known
    | done value => cases known
  · cases known

theorem offers_of_ofMembers {members : Members} {value : α}
    (h : tagging.ofMembers isHeld levels members = .ok value) : tagging.Offers value := by
  obtain ⟨state, walked, h⟩ := Result.bind_eq_ok.1 h
  have begun : tagging.IsSound .start := trivial
  have sound : tagging.IsSound state :=
    Members.walk_invariant (fun _ _ _ _ _ _ known => isSound_of_slot known) begun walked
  cases state with
  | start => cases h
  | held contents => cases h
  | tagged kind =>
    simp only [finish] at h
    split at h
    · next found bare =>
      obtain rfl := Except.ok.inj h
      exact .inl ⟨kind, bare⟩
    · cases h
  | done found =>
    obtain rfl := Except.ok.inj h
    exact sound

theorem offers_of_read {draft : Draft} {value : α}
    (h : tagging.read isHeld levels draft = .ok value) : tagging.Offers value := by
  cases draft with
  | array items => exact offers_of_ofItems h
  | object members => exact offers_of_ofMembers h
  | _ => cases h

end Tagging

end FuzzBridge.Json
