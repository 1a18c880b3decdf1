import FuzzBridge.Json.Reader
import FuzzBridge.Proofs.Json.Numeral
import FuzzBridge.Proofs.Result

/-!
The numbers of a JSON text. Every number of a value that was read is one that a numeral stands for:
the lexer makes numbers of numerals only, and the builder keeps them as they are.
-/

namespace FuzzBridge.Json

/-! Tokens. -/

def Token.IsWritten (token : Token) : Prop :=
  ∀ numeral, token = .number (some numeral) → numeral.IsWritten

theorem NumberState.isWritten_token (state : NumberState) : state.token.IsWritten := by
  obtain ⟨phase, _, _, _, _, _⟩ := state
  cases phase with
  | sign | point | mark | markSign => nofun
  | zero | whole | fraction | power => exact fun _ same => ⟨_, Token.number.inj same⟩

/-- A word that has been begun may still become its token. -/
structure Lexer.IsWritten (lexer : Lexer) : Prop where
  tokens : ∀ token ∈ lexer.tokens, token.IsWritten
  word : ∀ rest token, lexer.mode = .word rest token → token.IsWritten

namespace Lexer.IsWritten

variable {lexer : Lexer}

theorem emit (written : lexer.IsWritten) {token : Token} (next : token.IsWritten) :
    (lexer.emit token).IsWritten := by
  refine ⟨List.forall_mem_cons.2 ⟨next, written.tokens⟩, ?_⟩
  unfold Lexer.emit
  split <;> nofun

theorem illegal (written : lexer.IsWritten) : lexer.illegal.IsWritten := written.emit nofun

theorem enter (written : lexer.IsWritten) {mode : Mode}
    (word : ∀ rest token, mode = .word rest token → token.IsWritten) :
    Lexer.IsWritten { lexer with mode } :=
  ⟨written.tokens, word⟩

theorem ite {condition : Prop} [Decidable condition] {other : Lexer}
    (written : lexer.IsWritten) (otherwise : other.IsWritten) :
    (if condition then lexer else other).IsWritten := by
  split <;> assumption

theorem feedGap (written : lexer.IsWritten) (c : Char) : (lexer.feedGap c).IsWritten := by
  have word (rest : List Char) {token : Token} (sound : token.IsWritten) :
      Lexer.IsWritten { lexer with mode := .word rest token } := by
    refine written.enter fun _ _ same => ?_
    obtain ⟨-, rfl⟩ := Mode.word.inj same
    exact sound
  unfold Lexer.feedGap
  refine ite written ?_
  iterate 6 refine ite (written.emit nofun) ?_
  refine ite (written.enter nofun) ?_
  iterate 3 refine ite (word _ nofun) ?_
  iterate 3 refine ite (written.enter nofun) ?_
  exact written.illegal

theorem feedText (written : lexer.IsWritten) (state : TextState) (c : Char) :
    (lexer.feedText state c).IsWritten := by
  unfold Lexer.feedText
  split
  · split
    · exact written.emit nofun
    split
    · exact written.enter nofun
    split
    · exact written.illegal
    · exact written.enter nofun
  · split
    · exact written.enter nofun
    split
    · exact written.enter nofun
    · exact written.illegal
  · split
    · exact written.illegal
    · dsimp only
      split <;> exact written.enter nofun

theorem feedChar (written : lexer.IsWritten) (c : Char) : (lexer.feedChar c).IsWritten := by
  unfold Lexer.feedChar
  split
  · exact written.feedGap c
  · exact written.illegal
  · next expected rest token inside =>
    have sound := written.word _ _ inside
    split
    · exact written.illegal
    split
    · exact written.emit sound
    · refine written.enter fun _ _ same => ?_
      obtain ⟨-, rfl⟩ := Mode.word.inj same
      exact sound
  · exact written.feedText _ c
  · next state _ =>
    split
    · exact written.enter nofun
    split
    · exact written.illegal
    · exact (written.emit state.isWritten_token).feedGap c
  · exact written

theorem feed (written : lexer.IsWritten) (c : Option Char) : (lexer.feed c).IsWritten := by
  unfold Lexer.feed
  split
  · exact written.feedChar _
  split
  · exact written
  · split
    · exact written.enter nofun
    · exact written.illegal
  · next state _ =>
    split
    · exact written.illegal
    · exact (written.emit state.isWritten_token).illegal
  · exact written.illegal

theorem finish (written : lexer.IsWritten) : ∀ token ∈ lexer.finish, token.IsWritten := by
  unfold Lexer.finish
  split
  · simpa using written.tokens
  · simpa using written.tokens
  · next state _ => simpa using (written.emit state.isWritten_token).tokens
  · simpa using written.illegal.tokens
  · simpa using written.illegal.tokens

end Lexer.IsWritten

theorem isWritten_of_mem_tokens (text : Text.Decoded) : ∀ token ∈ tokens text, token.IsWritten := by
  have run : ∀ lexer : Lexer, lexer.IsWritten → (text.foldl Lexer.feed lexer).IsWritten := by
    induction text with
    | nil => exact fun _ written => written
    | cons c rest ih => exact fun lexer written => ih _ (written.feed c)
  exact (run .start ⟨nofun, nofun⟩).finish

/-! Drafts. -/

mutual

def Draft.IsWritten : Draft → Prop
  | .number (some value) => value.IsWritten
  | .array items => items.IsWritten
  | .object members => members.IsWritten
  | _ => True
termination_by structural draft => draft

def Items.IsWritten : Items → Prop
  | .stop _ => True
  | .cons first rest => first.IsWritten ∧ rest.IsWritten
termination_by structural items => items

def Members.IsWritten : Members → Prop
  | .stop _ => True
  | .cons _ value rest => value.IsWritten ∧ rest.IsWritten
termination_by structural members => members

end

theorem Items.isWritten_ofReversed (closed : Bool) {items : List Draft}
    (each : ∀ item ∈ items, item.IsWritten) : (Items.ofReversed closed items).IsWritten := by
  have onto : ∀ rest : Items, rest.IsWritten →
      (items.foldl (fun rest item => .cons item rest) rest).IsWritten := by
    induction items with
    | nil => exact fun _ written => written
    | cons item items ih =>
      rw [List.forall_mem_cons] at each
      exact fun rest written => ih each.2 (.cons item rest) ⟨each.1, written⟩
  exact onto (.stop closed) trivial

theorem Members.isWritten_ofReversed (closed : Bool) {members : List (Option String × Draft)}
    (each : ∀ member ∈ members, member.2.IsWritten) :
    (Members.ofReversed closed members).IsWritten := by
  have onto : ∀ rest : Members, rest.IsWritten →
      (members.foldl (fun rest member => .cons member.1 member.2 rest) rest).IsWritten := by
    induction members with
    | nil => exact fun _ written => written
    | cons member members ih =>
      rw [List.forall_mem_cons] at each
      exact fun rest written => ih each.2 (.cons member.1 member.2 rest) ⟨each.1, written⟩
  exact onto (.stop closed) trivial

def Frame.IsWritten : Frame → Prop
  | .array items => ∀ item ∈ items, item.IsWritten
  | .object members | .member members _ => ∀ member ∈ members, member.2.IsWritten

structure Builder.IsWritten (builder : Builder) : Prop where
  stack : ∀ frame ∈ builder.stack, frame.IsWritten
  root : ∀ value, builder.root = some value → value.IsWritten

namespace Builder.IsWritten

variable {builder : Builder}

theorem stop (written : builder.IsWritten) : builder.stop.IsWritten :=
  ⟨written.stack, written.root⟩

theorem complete (written : builder.IsWritten) {value : Draft} (sound : value.IsWritten) :
    (builder.complete value).IsWritten := by
  obtain ⟨stack, expect, root, trailing⟩ := builder
  obtain ⟨frames, ended⟩ := written
  cases stack with
  | nil => exact ⟨nofun, fun _ same => Option.some.inj same ▸ sound⟩
  | cons frame rest =>
    obtain ⟨inner, outer⟩ := List.forall_mem_cons.1 frames
    cases frame with
    | array items =>
      exact ⟨List.forall_mem_cons.2 ⟨List.forall_mem_cons.2 ⟨sound, inner⟩, outer⟩, ended⟩
    | member members key =>
      exact ⟨List.forall_mem_cons.2 ⟨List.forall_mem_cons.2 ⟨sound, inner⟩, outer⟩, ended⟩
    | object members => exact ⟨frames, ended⟩

theorem openFrame (written : builder.IsWritten) {frame : Frame} (sound : frame.IsWritten)
    (expect : Expect) : (builder.openFrame frame expect).IsWritten :=
  ⟨List.forall_mem_cons.2 ⟨sound, written.stack⟩, written.root⟩

theorem closeFrame (written : builder.IsWritten) : builder.closeFrame.IsWritten := by
  obtain ⟨stack, expect, root, trailing⟩ := builder
  obtain ⟨frames, ended⟩ := written
  cases stack with
  | nil => exact ⟨frames, ended⟩
  | cons frame rest =>
    obtain ⟨inner, outer⟩ := List.forall_mem_cons.1 frames
    have left : Builder.IsWritten ⟨rest, expect, root, trailing⟩ := ⟨outer, ended⟩
    cases frame with
    | array items => exact left.complete (Items.isWritten_ofReversed true inner)
    | object members => exact left.complete (Members.isWritten_ofReversed true inner)
    | member members key => exact ⟨frames, ended⟩

theorem feedValue (written : builder.IsWritten) {token : Token} (next : token.IsWritten) :
    (builder.feedValue token).IsWritten := by
  cases token with
  | null | bool value | text value => exact written.complete trivial
  | number value =>
    cases value with
    | none => exact written.complete trivial
    | some numeral => exact written.complete (next numeral rfl)
  | bracketOpen =>
    have empty : (Frame.array []).IsWritten := List.forall_mem_nil _
    exact written.openFrame empty _
  | braceOpen =>
    have empty : (Frame.object []).IsWritten := List.forall_mem_nil _
    exact written.openFrame empty _
  | _ => exact written.stop

theorem feedKey (written : builder.IsWritten) (key : Option String) :
    (builder.feedKey key).IsWritten := by
  obtain ⟨stack, expect, root, trailing⟩ := builder
  obtain ⟨frames, ended⟩ := written
  cases stack with
  | nil => exact ⟨frames, ended⟩
  | cons frame rest =>
    cases frame with
    | object members =>
      obtain ⟨inner, outer⟩ := List.forall_mem_cons.1 frames
      exact ⟨List.forall_mem_cons.2 ⟨inner, outer⟩, ended⟩
    | array items => exact ⟨frames, ended⟩
    | member members key => exact ⟨frames, ended⟩

theorem feedSeparator (written : builder.IsWritten) (token : Token) :
    (builder.feedSeparator token).IsWritten := by
  unfold Builder.feedSeparator
  split
  · exact ⟨written.stack, written.root⟩
  · exact written.closeFrame
  · exact ⟨written.stack, written.root⟩
  · exact written.closeFrame
  · exact written.stop

theorem feed (written : builder.IsWritten) {token : Token} (next : token.IsWritten) :
    (builder.feed token).IsWritten := by
  unfold Builder.feed
  split
  · exact written.feedValue next
  · exact written.closeFrame
  · exact written.feedValue next
  · exact written.feedSeparator _
  · exact written.closeFrame
  · exact written.feedKey _
  · exact written.feedKey _
  · exact ⟨written.stack, written.root⟩
  · exact ⟨written.stack, written.root⟩
  · exact written.stop

theorem foldl_feed (written : builder.IsWritten) {tokens : List Token}
    (each : ∀ token ∈ tokens, token.IsWritten) : (tokens.foldl Builder.feed builder).IsWritten := by
  induction tokens generalizing builder with
  | nil => exact written
  | cons token tokens ih =>
    rw [List.forall_mem_cons] at each
    exact ih (written.feed each.1) each.2

theorem abandon {stack : List Frame} (frames : ∀ frame ∈ stack, frame.IsWritten)
    {inner : Option Draft} (sound : ∀ value, inner = some value → value.IsWritten) :
    (Builder.abandon inner stack).IsWritten := by
  have last : (inner.getD .absent).IsWritten := by
    cases inner with
    | none => trivial
    | some value => exact sound value rfl
  induction stack generalizing inner with
  | nil => exact last
  | cons frame rest ih =>
    rw [List.forall_mem_cons] at frames
    have whole {value : Draft} (sound : value.IsWritten) :
        (Builder.abandon (some value) rest).IsWritten :=
      ih frames.2 (fun _ same => Option.some.inj same ▸ sound) sound
    cases frame with
    | array items =>
      refine whole (Items.isWritten_ofReversed false fun item member => ?_)
      rcases List.mem_append.1 member with added | kept
      · exact sound item (Option.mem_toList.1 added)
      · exact frames.1 item kept
    | object members => exact whole (Members.isWritten_ofReversed false frames.1)
    | member members key =>
      exact whole (Members.isWritten_ofReversed false (List.forall_mem_cons.2 ⟨last, frames.1⟩))

theorem finish (written : builder.IsWritten) : builder.finish.IsWritten := by
  unfold Builder.finish
  cases ended : builder.root with
  | none => exact abandon written.stack nofun
  | some value => exact written.root value ended

end Builder.IsWritten

theorem Document.isWritten_ofText (text : Text.Decoded) : (ofText text).root.IsWritten := by
  have start : Builder.start.IsWritten := ⟨List.forall_mem_nil _, nofun⟩
  exact (start.foldl_feed (isWritten_of_mem_tokens text)).finish

/-! Values. -/

mutual

def IsWritten : Json → Prop
  | .number value => value.IsWritten
  | .array items => AllWritten items
  | .object members => MembersWritten members
  | _ => True
termination_by structural value => value

def AllWritten : List Json → Prop
  | [] => True
  | item :: rest => item.IsWritten ∧ AllWritten rest
termination_by structural items => items

def MembersWritten : List (String × Json) → Prop
  | [] => True
  | (_, value) :: rest => value.IsWritten ∧ MembersWritten rest
termination_by structural members => members

end

theorem membersWritten_iff {members : List (String × Json)} :
    MembersWritten members ↔ ∀ member ∈ members, member.2.IsWritten := by
  induction members with
  | nil => exact ⟨fun _ => List.forall_mem_nil _, fun _ => trivial⟩
  | cons member rest ih => rw [List.forall_mem_cons, ← ih, MembersWritten]

mutual

theorem Draft.IsWritten.value {levels : Nat} : ∀ {draft : Draft} {value : Json},
    draft.IsWritten → draft.value levels = .ok value → value.IsWritten
  | .null, _, _, read | .bool _, _, _, read | .text (some _), _, _, read => by
    obtain rfl := Except.ok.inj read
    trivial
  | .number (some _), _, written, read => by
    obtain rfl := Except.ok.inj read
    exact written
  | .array items, _, written, read => by
    cases levels with
    | zero => cases read
    | succ levels =>
      obtain ⟨values, hvalues, rfl⟩ := Result.map_eq_ok.1 read
      exact Items.IsWritten.values written hvalues
  | .object members, _, written, read => by
    cases levels with
    | zero => cases read
    | succ levels =>
      obtain ⟨values, hvalues, rfl⟩ := Result.map_eq_ok.1 read
      exact Members.IsWritten.values written hvalues

theorem Items.IsWritten.values {levels : Nat} : ∀ {items : Items} {values : List Json},
    items.IsWritten → items.values levels = .ok values → AllWritten values
  | .stop true, _, _, read => by
    obtain rfl := Except.ok.inj read
    trivial
  | .cons first rest, _, written, read => by
    obtain ⟨value, hvalue, others⟩ := Result.bind_eq_ok.1 read
    obtain ⟨values, hvalues, same⟩ := Result.bind_eq_ok.1 others
    obtain rfl := Result.pure_eq_ok.1 same
    exact ⟨Draft.IsWritten.value written.1 hvalue, Items.IsWritten.values written.2 hvalues⟩

theorem Members.IsWritten.values {levels : Nat} :
    ∀ {members : Members} {values : List (String × Json)},
      members.IsWritten → members.values levels = .ok values → MembersWritten values
  | .stop true, _, _, read => by
    obtain rfl := Except.ok.inj read
    trivial
  | .cons (some key) first rest, _, written, read => by
    obtain ⟨value, hvalue, others⟩ := Result.bind_eq_ok.1 read
    obtain ⟨values, hvalues, same⟩ := Result.bind_eq_ok.1 others
    obtain rfl := Result.pure_eq_ok.1 same
    exact ⟨Draft.IsWritten.value written.1 hvalue, Members.IsWritten.values written.2 hvalues⟩

end

theorem isWritten_of_parse? {text : String} {json : Json} (parsed : parse? text = some json) :
    json.IsWritten := by
  have written := Document.isWritten_ofText (Text.ofChars text.toList)
  unfold parse? at parsed
  cases read : (Document.ofText (Text.ofChars text.toList)).read (Draft.value depthLimit) with
  | error flaw =>
    rw [read] at parsed
    cases parsed
  | ok value =>
    rw [read] at parsed
    obtain rfl : value = json := Option.some.inj parsed
    obtain ⟨whole, hwhole, after⟩ := Result.bind_eq_ok.1 read
    split at after
    · cases after
    · obtain rfl := Result.pure_eq_ok.1 after
      exact written.value hwhole

theorem natural_lt_of_parse? {text : String} {members : List (String × Json)}
    (parsed : parse? text = some (.object members)) (name : String) (value : Nat)
    (member : (name, .number (.natural value)) ∈ members) : value < Nat.pow 2 64 := by
  have written : MembersWritten members := isWritten_of_parse? parsed
  exact (membersWritten_iff.1 written _ member).lt

end FuzzBridge.Json
