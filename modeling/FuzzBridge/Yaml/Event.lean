import FuzzBridge.Table
import FuzzBridge.Text.Utf8
import FuzzBridge.Yaml.Token

/-!
Events of a YAML document: its nodes in the order in which they begin, and where its collections
end. A text holds one document.
-/

namespace FuzzBridge.Yaml

/-- The anchor and the tag of a node. The handle of the tag is spelled out. -/
structure Properties where
  anchor : Option String
  tag : Option (List UInt8)

namespace Properties

def none : Properties := ⟨.none, .none⟩

def isEmpty (properties : Properties) : Bool :=
  properties.anchor.isNone && properties.tag.isNone

end Properties

/-- A reference is to a target: to the name of an anchor, or to what that stands for. -/
inductive Event (Target : Type) where
  | scalar (properties : Properties) (text : String) (isPlain : Bool)
  | reference (target : Target)
  | list (properties : Properties)
  | map (properties : Properties)
  | close

/-- The tokens that are left, the events so far with the last one first, and what the handles of
tags stand for. -/
structure Progress where
  tokens : List Token
  events : List (Event String)
  handles : Table (List UInt8)

abbrev Parsing := StateT Progress Option

namespace Parsing

def peek : Parsing (Option Token) := do return (← get).tokens.head?

def drop : Parsing Unit := modify fun progress => { progress with tokens := progress.tokens.drop 1 }

def accept (token : Token) : Parsing Bool := do
  if (← peek) = some token then
    drop
    return true
  else return false

def expect (token : Token) : Parsing Unit := do
  unless ← accept token do failure

def isAt (tokens : List Token) : Parsing Bool := do
  match ← peek with
  | some token => return tokens.contains token
  | none => return true

def add (event : Event String) : Parsing Unit :=
  modify fun progress => { progress with events := event :: progress.events }

def addMissing : Parsing Unit := add (.scalar .none "" true)

def spell (tag : Tag) : Parsing (List UInt8) := do
  if tag.handle = "" then return tag.suffix
  else match (← get).handles.find? tag.handle with
    | some start => return start ++ tag.suffix
    | none => failure

/-- The anchor and the tag of a node, in either order, each at most once. -/
def readProperties : Nat → Option String → Option Tag → Parsing Properties
  | 0, anchor, tag => return ⟨anchor, ← tag.mapM spell⟩
  | rounds + 1, anchor, tag => do
    match ← peek, anchor, tag with
    | some (.anchor name), none, _ =>
      drop
      readProperties rounds (some name) tag
    | some (.tag tag), _, none =>
      drop
      readProperties rounds anchor (some tag)
    | _, _, _ => return ⟨anchor, ← tag.mapM spell⟩

/-- The tokens after which a node of a block mapping may be missing. -/
def blockStops : List Token := [.key, .value, .blockEnd]

def readComma (isFirst : Bool) : Parsing Unit := if isFirst then return else expect .comma

mutual

/-- A node, which may be missing where one of the given tokens stands. -/

def readUnless (stops : List Token) (isBlock allowsItems : Bool) : Nat → Parsing Unit
  | 0 => failure
  | rounds + 1 => do
    if ← isAt stops then addMissing
    else readNode isBlock allowsItems rounds
termination_by structural rounds => rounds

/-- A node. Outside of brackets it may be a collection in a block, and in a mapping its items need
not be indented. -/

def readNode (isBlock allowsItems : Bool) : Nat → Parsing Unit
  | 0 => failure
  | rounds + 1 => do
    if let some (.reference name) := ← peek then
      drop
      add (.reference name)
    else
      readContent isBlock allowsItems (← readProperties 2 none none) rounds
termination_by structural rounds => rounds


def readContent (isBlock allowsItems : Bool) (properties : Properties) : Nat → Parsing Unit
  | 0 => failure
  | rounds + 1 => do
    match ← peek with
    | some (.scalar text isPlain) =>
      drop
      add (.scalar properties text isPlain)
    | some .flowSequence =>
      drop
      add (.list properties)
      readFlowItems true rounds
    | some .flowMapping =>
      drop
      add (.map properties)
      readFlowMembers true rounds
    | token =>
      if allowsItems && token = some .item then
        add (.list properties)
        readBareItems rounds
      else if isBlock && token = some .blockSequence then
        drop
        add (.list properties)
        readItems rounds
      else if isBlock && token = some .blockMapping then
        drop
        add (.map properties)
        readMembers rounds
      else if properties.isEmpty then failure
      else add (.scalar properties "" true)
termination_by structural rounds => rounds


def readItems : Nat → Parsing Unit
  | 0 => failure
  | rounds + 1 => do
    if ← accept .item then
      readUnless [.item, .blockEnd] true false rounds
      readItems rounds
    else
      expect .blockEnd
      add .close
termination_by structural rounds => rounds

/-- The items of a sequence that is indented no further than the mapping that it stands in. -/

def readBareItems : Nat → Parsing Unit
  | 0 => failure
  | rounds + 1 => do
    if ← accept .item then
      readUnless (.item :: blockStops) true false rounds
      readBareItems rounds
    else add .close
termination_by structural rounds => rounds


def readMembers : Nat → Parsing Unit
  | 0 => failure
  | rounds + 1 => do
    if ← accept .blockEnd then add .close
    else
      expect .key
      readUnless blockStops true true rounds
      if ← accept .value then readUnless blockStops true true rounds else addMissing
      readMembers rounds
termination_by structural rounds => rounds

/-- The items of a sequence in brackets. An item may be a mapping of one member. A token that shows
that the key of it is missing is taken as well. -/

def readFlowItems (isFirst : Bool) : Nat → Parsing Unit
  | 0 => failure
  | rounds + 1 => do
    if ← accept .flowSequenceEnd then
      add .close
      return
    readComma isFirst
    if ← accept .flowSequenceEnd then
      add .close
      return
    if ← accept .key then
      add (.map .none)
      if ← isAt [.value, .comma, .flowSequenceEnd] then
        drop
        addMissing
      else readNode false false rounds
      if ← accept .value then readUnless [.comma, .flowSequenceEnd] false false rounds
      else addMissing
      add .close
    else readNode false false rounds
    readFlowItems false rounds
termination_by structural rounds => rounds


def readFlowMembers (isFirst : Bool) : Nat → Parsing Unit
  | 0 => failure
  | rounds + 1 => do
    if ← accept .flowMappingEnd then
      add .close
      return
    readComma isFirst
    if ← accept .flowMappingEnd then
      add .close
      return
    if ← accept .key then
      readUnless [.value, .comma, .flowMappingEnd] false false rounds
      if ← accept .value then readUnless [.comma, .flowMappingEnd] false false rounds
      else addMissing
    else
      readNode false false rounds
      addMissing
    readFlowMembers false rounds
termination_by structural rounds => rounds

end

/-- The directives before a document: whether a version is among them, and the handles. The version
is known, and each is given once. -/
def readDirectives : Nat → Bool → Table (List UInt8) → Parsing (Bool × Table (List UInt8))
  | 0, hasVersion, handles => return (hasVersion, handles)
  | rounds + 1, hasVersion, handles => do
    match ← peek with
    | some (.directive (.version major minor)) =>
      if !hasVersion && major = 1 && (minor = 1 || minor = 2) then
        drop
        readDirectives rounds true handles
      else failure
    | some (.directive (.handle name start)) =>
      if handles.contains name then failure
      else
        drop
        readDirectives rounds hasVersion (handles.insert name start)
    | _ => return (hasVersion, handles)

def coreStart : List UInt8 := Text.encode "tag:yaml.org,2002:"

def coreHandles : List (String × List UInt8) := [("!", bytesOf ['!']), ("!!", coreStart)]

def setHandles (handles : Table (List UInt8)) : Parsing Unit :=
  modify fun progress => { progress with
    handles := coreHandles.foldl (fun handles (name, start) =>
      if handles.contains name then handles else handles.insert name start) handles }

def isAtDocumentEdge : Parsing Bool := do
  match ← peek with
  | some (.directive _) | some .documentStart | some .documentEnd | none => return true
  | some _ => return false

def readDocument (rounds : Nat) : Parsing Unit := do
  let (hasVersion, handles) ← readDirectives rounds false Table.empty
  setHandles handles
  if ← accept .documentStart then
    if ← isAtDocumentEdge then addMissing
    else readNode true false rounds
  else if hasVersion || !handles.isEmpty then failure
  else unless (← peek).isNone do readNode true false rounds
  unless (← get).tokens.all (· = .documentEnd) do failure

end Parsing

/-- The events of a text of one document, of which there are none in an empty text. No token is
looked at more than four times. -/
def Event.ofText? (text : List Char) : Option (List (Event String)) := do
  let tokens ← Token.ofText? text
  let start := ⟨tokens, [], Table.empty⟩
  let (_, progress) ← (Parsing.readDocument (4 * (tokens.length + 2))).run start
  return progress.events.reverse

end FuzzBridge.Yaml
