/-!
Shell scripts: commands, and the words that they are made of. The words are expanded when a command
runs, so a word may hold commands again.
-/

namespace FuzzBridge.Program

/-- What stands in for a parameter that has no value: another text, a text that becomes its value,
or a complaint; or what stands in for one that has a value. -/
inductive Fallback where
  | other | assign | complain | instead
  deriving DecidableEq

inductive Direction where
  | input | output | append | both | copy
  deriving DecidableEq

mutual

/-- A part of a word. Quoted parts are kept whole. -/
inductive Part where
  | text (isQuoted : Bool) (text : List Char)
  | parameter (isQuoted : Bool) (name : String) (use : Use)
  | output (isQuoted : Bool) (script : Command)
  | number (isQuoted : Bool) (expression : List Part)

inductive Use where
  | whole
  | length
  | fallback (kind : Fallback) (isForEmpty : Bool) (word : List Part)
  | trim (isAtEnd isLongest : Bool) (pattern : List Part)
  | wrong

inductive Redirection where
  | file (channel : Nat) (direction : Direction) (target : List Part)
  | document (channel : Nat) (body : List Part)

/-- A simple command knows the line that it stands on. -/
inductive Command where
  | nothing
  | unreadable (line : Nat)
  | simple (line : Nat) (assignments : List (String × List Part)) (words : List (List Part))
    (redirections : List Redirection)
  | redirected (command : Command) (redirections : List Redirection)
  | sequence (first second : Command)
  | background (command : Command)
  | both (first second : Command)
  | either (first second : Command)
  | pipe (first second : Command)
  | negation (command : Command)
  | subshell (command : Command)
  | choice (condition yes no : Command)
  | selection (subject : List Part) (branches : List (List (List Part) × Command))
  | each (name : String) (items : List (List Part)) (body : Command)
  | loop (wanted : Bool) (condition body : Command)
  | definition (name : String) (body : Command)

end

abbrev Word := List Part

instance : Inhabited Command := ⟨.nothing⟩

end FuzzBridge.Program
