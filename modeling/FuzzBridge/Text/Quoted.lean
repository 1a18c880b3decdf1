import FuzzBridge.Text.Unshown

/-!
Quoted text, as messages show names, paths and characters: the quote and the backslash are escaped
by a backslash, line ends, tabs and NUL by a letter, and what has no glyph of its own by its code.
-/

namespace FuzzBridge.Text

def codeEscape (c : Char) : List Char :=
  '\\' :: 'u' :: '{' :: Nat.toDigits 16 c.toNat ++ ['}']

def needsCode (c : Char) : Bool :=
  c.toNat < 0x20 || c.toNat == 0x7F || (0x80 ≤ c.toNat && isUnshown c)

def quotedChar (quote c : Char) : List Char :=
  if c = '\n' then ['\\', 'n']
  else if c = '\r' then ['\\', 'r']
  else if c = '\t' then ['\\', 't']
  else if c.toNat = 0 then ['\\', '0']
  else if c = '\\' || c = quote then ['\\', c]
  else if needsCode c then codeEscape c
  else [c]

def quoted (text : String) : String :=
  String.ofList ('"' :: text.toList.flatMap (quotedChar '"') ++ ['"'])

def quotedCharacter (c : Char) : String :=
  String.ofList ('\'' :: quotedChar '\'' c ++ ['\''])

end FuzzBridge.Text
