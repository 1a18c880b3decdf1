/-!
Paths as texts. A path is a list of pieces with slashes between them; an empty piece and a single
dot lead nowhere else. Paths are kept as they were written, because messages show them so.
-/

namespace FuzzBridge.Path

/-- The pieces between slashes; an absolute path has an empty first one. -/
def piecesOf : List Char → List (List Char)
  | [] => [[]]
  | c :: rest =>
    if c = '/' then [] :: piecesOf rest
    else match piecesOf rest with
      | [] => [[c]]
      | piece :: pieces => (c :: piece) :: pieces

def pieces (path : String) : List String := (piecesOf path.toList).map String.ofList

def isAbsolute (path : String) : Bool := path.toList.head? = some '/'

/-- What a name stands for in a folder; an absolute name stands for itself. -/
def join (folder name : String) : String :=
  if isAbsolute name || folder = "" then name
  else if folder.toList.getLast? = some '/' then folder ++ name
  else folder ++ "/" ++ name

def isIdle (piece : String) : Bool := piece = "" || piece = "."

/-- Without the idle pieces at the end, of which the last stand first here. The first piece of a
path is never idle: it is the root, or where the path starts. -/
def dropIdle : List String → List String
  | piece :: before :: rest =>
    if isIdle piece then dropIdle (before :: rest) else piece :: before :: rest
  | start => start

def ofReversed : List String → String
  | [] => ""
  | [""] => "/"
  | pieces => "/".intercalate pieces.reverse

/-- The folder that a path names something in: nothing for the root and for the empty path. -/
def parent? (path : String) : Option String :=
  match dropIdle (pieces path).reverse with
  | [] | [""] => none
  | _ :: rest => some (ofReversed (dropIdle rest))

example : parent? "x" = some "" ∧ parent? "./x" = some "." ∧ parent? "/x" = some "/" ∧
    parent? "c/./x/" = some "c" ∧ parent? "/" = none := by decide +kernel

example : join "." "a.txt" = "./a.txt" ∧ join "c/" "x" = "c/x" ∧ join "" "x" = "x" := by
  decide +kernel

end FuzzBridge.Path
