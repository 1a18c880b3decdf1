import FuzzBridge.Command.Arguments

/-!
Help texts: what a command is for, how it is called, and a section for each kind of thing that may
stand in a call. The texts of a section begin in one column, or below their names where that column
would leave too little of a line.
-/

namespace FuzzBridge.Command

structure HelpRow where
  lead : String
  name : String
  text : String

structure HelpSection where
  title : String
  rows : List HelpRow

structure HelpPage where
  about : String
  usage : String
  sections : List HelpSection

namespace HelpSection

def lineWidth : Nat := 100

def nameWidth (part : HelpSection) : Nat :=
  part.rows.foldl (fun width row => max width row.name.length) 2

/-- Whether the texts stand below the names: names and gaps take more than two fifths of a line, and
a text does not fit in what is left. -/
def isStacked (part : HelpSection) : Bool :=
  let taken := part.nameWidth + 12
  2 * lineWidth < 5 * taken && part.rows.any fun row => lineWidth < taken + row.text.length

def spaces (count : Nat) : String := String.ofList (List.replicate count ' ')

def indented (column : Nat) (text : String) : String :=
  String.ofList (text.toList.flatMap fun c =>
    if c = '\n' then c :: List.replicate column ' ' else [c])

def renderRow (part : HelpSection) (row : HelpRow) : String :=
  let head := "  " ++ row.lead ++ row.name
  if part.isStacked then head ++ "\n" ++ spaces 10 ++ indented 10 row.text
  else
    let column := row.lead.length + part.nameWidth + 4
    head ++ spaces (column - head.length) ++ indented column row.text

def render (part : HelpSection) : String :=
  part.title ++ ":\n" ++ "\n".intercalate (part.rows.map part.renderRow) ++ "\n"

end HelpSection

def HelpPage.render (page : HelpPage) : String :=
  "\n".intercalate
    ([page.about ++ "\n", "Usage: " ++ page.usage ++ "\n"] ++ page.sections.map HelpSection.render)

def OptionRule.form (rule : OptionRule) : String :=
  match rule.kind with
  | .flag => "--" ++ rule.name
  | .single | .repeated => "--" ++ rule.name ++ " <" ++ rule.label ++ ">"

def Operand.form (operand : Operand) : String := "<" ++ operand.name ++ ">"

def OptionRule.helpText (rule : OptionRule) (environment : Environment) : String :=
  let origin := rule.variableName?.map fun name =>
    "[env: " ++ name ++ "=" ++ (environment.find? name).getD "" ++ "]"
  let fallback := rule.fallback?.map fun value => "[default: " ++ value ++ "]"
  " ".intercalate (([some rule.about, origin, fallback].filterMap id).filter (· ≠ ""))

def helpRow : HelpRow := ⟨"-h, ", "--help", "Print help"⟩

example : (HelpSection.mk "Options" [⟨"    ", "--log <FILE>", "A log"⟩, helpRow]).render =
    "Options:\n      --log <FILE>  A log\n  -h, --help        Print help\n" := by decide +kernel

example :
    (HelpSection.mk "Options" [⟨"", HelpSection.spaces 40, HelpSection.spaces 60⟩]).isStacked =
      true := by decide +kernel

def Rules.helpPage (command : String) (environment : Environment) (rules : Rules) : HelpPage :=
  let required := rules.options.filter (·.isRequired)
  let others := if required.length = rules.options.length then [] else ["[OPTIONS]"]
  let operands := rules.operands.map fun operand => HelpRow.mk "" operand.form operand.about
  let options := rules.options.map fun rule =>
    HelpRow.mk "    " rule.form (rule.helpText environment)
  { about := rules.about
    usage := " ".intercalate ([command] ++ others ++ required.map OptionRule.form ++
      rules.operands.map Operand.form)
    sections := (if operands.isEmpty then [] else [⟨"Arguments", operands⟩]) ++
      [⟨"Options", options ++ [helpRow]⟩] }

end FuzzBridge.Command
