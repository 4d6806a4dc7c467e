import BracketTally.CommandLine.Arguments
import BracketTally.CommandLine.Message
import BracketTally.CommandLine.Word
import BracketTally.Title

namespace BracketTally.CommandLine.Help

def summary : String := "Per-line bracket balance checker"

def description : String :=
  "Reports the running balance of \x7b \x7d, ( ) and [ ] after every line of a file. Brackets " ++
    "inside '...', \"...\", '''...''' and \"\"\"...\"\"\" literals are ignored."

def synopsis : Message :=
  [Mark.heading.part "Usage:", unmarked " ", Mark.literal.part Title.name,
    unmarked " [OPTIONS] [PATH]\n\n"]

def purpose : Flag → String
  | .changesOnly => "Only print rows whose running balance changed"
  | .locate => "Print the first line where a running balance became non-zero"
  | .verbose => "Print scan metrics to stderr"
  | .noColour => "Disable coloured output"

/-! ## Options -/

structure Entry where
  letter? : Option Char
  name : String
  purpose : String

def entries (detail : Detail) : List Entry :=
  let other := match detail with
    | .brief => "Print help (see more with '--help')"
    | .full => "Print help (see a summary with '-h')"
  Arguments.command.flags.map (fun f => ⟨f.letter?, f.name, purpose f⟩) ++
    [⟨some 'h', "help", other⟩, ⟨some 'V', "version", "Print version"⟩]

def Entry.spelling (e : Entry) : Message :=
  let name := Mark.literal.part ("--" ++ e.name)
  match e.letter? with
  | some letter =>
      [unmarked "  ", Mark.literal.part (String.ofList ['-', letter]), unmarked ", ", name]
  | none => [unmarked "      ", name]

def nameWidth : Nat := 14

def Entry.brief (e : Entry) : Message :=
  let blanks := String.ofList (List.replicate (nameWidth - e.name.length) ' ')
  e.spelling ++ [unmarked (blanks ++ e.purpose ++ "\n")]

def Entry.full (e : Entry) : Message :=
  e.spelling ++ [unmarked ("\n          " ++ e.purpose ++ "\n")]

/-! ## Whole texts -/

def message : Detail → Message
  | .brief =>
      unmarked (summary ++ "\n\n") :: synopsis ++
        [Mark.heading.part "Arguments:", unmarked "\n  [PATH]  File to analyse\n\n",
          Mark.heading.part "Options:", unmarked "\n"] ++
        (entries .brief).flatMap Entry.brief
  | .full =>
      unmarked (description ++ "\n\n") :: synopsis ++
        [Mark.heading.part "Arguments:", unmarked "\n  [PATH]\n          File to analyse\n\n",
          Mark.heading.part "Options:", unmarked "\n"] ++
        List.intercalate [unmarked "\n"] ((entries .full).map Entry.full)

def version : Message := [unmarked (Title.name ++ " " ++ Title.version ++ "\n")]

end BracketTally.CommandLine.Help
