import BracketTally.CommandLine
import BracketTally.Run
import BracketTally.Text.Quoted

namespace BracketTally

/-! ## Whether to use colour -/

def isOn (value : String) : Bool := value ≠ "0"

def wantsColour (environment : String → Option String) (terminal : Bool) : Bool :=
  if (environment "CLICOLOR_FORCE").any isOn then true
  else if (environment "NO_COLOR").isSome then false
  else terminal && ((environment "CLICOLOR").map isOn).getD true

/-! ## Whether to show marks -/

def isSet (value : Option String) : Bool := value.any (· ≠ "")

def canShowMarks (environment : String → Option String) : Bool :=
  (environment "TERM").any (· ≠ "dumb") || (environment "CLICOLOR").isSome ||
    (environment "CI").isSome

def wantsMarks (environment : String → Option String) (terminal : Bool) : Bool :=
  if isSet (environment "NO_COLOR") then false
  else if isSet (environment "CLICOLOR_FORCE") then true
  else terminal && ((environment "CLICOLOR").map isOn).getD true && canShowMarks environment

structure Marked where
  output : Bool
  errors : Bool

/-! ## Streams -/

structure Ended where
  /-- There is none if the run never ends. -/
  status : Option Nat
  output : List UInt8
  errors : Float → String

def linesText (lines : List String) : String := String.join (lines.map (· ++ "\n"))

def Failure.report (f : Failure) : String :=
  "Error: Custom \x7b kind: " ++ f.fault.kind.label ++ ", error: " ++
    Text.quoted f.fault.message ++ " \x7d"

def Outcome.ended (o : Outcome) : Ended :=
  match o.result with
  | .ok code => ⟨some code.number, o.output, fun elapsed => linesText (o.diagnostics elapsed)⟩
  | .error f =>
      ⟨some ExitCode.failure.number, o.output,
        fun elapsed => linesText (o.diagnostics elapsed ++ [f.report])⟩
  | .never => ⟨none, o.output, fun elapsed => linesText (o.diagnostics elapsed)⟩

def CommandLine.Message.written (message : CommandLine.Message) (marked : Bool) : String :=
  if marked then message.styled else message.plain .stream

def CommandLine.Stop.ended (marked : Marked) : CommandLine.Stop → Ended
  | .refused r => ⟨some 2, [], fun _ => r.message.written marked.errors ++ "\n"⟩
  | stop => ⟨some 0, Utf8.encode (stop.message.written marked.output).toList, fun _ => ""⟩

def invoke {ε : Type} (parser : CommandLine.Parser CommandLine.Flag ε) (stopped : ε → Ended)
    (setting : Setting) (words : List RawText) : Ended :=
  match CommandLine.Arguments.parse parser words with
  | .ok arguments => (run setting arguments).ended
  | .error stop => stopped stop

end BracketTally
