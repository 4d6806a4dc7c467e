import BracketTally.CommandLine.Arguments
import BracketTally.Diagnostics
import BracketTally.Reader
import BracketTally.Report.Writing

namespace BracketTally

inductive ExitCode
  | success
  | failure
  deriving DecidableEq

def ExitCode.number : ExitCode → Nat
  | success => 0
  | failure => 1

inductive Failure
  | opening (path : RawText) (fault : Fault)
  | reading (path : RawText) (error : ReadError)
  | writing (fault : Fault)

def Failure.fault : Failure → Fault
  | opening path f => ⟨f.kind, "Failed to open " ++ path.display ++ ": " ++ f.message⟩
  | reading path e =>
      ⟨e.toFault.kind, "Failed to read " ++ path.display ++ ": " ++ e.toFault.message⟩
  | writing f => f

/-- The diagnostics depend on the seconds that a run takes. -/
structure Outcome where
  output : List UInt8
  diagnostics : Float → List String
  result : Answer Failure ExitCode

structure Setting where
  painter : Painter
  sink : Sink
  openPath : RawText → Except Fault (List Read)

def usage : String := "Usage: " ++ Title.name ++ " path/to/file"

def readPath (openPath : RawText → Except Fault (List Read)) (path : RawText) :
    Except Failure (List String) :=
  match openPath path with
  | .error f => .error (.opening path f)
  | .ok script =>
      match (Reader.ofScript script).lines with
      | .error e => .error (.reading path e)
      | .ok lines => .ok lines

def Written.outcome {α : Type} (w : Written α) (code : ExitCode) (before : List String)
    (after : α → Float → List String) : Outcome :=
  match w.result with
  | .ok a => ⟨w.accepted, fun elapsed => before ++ after a elapsed, .ok code⟩
  | .error f => ⟨w.accepted, fun _ => before, .error (.writing f)⟩
  | .never => ⟨w.accepted, fun _ => before, .never⟩

/-- What is written counts once the sink is flushed. -/
def Written.flushed {α : Type} (w : Written α) (sink : Sink) : Written α :=
  w.andThen fun a => sink.flush.andThen fun _ => .nothing a

open CommandLine in
def run (setting : Setting) (arguments : Arguments) : Outcome :=
  let painter := setting.painter.muted arguments.noColour
  let told (lines : List String) : List String := if arguments.verbose then lines else []
  match arguments.path with
  | none => (setting.sink.writeLine usage).outcome .failure [] fun _ _ => []
  | some path =>
      let banner := told (Diagnostics.banner painter path)
      match readPath setting.openPath path with
      | .error f => ⟨[], fun _ => banner, .error f⟩
      | .ok lines =>
          let options : Report.Options := ⟨arguments.changesOnly, arguments.locate⟩
          let report :=
            Report.writeFrom Progress.next setting.sink options painter Progress.start lines
          (report.flushed setting.sink).outcome .success banner fun (summary, scan) elapsed =>
            told (Diagnostics.closing painter summary scan.mode elapsed)

/-! ## What comes of writing -/

section Outcome

variable {α : Type} (w : Written α) (code : ExitCode) (before : List String)
  (after : α → Float → List String)

theorem Written.flushed_eq_self {sink : Sink} (flushed : sink.flush = .nothing ()) :
    w.flushed sink = w := by
  simp only [Written.flushed, flushed, nothing_andThen, andThen_nothing]

@[simp]
theorem Written.outcome_output : (w.outcome code before after).output = w.accepted := by
  unfold outcome
  cases w.result <;> rfl

@[simp]
theorem Written.outcome_result : (w.outcome code before after).result =
    (w.result.map fun _ => code).mapError Failure.writing := by
  unfold outcome
  cases w.result <;> rfl

end Outcome

end BracketTally
