import BracketTally.Invocation

namespace BracketTally.Main

def systemError? : IO.Error → Option (UInt32 × String)
  | .noFileOrDirectory _ code details | .interrupted _ code details => some (code, details)
  | .permissionDenied _ code details | .alreadyExists _ code details
  | .invalidArgument _ code details | .inappropriateType _ code details
  | .resourceExhausted _ code details | .noSuchThing _ code details => some (code, details)
  | .otherError code details | .resourceBusy code details | .resourceVanished code details
  | .unsupportedOperation code details | .hardwareFault code details
  | .unsatisfiedConstraints code details | .illegalOperation code details
  | .protocolError code details | .timeExpired code details => some (code, details)
  | .unexpectedEof | .userError _ => none

def faultOf (e : IO.Error) : Fault :=
  match systemError? e with
  | some (code, details) => .ofSystem code.toNat details
  | none => ⟨.other, toString e⟩

def chunkSize : USize := 65536

partial def readChunks (handle : IO.FS.Handle) (done : List Read) : IO (List Read) := do
  match ← (handle.read chunkSize).toBaseIO with
  | .error e =>
      let fault := faultOf e
      if fault.kind = .interrupted then readChunks handle (.failed fault :: done)
      else return (.failed fault :: done).reverse
  | .ok bytes =>
      if bytes.isEmpty then return done.reverse
      else readChunks handle (.data bytes.toList :: done)

def readScript (path : String) : IO (Except Fault (List Read)) := do
  match ← (IO.FS.Handle.mk path .read).toBaseIO with
  | .error e => return .error (faultOf e)
  | .ok handle => return .ok (← readChunks handle [])

def openNamed (words : List RawText) : IO (RawText → Except Fault (List Read)) := do
  match CommandLine.Arguments.parse CommandLine.parse words with
  | .ok ⟨some path, _, _, _, _⟩ =>
      let answer ← readScript path.display
      return fun _ => answer
  | _ => return fun _ => .ok []

def colourVariables : List String := ["CI", "CLICOLOR", "CLICOLOR_FORCE", "NO_COLOR", "TERM"]

def environment : IO (String → Option String) := do
  let pairs ← colourVariables.mapM fun name => do return (name, ← IO.getEnv name)
  return fun name => (pairs.lookup name).join

def seconds (since now : Nat) : Float := (now - since).toFloat / 1000000000.0

partial def forever : IO UInt32 := forever

end BracketTally.Main

open BracketTally in
def main (words : List String) : IO UInt32 := do
  let since ← IO.monoNanosNow
  let output ← IO.getStdout
  let errors ← IO.getStderr
  let environment ← Main.environment
  let words := words.map RawText.ofString
  let painter := Painter.ansi.muted !(wantsColour environment (← output.isTty))
  let marked : Marked :=
    ⟨wantsMarks environment (← output.isTty), wantsMarks environment (← errors.isTty)⟩
  let setting : Setting := ⟨painter, .endless, ← Main.openNamed words⟩
  let ended := invoke CommandLine.parse (CommandLine.Stop.ended marked) setting words
  output.write ⟨ended.output.toArray⟩
  output.flush
  let now ← IO.monoNanosNow
  errors.putStr (ended.errors (Main.seconds since now))
  match ended.status with
  | some status => return status.toUInt32
  | none => Main.forever
