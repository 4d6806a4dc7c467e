import BracketTally.Proofs.Outcomes

namespace BracketTally

open CommandLine

def bannerFor (painter : Painter) (arguments : Arguments) : List String :=
  match arguments.path with
  | none => []
  | some path =>
      if arguments.verbose then Diagnostics.banner (painter.muted arguments.noColour) path else []

namespace Sink

variable {α : Type} (bytes : List UInt8) (code : ExitCode) (before : List String) (a : α)
  (after : α → Float → List String)

theorem outcome_endless :
    (endless.deliver bytes a).outcome code before after =
      ⟨bytes, fun elapsed => before ++ after a elapsed, .ok code⟩ := by
  rw [deliver_endless]
  rfl

theorem outcome_limited (grants : List Nat) (fault : Fault) :
    ((limited grants fault).deliver bytes a).outcome code before after =
      if bytes.length ≤ capacity grants then (endless.deliver bytes a).outcome code before after
      else ⟨bytes.take (capacity grants), fun _ => before, fault.repeated.mapError .writing⟩ := by
  rw [deliver_limited, deliver_endless]
  split
  · rfl
  · by_cases again : fault.kind = .interrupted
    · rw [Fault.repeated_of_eq again, Fault.repeated_of_eq again]
      rfl
    · rw [Fault.repeated_of_ne again, Fault.repeated_of_ne again]
      rfl

end Sink

section Run

variable (painter : Painter) (openPath : RawText → Except Fault (List Read))
  (arguments : Arguments)

theorem run_delivers :
    (∃ outcome, outcome.output = [] ∧
      ∀ sink, run ⟨painter, sink, openPath⟩ arguments = outcome) ∨
    ∃ (α : Type) (bytes : List UInt8) (a : α) (code : ExitCode) (after : α → Float → List String),
      ∀ sink : Sink, sink.flush = .nothing () →
        run ⟨painter, sink, openPath⟩ arguments =
          (sink.deliver bytes a).outcome code (bannerFor painter arguments) after := by
  cases named : arguments.path with
  | none =>
      refine .inr ⟨Unit, lineBytes usage, (), .failure, fun _ _ => [], fun sink _ => ?_⟩
      rw [run_without_path named, bannerFor, named]
  | some path =>
      cases read : readPath openPath path with
      | error failure =>
          -- nothing is written, so the sink does not matter
          exact .inl ⟨_, rfl, fun sink => run_of_readPath_error painter openPath named read⟩
      | ok lines =>
          have banner : bannerFor painter arguments = if arguments.verbose then
              Diagnostics.banner (painter.muted arguments.noColour) path else [] := by
            simp only [bannerFor, named]
          rw [banner]
          exact .inr ⟨_, _, _, _, _, fun sink flushed =>
            (run_of_readPath painter openPath named read).trans
              (congrArg (fun w => Written.outcome w _ _ _) (Written.flushed_eq_self _ flushed))⟩

theorem run_unflushed {path : RawText} (named : arguments.path = some path) {lines : List String}
    (read : readPath openPath path = .ok lines) (fault : Fault) :
    run ⟨painter, ⟨.endless, .error fault⟩, openPath⟩ arguments =
      ⟨(run ⟨painter, .endless, openPath⟩ arguments).output, fun _ => bannerFor painter arguments,
        .error (.writing fault)⟩ := by
  rw [(run_of_readPath_ok painter openPath named read).2,
    run_of_readPath painter openPath named read]
  simp only [bannerFor, named, Written.flushed, Sink.deliver, Sink.write, Sink.flush,
    Written.andThen, Written.nothing, Answer.ofExcept, Written.outcome, List.append_nil]

end Run

/-- Nothing is skipped, repeated or put in another order, neither in a report nor in a run.  If a
sink interrupts every call from some byte on, its caller never comes back. -/
theorem written_cutShort (grants : List Nat) (fault : Fault) :
    let limit := Sink.capacity grants
    (∀ options painter rows,
      let full := Report.write .endless options painter rows
      let cut := Report.write (.limited grants fault) options painter rows
      full.result = .ok (Report.summary rows) ∧
      (full.accepted.length ≤ limit → cut = full) ∧
      (limit < full.accepted.length → cut.accepted = full.accepted.take limit ∧
        (fault.kind ≠ .interrupted → cut.result = .error fault) ∧
        (fault.kind = .interrupted → cut.result = .never))) ∧
    ∀ painter openPath arguments,
      let full := run ⟨painter, .endless, openPath⟩ arguments
      let cut := run ⟨painter, .limited grants fault, openPath⟩ arguments
      (full.output.length ≤ limit → cut = full) ∧
      (limit < full.output.length → cut.output = full.output.take limit ∧
        (∀ elapsed, cut.diagnostics elapsed = bannerFor painter arguments) ∧
        (fault.kind ≠ .interrupted → cut.result = .error (.writing fault)) ∧
        (fault.kind = .interrupted → cut.result = .never)) := by
  intro limit
  refine ⟨?_, ?_⟩
  · intro options painter rows full cut
    have whole : full = _ := (Report.write_eq_deliver ..).trans (Sink.deliver_endless ..)
    have limited : cut = _ := (Report.write_eq_deliver ..).trans (Sink.deliver_limited ..)
    rw [limited, whole]
    refine ⟨rfl, fun fits => if_pos fits, fun more => ?_⟩
    rw [if_neg (Nat.not_le.2 more)]
    exact ⟨rfl, Fault.repeated_of_ne, Fault.repeated_of_eq⟩
  · intro painter openPath arguments full cut
    rcases run_delivers painter openPath arguments with
      ⟨outcome, empty, same⟩ | ⟨α, bytes, a, code, after, delivered⟩
    · have nothing : full.output = [] := by rw [← empty, ← same]
      refine ⟨fun _ => (same _).trans (same _).symm, fun more => ?_⟩
      rw [nothing] at more
      cases more
    · have whole := (delivered .endless Sink.flush_endless).trans (Sink.outcome_endless ..)
      have limited : cut = _ :=
        (delivered (.limited grants fault) (Sink.flush_limited ..)).trans (Sink.outcome_limited ..)
      have output : full.output = bytes := congrArg Outcome.output whole
      rw [← delivered .endless Sink.flush_endless] at limited
      rw [output]
      refine ⟨fun fits => limited.trans (if_pos fits), fun more => ?_⟩
      rw [limited, if_neg (Nat.not_le.2 more)]
      refine ⟨rfl, fun _ => rfl, fun lasting => ?_, fun again => ?_⟩
      · rw [Fault.repeated_of_ne lasting]
        rfl
      · rw [Fault.repeated_of_eq again]
        rfl

theorem written_cutShort_first_word :
    let sink := Sink.limited [3, 0, 4] ⟨.brokenPipe, "gone"⟩
    (Report.write sink ⟨true, true⟩ .ansi [⟨1, ⟨0, 1, 0⟩, "("⟩]).accepted =
        (Report.write .endless ⟨true, true⟩ .ansi [⟨1, ⟨0, 1, 0⟩, "("⟩]).accepted.take 7 ∧
      (Report.write sink ⟨true, true⟩ .ansi [⟨1, ⟨0, 1, 0⟩, "("⟩]).result =
        .error ⟨.brokenPipe, "gone"⟩ ∧
      (run ⟨.ansi, sink, fun _ => .ok []⟩ ⟨none, false, false, true, false⟩).output =
        [0x55, 0x73, 0x61, 0x67, 0x65, 0x3A, 0x20] ∧
      (run ⟨.ansi, sink, fun _ => .ok []⟩ ⟨none, false, false, true, false⟩).result =
        .error (.writing ⟨.brokenPipe, "gone"⟩) := by
  intro sink
  obtain ⟨reports, runs⟩ := written_cutShort [3, 0, 4] ⟨.brokenPipe, "gone"⟩
  obtain ⟨-, -, cut⟩ := reports ⟨true, true⟩ .ansi [⟨1, ⟨0, 1, 0⟩, "("⟩]
  obtain ⟨accepted, faulty, -⟩ := cut (by decide +kernel)
  obtain ⟨-, cutRun⟩ := runs .ansi (fun _ => .ok []) ⟨none, false, false, true, false⟩
  obtain ⟨output, -, faultyRun, -⟩ := cutRun (by decide)
  exact ⟨accepted, faulty (by decide), output, faultyRun (by decide)⟩

/-- Seven bytes are taken, and no fault is answered. -/
theorem write_interrupted_no_fault :
    let again : Fault := ⟨.interrupted, "again"⟩
    let full := Report.write .endless ⟨false, false⟩ .plain []
    let cut := Report.write (.limited [7] again) ⟨false, false⟩ .plain []
    7 < full.accepted.length ∧ cut.accepted = full.accepted.take 7 ∧ cut.result ≠ .error again := by
  decide +kernel

end BracketTally
