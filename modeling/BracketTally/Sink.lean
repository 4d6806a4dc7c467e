import BracketTally.Fault
import BracketTally.Text.Utf8

namespace BracketTally

/-- One call takes as many bytes as the grant in front, at most, and none if it is interrupted.
Behind the grants every call meets the fault. -/
inductive Room
  | endless
  | limited (grants : List Nat) (fault : Fault)

structure Sink where
  room : Room
  flushing : Except Fault Unit

structure Written (α : Type) where
  accepted : List UInt8
  result : Answer Fault α

namespace Written

variable {α β : Type}

def andThen (w : Written α) (next : α → Written β) : Written β :=
  match w.result with
  | .ok a => ⟨w.accepted ++ (next a).accepted, (next a).result⟩
  | .error fault => ⟨w.accepted, .error fault⟩
  | .never => ⟨w.accepted, .never⟩

def nothing (a : α) : Written α := ⟨[], .ok a⟩

@[simp]
theorem andThen_nothing (w : Written α) : (w.andThen fun a => nothing a) = w := by
  obtain ⟨accepted, a | fault | _⟩ := w <;> simp [andThen, nothing]

@[simp]
theorem nothing_andThen (a : α) (next : α → Written β) : (nothing a).andThen next = next a := rfl

theorem andThen_assoc {γ : Type} (w : Written α) (f : α → Written β) (g : β → Written γ) :
    (w.andThen f).andThen g = w.andThen fun a => (f a).andThen g := by
  obtain ⟨accepted, a | fault | _⟩ := w
  · cases h : (f a).result <;> simp [andThen, h]
  · rfl
  · rfl

end Written

namespace Sink

def endless : Sink := ⟨.endless, .ok ()⟩

def limited (grants : List Nat) (fault : Fault) : Sink := ⟨.limited grants fault, .ok ()⟩

/-- The rest of the grants is `none` when they did not suffice. -/
def grant : List Nat → List UInt8 → List UInt8 × Option (List Nat)
  | [], bytes => ([], if bytes.isEmpty then some [] else none)
  | g :: grants, bytes =>
      if bytes.length ≤ g then (bytes, some ((g - bytes.length) :: grants))
      else
        let rest := grant grants (bytes.drop g)
        (bytes.take g ++ rest.1, rest.2)

def capacity : List Nat → Nat
  | [] => 0
  | g :: grants => g + capacity grants

def write (sink : Sink) (bytes : List UInt8) : Written Sink :=
  match sink.room with
  | .endless => ⟨bytes, .ok sink⟩
  | .limited grants fault =>
      match grant grants bytes with
      | (accepted, some left) => ⟨accepted, .ok { sink with room := .limited left fault }⟩
      | (accepted, none) => ⟨accepted, fault.repeated⟩

def writeAll (sink : Sink) : List (List UInt8) → Written Sink
  | [] => .nothing sink
  | bytes :: pieces => (sink.write bytes).andThen fun sink => sink.writeAll pieces

def flush (sink : Sink) : Written Unit := ⟨[], .ofExcept sink.flushing⟩

end Sink

/-! ## Lines -/

def lineBytes (line : String) : List UInt8 := Utf8.encode line.toList ++ [0x0A]

namespace Sink

def writeLine (sink : Sink) (line : String) : Written Sink :=
  sink.writeAll [Utf8.encode line.toList, [0x0A]]

def writeLines (sink : Sink) : List String → Written Sink
  | [] => .nothing sink
  | line :: lines => (sink.writeLine line).andThen fun sink => sink.writeLines lines

/-! ## Laws -/

theorem grant_nil (grants : List Nat) : grant grants [] = ([], some grants) := by
  cases grants <;> simp [grant]

theorem grant_append (grants : List Nat) (s t : List UInt8) :
    grant grants (s ++ t) =
      match grant grants s with
      | (accepted, some left) => (accepted ++ (grant left t).1, (grant left t).2)
      | (accepted, none) => (accepted, none) := by
  induction grants generalizing s with
  | nil => cases s <;> simp [grant]
  | cons g grants ih =>
      rw [grant, grant, List.length_append]
      by_cases fits : s.length ≤ g
      · rw [if_pos fits]
        by_cases both : s.length + t.length ≤ g
        · have rest : t.length ≤ g - s.length := by omega
          simp only [if_pos both, grant, if_pos rest, Nat.sub_sub]
        · have rest : ¬ t.length ≤ g - s.length := by omega
          simp only [if_neg both, grant, if_neg rest, List.take_append,
            List.take_of_length_le fits, List.drop_append, List.drop_of_length_le fits,
            List.nil_append, List.append_assoc]
      · have more : ¬ s.length + t.length ≤ g := by omega
        have inside : g ≤ s.length := by omega
        rw [if_neg fits, if_neg more, List.take_append_of_le_length inside,
          List.drop_append_of_le_length inside, ih]
        rcases grant grants (s.drop g) with ⟨accepted, _ | left⟩ <;> simp

theorem grant_accepted (grants : List Nat) (bytes : List UInt8) :
    (grant grants bytes).1 = bytes.take (capacity grants) := by
  induction grants generalizing bytes with
  | nil => simp [grant, capacity]
  | cons g grants ih =>
      rw [grant, capacity]
      split
      · rw [List.take_of_length_le (by omega)]
      · simp only [List.take_add, ih]

theorem grant_left (grants : List Nat) (bytes : List UInt8) :
    (grant grants bytes).2.map capacity =
      if bytes.length ≤ capacity grants then some (capacity grants - bytes.length) else none := by
  induction grants generalizing bytes with
  | nil => cases bytes <;> simp [grant, capacity]
  | cons g grants ih =>
      rw [grant, capacity]
      by_cases fits : bytes.length ≤ g
      · rw [if_pos fits, if_pos (by omega), Option.map_some, capacity]
        congr 1
        omega
      · rw [if_neg fits, ih, List.length_drop]
        by_cases enough : bytes.length ≤ g + capacity grants
        · rw [if_pos (by omega), if_pos enough]
          congr 1
          omega
        · rw [if_neg (by omega), if_neg enough]

theorem write_nil (sink : Sink) : sink.write [] = .nothing sink := by
  obtain ⟨_ | ⟨grants, fault⟩, flushing⟩ := sink
  · rfl
  · simp [write, grant_nil, Written.nothing]

theorem write_append (sink : Sink) (s t : List UInt8) :
    sink.write (s ++ t) = (sink.write s).andThen fun sink => sink.write t := by
  obtain ⟨_ | ⟨grants, fault⟩, flushing⟩ := sink
  · rfl
  · simp only [write, grant_append grants s t]
    rcases grant grants s with ⟨accepted, _ | left⟩
    · by_cases again : fault.kind = .interrupted
      · simp [Fault.repeated_of_eq again, Written.andThen]
      · simp [Fault.repeated_of_ne again, Written.andThen]
    · rcases h : grant left t with ⟨_, _ | _⟩ <;> simp [Written.andThen, h]

theorem writeAll_eq (sink : Sink) (pieces : List (List UInt8)) :
    sink.writeAll pieces = sink.write pieces.flatten := by
  induction pieces generalizing sink with
  | nil => exact sink.write_nil.symm
  | cons bytes pieces ih => simp only [writeAll, ih, List.flatten_cons, write_append]

theorem writeLine_eq (sink : Sink) (line : String) :
    sink.writeLine line = sink.write (lineBytes line) := by
  simp [writeLine, writeAll_eq, lineBytes]

theorem writeLines_eq (sink : Sink) (lines : List String) :
    sink.writeLines lines = sink.write (lines.flatMap lineBytes) := by
  induction lines generalizing sink with
  | nil => exact sink.write_nil.symm
  | cons line lines ih => simp only [writeLines, writeLine_eq, ih, List.flatMap_cons, write_append]

theorem flush_endless : endless.flush = .nothing () := rfl

theorem flush_limited (grants : List Nat) (fault : Fault) :
    (limited grants fault).flush = .nothing () := rfl

/-! ## All bytes -/

def deliver {α : Type} (sink : Sink) (bytes : List UInt8) (a : α) : Written α :=
  (sink.write bytes).andThen fun _ => .nothing a

theorem deliver_endless {α : Type} (bytes : List UInt8) (a : α) :
    endless.deliver bytes a = ⟨bytes, .ok a⟩ := by
  simp [deliver, write, endless, Written.andThen, Written.nothing]

theorem deliver_andThen_nothing {α β : Type} (sink : Sink) (bytes : List UInt8) (a : α)
    (f : α → β) :
    ((sink.deliver bytes a).andThen fun a => .nothing (f a)) = sink.deliver bytes (f a) := by
  simp only [deliver, Written.andThen_assoc, Written.nothing_andThen]

theorem deliver_limited {α : Type} (grants : List Nat) (fault : Fault) (bytes : List UInt8)
    (a : α) :
    (limited grants fault).deliver bytes a =
      if bytes.length ≤ capacity grants then ⟨bytes, .ok a⟩
      else ⟨bytes.take (capacity grants), fault.repeated⟩ := by
  have accepted := grant_accepted grants bytes
  have rest := grant_left grants bytes
  by_cases fits : bytes.length ≤ capacity grants
  · rw [List.take_of_length_le fits] at accepted
    rw [if_pos fits] at rest ⊢
    rcases granted : grant grants bytes with ⟨taken, _ | left⟩ <;> rw [granted] at accepted rest
    · cases rest
    · obtain rfl : taken = bytes := accepted
      simp [deliver, write, limited, granted, Written.andThen, Written.nothing]
  · rw [if_neg fits] at rest ⊢
    rcases granted : grant grants bytes with ⟨taken, _ | left⟩ <;> rw [granted] at accepted rest
    · obtain rfl : taken = bytes.take (capacity grants) := accepted
      by_cases again : fault.kind = .interrupted
      · simp [deliver, write, limited, granted, Written.andThen, Fault.repeated_of_eq again]
      · simp [deliver, write, limited, granted, Written.andThen, Fault.repeated_of_ne again]
    · cases rest

end Sink

end BracketTally
