set_option autoImplicit false

/-! # Byte sinks

A sink takes bytes until its capacity is used up; **what it has taken is then a prefix of all
that was written**. Writing nothing never fails.
-/

namespace SchemaHeader

/-- A sink for bytes; without a capacity it never fills up. -/
structure Sink where
  capacity : Option Nat
  written : ByteArray

namespace Sink

/-- An empty sink. -/
def empty (capacity : Option Nat) : Sink :=
  ⟨capacity, ByteArray.empty⟩

/-- The wording of a write that did not fit. -/
def fullMessage : String := "sink full"

/-- Writes bytes as far as there is room, and says whether all of them fitted. -/
def write (sink : Sink) (bytes : ByteArray) : Sink × Bool :=
  match sink.capacity with
  | none => ({ sink with written := sink.written ++ bytes }, true)
  | some capacity =>
    let room := capacity - sink.written.size
    if bytes.size ≤ room then ({ sink with written := sink.written ++ bytes }, true)
    else ({ sink with written := sink.written ++ bytes.extract 0 room }, false)

/-- Writes lines one after the other, up to the first that does not fit. -/
def writeLines (sink : Sink) : List String → Sink × Bool
  | [] => (sink, true)
  | line :: rest =>
    match sink.write (line ++ "\n").toUTF8 with
    | (next, true) => next.writeLines rest
    | (next, false) => (next, false)

/-- A sink without a capacity takes everything. -/
theorem writeLines_unbounded (sink : Sink) (h : sink.capacity = none) (lines : List String) :
    (sink.writeLines lines).2 = true ∧ (sink.writeLines lines).1.capacity = none := by
  induction lines generalizing sink with
  | nil => exact ⟨rfl, h⟩
  | cons line rest ih =>
    have hw : sink.write (line ++ "\n").toUTF8
        = ({ sink with written := sink.written ++ (line ++ "\n").toUTF8 }, true) := by
      rw [write, h]
    rw [writeLines, hw]
    exact ih _ h

end Sink

end SchemaHeader
