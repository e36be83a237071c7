/-!
Positions and spans in a source.

A span is a pair of byte offsets.  A position also names the source it lies
in, which is needed only where it is shown to a reader.  Offsets are exact; in
words of 32 bits they are kept as they are in sources of less than `2 ^ 32`
bytes only.
-/

namespace ScriptKinds

/-- A byte offset in a named source. -/
structure Position where
  offset : Nat
  file : String
deriving DecidableEq, Repr, Inhabited

namespace Position

/-- The name of a source that was given none. -/
def unnamedSource : String := "shell"

/-- The position of an error that belongs to no source. -/
def nowhere : Position := ⟨0, "<null>"⟩

end Position

/-- The bytes from `start` up to, not including, `stop`. -/
structure Span where
  start : Nat
  stop : Nat
deriving DecidableEq, Repr, Inhabited

namespace Span

/-- What is left of a span whose ends are kept in words of 32 bits. -/
def kept (span : Span) : Span :=
  ⟨span.start % UInt32.size, span.stop % UInt32.size⟩

theorem kept_eq_self {span : Span} (hstart : span.start ≤ span.stop)
    (hstop : span.stop < UInt32.size) : span.kept = span := by
  have hlower : span.start < UInt32.size := Nat.lt_of_le_of_lt hstart hstop
  rw [kept, Nat.mod_eq_of_lt hlower, Nat.mod_eq_of_lt hstop]

end Span

end ScriptKinds
