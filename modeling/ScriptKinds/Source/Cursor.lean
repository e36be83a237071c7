import ScriptKinds.Source.Position
import ScriptKinds.Text.Utf8

namespace ScriptKinds

/-- A byte offset in a source with the text that lies ahead of it. -/
structure Cursor where
  file : String
  offset : Nat
  ahead : List Char
deriving DecidableEq, Repr, Inhabited

namespace Cursor

/-- At the start of a source. -/
def start (file source : String) : Cursor :=
  ⟨file, 0, source.toList⟩

def advance (cursor : Cursor) (bytes : Nat) : Cursor :=
  { cursor with offset := cursor.offset + bytes, ahead := Text.dropBytes bytes cursor.ahead }

/-- The character at the cursor, or the null character at the end. -/
def current (cursor : Cursor) : Char :=
  cursor.ahead.headD '\x00'

def atEnd (cursor : Cursor) : Bool :=
  cursor.ahead.isEmpty

def remainder (cursor : Cursor) : String :=
  String.ofList cursor.ahead

/-- The position of a cursor in its source. -/
def position (cursor : Cursor) : Position :=
  ⟨cursor.offset, cursor.file⟩

/-- The span of the next few bytes. -/
def spanOf (cursor : Cursor) (bytes : Nat) : Span :=
  ⟨cursor.offset, cursor.offset + bytes⟩

end Cursor

end ScriptKinds
