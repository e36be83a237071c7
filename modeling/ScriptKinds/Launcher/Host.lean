import ScriptKinds.Text.Utf8

/-!
Hosts and the processes that run on them.

A host answers which files exist, starts processes, waits for them and kills
them.  What processes do may depend on every request made before, so it is
given for the journal of those requests.
-/

namespace ScriptKinds.Launcher

/-- The requests that have been made to a host. -/
structure Journal where
  /-- The paths that have been looked up. -/
  queried : List String
  started : List (List String)
  waited : Nat
  killed : Nat
deriving DecidableEq, Repr, Inhabited

namespace Journal

def blank : Journal := ⟨[], [], 0, 0⟩

/-- The journal after a look at a file. -/
def query (journal : Journal) (path : String) : Journal :=
  { journal with queried := journal.queried ++ [path] }

/-- The journal after the start of a process. -/
def start (journal : Journal) (line : List String) : Journal :=
  { journal with started := journal.started ++ [line] }

/-- The journal after a wait. -/
def wait (journal : Journal) : Journal :=
  { journal with waited := journal.waited + 1 }

end Journal

/-- A process as its starter sees it. -/
structure StartedProcess where
  /-- What it writes to its output, unless that stream is missing. -/
  output? : Option (List UInt8)
  /-- What it writes to its error stream, unless that stream is missing. -/
  errors? : Option (List UInt8)
  /-- The exit code that waiting reports, or why waiting fails. -/
  wait : Journal → Except String Int
  /-- Whether killing fails, and why. -/
  kill : Journal → Except String Unit

/-- The system in which processes are started. -/
structure Host where
  fileExists : String → Bool
  /-- The process that a command line starts, or why it cannot be started. -/
  launch : Journal → List String → Except String StartedProcess

/-- The parts of a sequence of bytes that end behind each line feed. -/
def byteLines : List UInt8 → List (List UInt8)
  | [] => []
  | b :: bs =>
      if b = 10 then [b] :: byteLines bs
      else
        match byteLines bs with
        | [] => [[b]]
        | line :: others => (b :: line) :: others

/-- A line without the line feed that ends it and a carriage return before
that. -/
def stripEnding (line : List UInt8) : List UInt8 :=
  match line.reverse with
  | 10 :: 13 :: rest => rest.reverse
  | 10 :: rest => rest.reverse
  | _ => line

/-- The lines of a stream up to the first one that is not text. -/
def streamLines (bytes : List UInt8) : List String :=
  (((byteLines bytes).map fun line => Text.decode? (stripEnding line)).takeWhile
    Option.isSome).filterMap id

end ScriptKinds.Launcher
