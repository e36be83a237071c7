namespace ScriptKinds.Files

/-- The parts of a text between its slashes. -/
def slashParts : List Char → List (List Char)
  | [] => [[]]
  | c :: cs =>
      if c = '/' then [] :: slashParts cs
      else
        match slashParts cs with
        | [] => [[c]]
        | part :: others => (c :: part) :: others

/-- A path by the texts between its slashes. -/
structure Path where
  parts : List String
deriving DecidableEq, Repr, Inhabited

namespace Path

/-- The path that a text writes. -/
def ofText (text : String) : Path :=
  ⟨(slashParts text.toList).map String.ofList⟩

/-- Whether a path starts at the root. -/
def isAbsolute (path : Path) : Bool :=
  match path.parts with
  | "" :: _ :: _ => true
  | _ => false

/-- The names of a path.  A single dot counts as a name only at the start. -/
def names (path : Path) : List String :=
  match path.parts with
  | [] => []
  | first :: others => [first].filter (· ≠ "") ++ others.filter fun part => part ≠ "" ∧ part ≠ "."

/-- Whether two paths are the same up to how their names are separated. -/
def agrees (path other : Path) : Bool :=
  path.isAbsolute == other.isAbsolute && path.names == other.names

/-- The steps along a path.  A slash at the end asks for a directory, as a
single dot does. -/
def steps (path : Path) : List String :=
  path.parts.filter (· ≠ "") ++
    match path.parts.getLast? with
    | some "" => ["."]
    | _ => []

end Path

end ScriptKinds.Files
