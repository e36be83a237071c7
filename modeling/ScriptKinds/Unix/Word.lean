namespace ScriptKinds.Unix

/-- How a character of a word is quoted. -/
inductive Quoting where
  | bare
  /-- Between double quotes, where parameters are still replaced. -/
  | loose
  /-- Between single quotes or behind a backslash. -/
  | strict
deriving DecidableEq, Repr, Inhabited

/-- A part of a word before its parameters are replaced. -/
inductive Mark where
  | char (c : Char) (quoting : Quoting)
  /-- The start of quoted text.  Where it stands is a word, even an empty
  one. -/
  | anchor
deriving DecidableEq, Repr, Inhabited

/-- A character is marked `bare c` where no quotes are around it. -/
def Mark.bare (c : Char) : Mark := .char c .bare

/-- The marks of a script, unless a quote is left open.  The quoting says what
the reader is within. -/
def marks? : Quoting → List Char → Option (List Mark)
  | .bare, [] => some []
  | _, [] => none
  | .strict, '\'' :: cs => marks? .bare cs
  | .strict, c :: cs => (marks? .strict cs).map (.char c .strict :: ·)
  | .loose, '"' :: cs => marks? .bare cs
  | .loose, '\\' :: c :: cs =>
      if c = '\n' then marks? .loose cs
      else if "$`\"\\".toList.contains c then (marks? .loose cs).map (.char c .strict :: ·)
      else (marks? .loose cs).map (.char '\\' .strict :: .char c .strict :: ·)
  | .loose, c :: cs => (marks? .loose cs).map (.char c .loose :: ·)
  | .bare, '\'' :: cs => (marks? .strict cs).map (.anchor :: ·)
  | .bare, '"' :: cs => (marks? .loose cs).map (.anchor :: ·)
  | .bare, '\\' :: c :: cs =>
      if c = '\n' then marks? .bare cs
      else (marks? .bare cs).map (.char c .strict :: ·)
  | .bare, c :: cs => (marks? .bare cs).map (.char c .bare :: ·)

/-- A part of an expanded word. -/
inductive Fragment where
  | char (c : Char)
  | gap
  | anchor
deriving DecidableEq, Repr, Inhabited

/-- The words in fragments.  Without characters there is a word only if there is
an anchor. -/
def wordsOf (fragments : List Fragment) : List String :=
  ((fragments.splitOn .gap).filter (· ≠ [])).map fun word =>
    String.ofList (word.filterMap fun
      | .char c => some c
      | _ => none)

/-- What a shell replaces in words. -/
structure Parameters where
  assigned : List (String × String)
  name : String
  arguments : List String
  status : Nat
  processId : Nat
deriving Repr, Inhabited

namespace Parameters

/-- The value of a parameter that is no list of arguments. -/
def value (parameters : Parameters) (key : String) : String :=
  match key with
  | "0" => parameters.name
  | "#" => toString parameters.arguments.length
  | "?" => toString parameters.status
  | "$" => toString parameters.processId
  | "*" | "@" => " ".intercalate parameters.arguments
  | _ =>
      match key.toNat? with
      | some n => (parameters.arguments[n - 1]?).getD ""
      | none => (parameters.assigned.lookup key).getD ""

def assign (parameters : Parameters) (key value : String) : Parameters :=
  { parameters with
    assigned := (key, value) :: parameters.assigned.filter fun entry => entry.1 ≠ key }

end Parameters

def isBlankChar (c : Char) : Bool :=
  c = ' ' || c = '\t' || c = '\n'

/-- The characters that may start the name of a parameter. -/
def isNameStart (c : Char) : Bool :=
  c.isAlpha || c = '_'

/-- The characters that may continue the name of a parameter. -/
def isNameChar (c : Char) : Bool :=
  c.isAlphanum || c = '_'

/-- Fragments with anchors for the words that are there in any case. -/
def quotedFragments (text : String) : List Fragment :=
  .anchor :: text.toList.map .char

/-- What stands for a parameter in a word. -/
def parameterFragments (parameters : Parameters) (quoting : Quoting) (key : String) :
    List Fragment :=
  match quoting, key with
  | .bare, _ => (parameters.value key).toList.map fun c => if isBlankChar c then .gap else .char c
  | _, "@" => ((parameters.arguments.map quotedFragments).intersperse [.gap]).flatten
  | _, _ => quotedFragments (parameters.value key)

/-- The character of a mark with the given quoting. -/
def Mark.charWith? (quoting : Quoting) : Mark → Option Char
  | .char c actual => if actual = quoting then some c else none
  | .anchor => none

/-- The characters at the start of some marks that have the given quoting. -/
def charsWith (quoting : Quoting) : List Mark → List Char
  | [] => []
  | mark :: others =>
      match mark.charWith? quoting with
      | some c => c :: charsWith quoting others
      | none => []

/-- The key of a parameter behind a dollar sign, and the number of characters
that it takes, if there is one. -/
def parameterKey? : List Char → Option (String × Nat)
  | [] => none
  | c :: cs =>
      if c = '\x7b' then
        let key := cs.takeWhile (· ≠ '\x7d')
        if key.length < cs.length then some (String.ofList key, key.length + 2) else none
      else if isNameStart c then
        let key := c :: cs.takeWhile isNameChar
        some (String.ofList key, key.length)
      else if c.isDigit || "#?$*@".toList.contains c then some (String.singleton c, 1)
      else none

/-- A word with its parameters replaced. -/
def expand (parameters : Parameters) : List Mark → List Fragment
  | [] => []
  | .anchor :: others => .anchor :: expand parameters others
  | .char c quoting :: others =>
      if c = '$' ∧ quoting ≠ .strict then
        match parameterKey? (charsWith quoting others) with
        | some (key, count) =>
            parameterFragments parameters quoting key ++ expand parameters (others.drop count)
        | none => .char c :: expand parameters others
      else .char c :: expand parameters others
termination_by marks => marks.length

/-- Whether a word holds all arguments as words of their own. -/
def holdsArguments : List Mark → Bool
  | .char '$' .loose :: .char '@' .loose :: _ => true
  | _ :: others => holdsArguments others
  | [] => false

/-- The words that a word becomes. -/
def expandWords (parameters : Parameters) (word : List Mark) : List String :=
  let word := if holdsArguments word then word.filter (· ≠ .anchor) else word
  wordsOf (expand parameters word)

/-- The text that a word expands to where no words are cut. -/
def expandText (parameters : Parameters) (word : List Mark) : String :=
  String.ofList ((expand parameters word).filterMap fun
    | .char c => some c
    | .gap => some ' '
    | .anchor => none)

end ScriptKinds.Unix
