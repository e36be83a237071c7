namespace ScriptKinds.CommandLine

/-- The part of JSON that reports need. -/
inductive JsonValue where
  | null
  | number (value : Nat)
  | string (text : String)
  | array (elements : List JsonValue)
  | object (members : List (String × JsonValue))
deriving Repr, Inhabited

namespace JsonValue

/-- The code of a character in hexadecimal, filled up to four digits. -/
def fourDigits (c : Char) : List Char :=
  let digits := Nat.toDigits 16 c.toNat
  List.replicate (4 - digits.length) '0' ++ digits

/-- A character as it stands in a quoted text. -/
def escapeChar (c : Char) : List Char :=
  match c with
  | '"' => ['\\', '"']
  | '\\' => ['\\', '\\']
  | '\n' => ['\\', 'n']
  | '\r' => ['\\', 'r']
  | '\t' => ['\\', 't']
  | '\x08' => ['\\', 'b']
  | '\x0c' => ['\\', 'f']
  | _ => if c.toNat < 32 then '\\' :: 'u' :: fourDigits c else [c]

def quoted (text : String) : String :=
  "\"" ++ String.ofList (text.toList.flatMap escapeChar) ++ "\""

/-- A line break and the indentation of a level, two spaces for each. -/
def newLine (level : Nat) : String :=
  "\n" ++ String.ofList (List.replicate (2 * level) ' ')

/-- Items between brackets, each on a line of its own.  Without items nothing
stands between the brackets. -/
def bracketed (opening closing : String) (level : Nat) (items : List String) : String :=
  match items with
  | [] => opening ++ closing
  | _ :: _ =>
      opening ++ newLine (level + 1) ++ ("," ++ newLine (level + 1)).intercalate items ++
        newLine level ++ closing

mutual

/-- The lines of a value at some depth. -/
def pretty (level : Nat) : JsonValue → String
  | null => "null"
  | number value => toString value
  | string text => quoted text
  | array elements => bracketed "[" "]" level (prettyElements (level + 1) elements)
  | object members => bracketed "\x7b" "\x7d" level (prettyMembers (level + 1) members)

def prettyElements (level : Nat) : List JsonValue → List String
  | [] => []
  | element :: others => pretty level element :: prettyElements level others

def prettyMembers (level : Nat) : List (String × JsonValue) → List String
  | [] => []
  | (key, value) :: others =>
      (quoted key ++ ": " ++ pretty level value) :: prettyMembers level others

end

end JsonValue

end ScriptKinds.CommandLine
