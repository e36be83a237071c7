import ScriptKinds.Files.Disk
import ScriptKinds.Unix.Format
import ScriptKinds.Unix.Run

namespace ScriptKinds.Unix

inductive Program where
  | true | false | echo | printf | cat | sleep | shell
deriving DecidableEq, Repr, Inhabited

namespace Program

def ofName? : String → Option Program
  | "true" => some .true
  | "false" => some .false
  | "echo" => some .echo
  | "printf" => some .printf
  | "cat" => some .cat
  | "sleep" => some .sleep
  | "sh" | "dash" => some .shell
  | _ => none

end Program

/-- The arguments of `echo` with spaces between them.  Where `escapes` is set,
escapes are replaced unless an option says otherwise. -/
def echo (escapes : Bool) : List String → List UInt8
  | "-n" :: arguments => line arguments
  | arguments => line arguments ++ [10]
where
  line (arguments : List String) : List UInt8 :=
    let text := " ".intercalate arguments
    if escapes then unescaped true text.toList else Text.encode text

/-- The bytes of the files that `cat` is asked for, one run for each. -/
def catOne (disk : Files.Disk) (name : String) (input : List UInt8) (path : String) : Run :=
  if path = "-" then .ofOutput input
  else
    match disk.read path with
    | .ok bytes => .ofOutput bytes
    | .error error => .failure 1 (name ++ ": " ++ path ++ ": " ++ error.wording)

/-- Two runs, the second after the first.  An earlier failure counts. -/
def Run.join (first second : Run) : Run :=
  ⟨first.output ++ second.output, first.errors ++ second.errors,
    if first.status = .exited 0 then second.status else first.status,
    first.isLong || second.isLong⟩

/-- What a program does with its arguments and its input. -/
def runProgram (disk : Files.Disk) (name : String) (arguments : List String) (input : List UInt8) :
    Program → Run
  | .true => .success
  | .false => .ofStatus (.exited 1)
  | .echo => .ofOutput (echo false arguments)
  | .printf =>
      match arguments with
      | [] => .failure 1 (name ++ ": missing operand")
      | format :: others => .ofOutput (formatted format others)
  | .cat =>
      match arguments.filter fun argument => ¬ "-".isPrefixOf argument ∨ argument = "-" with
      | [] => .ofOutput input
      | paths => (paths.map (catOne disk name input)).foldl .join .success
  | .sleep => { Run.success with isLong := true }
  | .shell => .success

end ScriptKinds.Unix
