namespace ScriptKinds.Files

/-- A reason of the operating system to refuse access. -/
inductive AccessError where
  | notFound
  | permissionDenied
  | notDirectory
  | isDirectory
  | nameTooLong
  /-- Any other reason, by its number and wording. -/
  | other (code : Nat) (wording : String)
deriving DecidableEq, Repr, Inhabited

namespace AccessError

/-- The number by which the system knows an error. -/
def code : AccessError → Nat
  | notFound => 2
  | permissionDenied => 13
  | notDirectory => 20
  | isDirectory => 21
  | nameTooLong => 36
  | other code _ => code

/-- How the system words an error. -/
def wording : AccessError → String
  | notFound => "No such file or directory"
  | permissionDenied => "Permission denied"
  | notDirectory => "Not a directory"
  | isDirectory => "Is a directory"
  | nameTooLong => "File name too long"
  | other _ wording => wording

/-- An error as it is shown. -/
def message (error : AccessError) : String :=
  error.wording ++ " (os error " ++ toString error.code ++ ")"

end AccessError

end ScriptKinds.Files
