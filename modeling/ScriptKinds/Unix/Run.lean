import ScriptKinds.Text.Utf8

namespace ScriptKinds.Unix

inductive Status where
  | exited (code : UInt8)
  | killed (signal : Nat)
deriving DecidableEq, Repr, Inhabited

namespace Status

/-- A status as a shell shows it. -/
def number : Status → Nat
  | exited code => code.toNat
  | killed signal => 128 + signal

/-- The exit code that is reported.  A run that was killed has none. -/
def exitCode : Status → Int
  | exited code => code.toNat
  | killed _ => -1

end Status

structure Run where
  output : List UInt8
  errors : List UInt8
  status : Status
  /-- Whether the run takes so long that a request to kill it arrives before
  its end. -/
  isLong : Bool
deriving DecidableEq, Repr, Inhabited

namespace Run

def ofStatus (status : Status) : Run := ⟨[], [], status, false⟩

/-- A run that ends well and does nothing else. -/
def success : Run := ofStatus (.exited 0)

/-- A run that writes something and ends well. -/
def ofOutput (bytes : List UInt8) : Run := ⟨bytes, [], .exited 0, false⟩

/-- A run that complains and ends with a code. -/
def failure (code : UInt8) (message : String) : Run :=
  ⟨[], Text.encode (message ++ "\n"), .exited code, false⟩

end Run

end ScriptKinds.Unix
