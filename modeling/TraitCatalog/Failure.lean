/-
  What ends a piece of work early.
-/
import TraitCatalog.DataFile.Reader
import TraitCatalog.Files.Store

namespace TraitCatalog

open Text (lit)

/-- Why registering, installing or loading did not come to its end. -/
inductive Failure where
  /-- A hook gave up, with a message. -/
  | hook (message : Text)
  /-- Hooks called each other too deeply. -/
  | tooDeep
  /-- A data file cannot be judged. -/
  | reading (a : DataFile.ReadAbort)
  /-- A file or folder cannot be used. -/
  | file (f : FileFault)
  /-- The first file with faults ends a strict load. -/
  | strictLoad (path : Text) (faults : List Fault)
  deriving DecidableEq, Repr

/-- The wording for an integer with too many digits. -/
def longIntegerMessage (digits : Nat) : Text :=
  lit "Exceeds the limit (" ++ Text.ofNat Json.digitLimit ++
    lit " digits) for integer string conversion: value has " ++ Text.ofNat digits ++
    lit " digits; use sys.set_int_max_str_digits() to increase the limit"

/-- The wording of a failure, if it has one. -/
def Failure.message? : Failure → Option Text
  | hook m => some m
  | tooDeep | reading .tooDeep => none
  | reading (.longInteger n) => some (longIntegerMessage n)
  | file f => f.message?
  | strictLoad path faults =>
    some (lit "Failed to load " ++ path ++ lit ": " ++ Text.join (lit ", ") (faults.map Fault.code))

end TraitCatalog
