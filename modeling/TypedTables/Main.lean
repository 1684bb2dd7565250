import TypedTables.Command.Run
/-!
# TypedTables — the program

The command line on the files of the machine. A request that fails says so
on the error output, as does one that cannot be understood.
-/

namespace TypedTables

namespace Program

/-- The fault of a file operation that failed. -/
def faultOf : IO.Error → FileFault
  | .noFileOrDirectory .. => .notFound
  | .alreadyExists .. => .taken
  | .inappropriateType .. => .notFolder
  | e => .other (toString e)

/-- Runs an operation on the files of the machine. -/
def attempt {α : Type} (action : IO α) : IO (Except FileFault α) := do
  try
    return .ok (← action)
  catch e => return .error (faultOf e)

instance : Files IO where
  readText path := attempt (IO.FS.readFile path)
  writeText path text := attempt (IO.FS.writeFile path text)
  createFolders path := if path.isEmpty then return .ok () else attempt (IO.FS.createDirAll path)

end Program

end TypedTables

open TypedTables in
def main (arguments : List String) : IO UInt32 := do
  let result : CommandResult ← Command.run arguments
  IO.print result.output
  if result.exitCode = 2 then IO.eprintln Command.mainPage.usage
  if let some message := result.message then IO.eprintln ("error: " ++ message)
  return UInt32.ofNat result.exitCode
