import QaLake.CommandLine.Program

namespace QaLake.CommandLine

def FileFault.ofError : IO.Error → FileFault
  | .noFileOrDirectory _ _ _ => .missing
  | .inappropriateType _ 20 _ => .notInDirectory
  | .inappropriateType _ 21 _ => .isDirectory
  | e => .other (toString e)

def readFile (path : String) : IO (Except FileFault String) := do
  try
    let bytes ← IO.FS.readBinFile path
    return (String.fromUTF8? bytes).elim (.error .notText) .ok
  catch e => return .error (.ofError e)

def baseDirectories : IO BaseDirectories := do
  return ⟨← IO.getEnv "HOME", ← IO.getEnv "XDG_CONFIG_HOME", ← IO.getEnv "XDG_DATA_HOME",
    ← IO.getEnv "XDG_STATE_HOME"⟩

def machineFor (words : List String) : IO Machine := do
  let directories ← baseDirectories
  let files ← (pathsUsed directories words).mapM fun path => do return (path, ← readFile path)
  return {
    directories := directories
    password := ← IO.getEnv passwordVariable
    contents := fun path => (files.lookup path).getD (.error .missing) }

end QaLake.CommandLine

open QaLake.CommandLine

/-- Runs the program. Steps that do not wait for a service take no time worth mentioning. -/
def main (words : List String) : IO UInt32 := do
  let machine ← machineFor words
  let (ending, _) := run words machine offline () (fun _ => "0") none
  IO.print ending.output
  IO.eprint ending.complaint
  return ending.code.toUInt32
