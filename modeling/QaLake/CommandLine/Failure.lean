import QaLake.Error
import QaLake.Time.Reader

namespace QaLake.CommandLine

def padLeft (width : Nat) (text : String) : String :=
  String.ofList (List.replicate (width - text.length) ' ') ++ text

def hanging (margin : Nat) (text : String) : String :=
  String.ofList (text.toList.flatMap fun c =>
    if c = '\n' then c :: List.replicate margin ' ' else [c])

/-- Why a file cannot be read, or a directory not be made. -/
inductive FileFault
  | missing
  | isFile
  | isDirectory
  | notInDirectory
  | notText
  | other (detail : String)
  deriving DecidableEq, Repr

def FileFault.message : FileFault → String
  | .missing => "No such file or directory (os error 2)"
  | .isFile => "File exists (os error 17)"
  | .isDirectory => "Is a directory (os error 21)"
  | .notInDirectory => "Not a directory (os error 20)"
  | .notText => "stream did not contain valid UTF-8"
  | .other detail => detail

inductive DatabaseFault
  | noDirectory (cause : FileFault)
  | foreignFile
  | directory (path : String)
  deriving DecidableEq, Repr

/-- Why a synchronisation was not begun, or where it stopped. -/
inductive Failure
  | scopeUnread (path : String) (cause : FileFault)
  | scopeInvalid (path : String) (cause : Json.Fault)
  | createdAfter (text : String) (cause : Time.ReadError)
  | options (cause : Error)
  | unknownSubtask (name : String)
  | settings (cause : Error)
  | logDirectory (cause : FileFault)
  | logging (cause : Error)
  | connection (cause : Error)
  | client (cause : Error)
  | database (cause : DatabaseFault)
  | preparation (cause : Error)
  | sync (cause : Error)
  deriving DecidableEq, Repr

def errorChain : Error → List String
  | .json f => [(Error.json f).message, f.message]
  | .subtask name source => (Error.subtask name source).message :: errorChain source
  | e => [e.message]

def FileFault.chain (f : FileFault) : List String :=
  ["IO error: " ++ f.message, f.message]

def DatabaseFault.chain : DatabaseFault → List String
  | .noDirectory cause => cause.chain
  | .foreignFile => ["database error: file is not a database", "file is not a database",
      "Error code 26: File opened that is not a database file"]
  | .directory path =>
    let fault := "unable to open database file: " ++ path
    ["database error: " ++ fault, fault, "Error code 14: Unable to open the database file"]

def numberedCause (n : Nat) (cause : String) : String :=
  padLeft 5 (toString n) ++ ": " ++ hanging 7 cause

/-- The causes, each on lines of its own. They are numbered if there are several. -/
def causeLines : List String → List String
  | [cause] => ["    " ++ hanging 4 cause]
  | causes => causes.mapIdx numberedCause

namespace Failure

def context : Failure → String
  | scopeUnread path _ => "failed to read scope config " ++ path
  | scopeInvalid path _ => "invalid scope config " ++ path
  | createdAfter text _ => "--created-after " ++ Text.quoted text ++ " is not RFC 3339"
  | options _ => "invalid run options"
  | unknownSubtask name => "unknown subtask " ++ Text.quoted name ++ " (see --list)"
  | settings _ => "failed to load configuration"
  | logDirectory _ | logging _ => "failed to initialize logging"
  | connection _ => "unknown connection"
  | client _ => "failed to create TestRail client"
  | database _ => "failed to open database"
  | preparation _ => "failed to prepare run"
  | sync _ => "sync failed"

def causes : Failure → List String
  | scopeUnread _ cause => [cause.message]
  | scopeInvalid _ cause => [cause.message]
  | createdAfter _ cause => [cause.message]
  | unknownSubtask _ => []
  | logDirectory cause => cause.chain
  | database cause => cause.chain
  | options e | settings e | logging e | connection e | client e | preparation e | sync e =>
    errorChain e

def report (f : Failure) : String :=
  let heading := "Error: " ++ f.context
  match f.causes with
  | [] => heading ++ "\n"
  | causes => heading ++ "\n\nCaused by:\n" ++ "\n".intercalate (causeLines causes) ++ "\n"

end Failure

end QaLake.CommandLine
