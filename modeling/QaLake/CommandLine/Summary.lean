import QaLake.Sync.Run

namespace QaLake

namespace Text

def padRight (width : Nat) (text : String) : String :=
  text ++ String.ofList (List.replicate (width - text.length) ' ')

def unlines (lines : List String) : String :=
  String.join (lines.map (· ++ "\n"))

end Text

open Text (padRight unlines)

def nameWidth : Nat := 20

def Subtask.listing (s : Subtask) : String :=
  padRight nameWidth s.name ++ " " ++ s.phase.word

def Subtask.listingOfAll : String :=
  unlines (all.map listing)

def Phase.mark : Phase → String
  | collect => "↓"
  | extract => "→"
  | convert => "⇒"

def StepOutcome.detail : StepOutcome → String
  | collected s => toString s.records ++ " records in " ++ toString s.requests ++ " requests"
  | extracted s => toString s.rows ++ " rows from " ++ toString s.records ++ " records"
  | converted s => toString s.rows ++ " rows, " ++ toString s.filtered ++ " filtered"

def StepReport.line (s : StepReport) (time : String) : String :=
  "  " ++ s.subtask.phase.mark ++ " " ++ padRight nameWidth s.subtask.name ++ " " ++
    s.outcome.detail ++ " (" ++ time ++ " ms)"

namespace RunReport

variable (r : RunReport)

def requests : Nat :=
  r.total fun s => match s.outcome with
    | .collected stats => stats.requests
    | _ => 0

def recordsStaged : Nat :=
  r.total fun s => match s.outcome with
    | .collected stats => stats.records
    | _ => 0

def toolRows : Nat :=
  r.total fun s => match s.outcome with
    | .extracted stats => stats.rows
    | _ => 0

/-- The totals of a run. Skipped records are mentioned only if there are any. -/
def totals : List String :=
  ["", "Sync complete:",
    "  Subtasks run:     " ++ toString r.steps.length,
    "  API requests:     " ++ toString r.requests,
    "  Records staged:   " ++ toString r.recordsStaged,
    "  Tool rows:        " ++ toString r.toolRows,
    "  Domain rows:      " ++ toString r.domainRows] ++
  if r.skipped = 0 then [] else ["  Records skipped:  " ++ toString r.skipped]

def details (time : StepReport → String) : List String :=
  ["", "Subtasks:"] ++ r.steps.map fun s => s.line (time s)

def summary (verbose : Bool) (time : StepReport → String) : String :=
  unlines (r.totals ++ if verbose then r.details time else [])

end RunReport

end QaLake
