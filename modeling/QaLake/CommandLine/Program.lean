import QaLake.CommandLine.Arguments
import QaLake.CommandLine.Failure
import QaLake.CommandLine.Help
import QaLake.CommandLine.Summary
import QaLake.Settings.LogFilter
import QaLake.Settings.Paths

namespace QaLake.CommandLine

/-- What the program finds on its machine: the directories and the password of the environment, and
what comes of reading a file. -/
structure Machine where
  directories : BaseDirectories
  password : Option String
  contents : String → Except FileFault String

/-- How a run of the program ends: with an exit code, and with what it wrote as its output and as
complaints. -/
structure Ending where
  code : Nat
  output : String := ""
  complaint : String := ""

/-- The settings of the machine. Without a file they are the default ones. -/
def Machine.settings (m : Machine) : Except Error Settings :=
  let file := m.directories.configFile
  match m.contents file with
  | .ok text => Settings.ofToml text
  | .error .missing | .error .notInDirectory => .ok {}
  | .error fault => .error (.config (.fileUnread file fault.message))

def Machine.makeDirectory (m : Machine) (path : String) : Except FileFault Unit :=
  match m.contents path with
  | .error .missing | .error .isDirectory => .ok ()
  | .ok _ | .error .notText => .error .isFile
  | .error fault => .error fault

/-- Makes the directory of the database. A file that is there already must be one of a database or
empty; the file of a database is not a text. -/
def Machine.openDatabase (m : Machine) : Except DatabaseFault Unit := do
  (m.makeDirectory m.directories.dataDirectory).mapError .noDirectory
  let file := m.directories.databaseFile
  match m.contents file with
  | .ok text => if text.isEmpty then return () else throw .foreignFile
  | .error .isDirectory => throw (.directory file)
  | .error _ => return ()

structure SyncPlan where
  options : RunOptions
  selection : List Subtask
  pipeline : PipelineSettings
  connection : Connection

namespace SyncRequest

variable (r : SyncRequest) (m : Machine)

def scopeConfig : Except Failure (Option ScopeConfig) :=
  match r.scopeFile with
  | none => .ok none
  | some path => do
    let text ← (m.contents path).mapError (Failure.scopeUnread path)
    let config ← (Json.decodeText ScopeConfig.decode text).mapError (Failure.scopeInvalid path)
    return some config

def instant : Except Failure (Option Instant) :=
  match r.createdAfter with
  | none => .ok none
  | some text => do
    let t ← (Time.strict text).mapError (Failure.createdAfter text)
    return some t

def options : Except Failure RunOptions := do
  let config ← r.scopeConfig m
  let createdAfter ← r.instant
  let options : RunOptions := {
    connection := r.connection
    project := r.project
    scopeConfig := config
    createdAfter := createdAfter }
  options.validate.mapError Failure.options
  return options

def tune (s : PipelineSettings) : PipelineSettings :=
  if r.skipMalformed then { s with onParseError := .skip } else s

def plan : Except Failure SyncPlan := do
  let options ← r.options m
  let selection ← (Subtask.select r.subtasks).mapError Failure.unknownSubtask
  let settings ← m.settings.mapError Failure.settings
  (m.makeDirectory m.directories.stateDirectory).mapError Failure.logDirectory
  (LogFilter.validate settings.logging.level).mapError Failure.logging
  let connection ← (settings.connection r.connection).mapError Failure.connection
  (connection.validate m.password).mapError Failure.client
  m.openDatabase.mapError Failure.database
  return ⟨options, selection, r.tune settings.pipeline, connection⟩

end SyncRequest

namespace SyncPlan

variable {σ : Type} (p : SyncPlan)

/-- How many requests a synchronisation may make. No project comes near it. -/
def requestLimit : Nat := 1000000000

def heading (directories : BaseDirectories) : String :=
  Text.unlines [
    "Database: " ++ directories.databaseFile,
    "TestRail: " ++ p.connection.baseUrl,
    "Logs:     " ++ directories.logFile ++ ".*"]

def execute (client : Client σ) : StateM (World σ) (Except Failure RunReport) := do
  match ← (RunContext.prepare p.options p.pipeline).run with
  | .error e => return .error (.preparation e)
  | .ok ctx =>
    let report ← ctx.runSelection client p.selection
    match report.error? with
    | some e => return .error (.sync e)
    | none => return .ok report

end SyncPlan

def offline (c : Connection) : Client Unit :=
  Service.unreachable fun path => c.baseUrl ++ path

def Ending.failed (output : String) (f : Failure) : Ending :=
  ⟨1, output, f.report⟩

/-- Carries a request out. The database is made if there is none yet. -/
def SyncRequest.run {σ : Type} (r : SyncRequest) (m : Machine) (connect : Connection → Client σ)
    (remote : σ) (time : StepReport → String) (db : Option Database) : Ending × Option Database :=
  match r.plan m with
  | .error f => (.failed "" f, db)
  | .ok p =>
    let opened := (db.getD .unmigrated).migrate
    let heading := p.heading m.directories
    let (result, w) :=
      (p.execute (connect p.connection)).run ⟨opened, remote, [], SyncPlan.requestLimit, false⟩
    let ending : Ending := match result with
      | .error f => .failed heading f
      | .ok report => { code := 0, output := heading ++ report.summary r.verbose time }
    (ending, some w.database)

def misuseCode : Nat := 2

/-- Runs the program with a command line. There need not be a database before it. The time of a step
is shown as it is given. -/
def run {σ : Type} (words : List String) (m : Machine) (connect : Connection → Client σ)
    (remote : σ) (time : StepReport → String) (db : Option Database) : Ending × Option Database :=
  match Command.ofWords? words with
  | none => ({ code := misuseCode, complaint := misuseText }, db)
  | some .help => ({ code := 0, output := helpText }, db)
  | some .version => ({ code := 0, output := versionText }, db)
  | some .list => ({ code := 0, output := Subtask.listingOfAll }, db)
  | some (.sync r) => r.run m connect remote time db

def pathsUsed (directories : BaseDirectories) (words : List String) : List String :=
  match Command.ofWords? words with
  | some (.sync r) =>
    [directories.configFile, directories.stateDirectory, directories.dataDirectory,
      directories.databaseFile] ++ r.scopeFile.toList
  | _ => []

end QaLake.CommandLine
