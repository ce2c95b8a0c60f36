import QaLake.Error
import QaLake.Toml.Document

namespace QaLake

open Json

/-- What becomes of a staged record that cannot be parsed. -/
inductive ParsePolicy
  | abort
  | skip
  deriving DecidableEq, Repr

def ParsePolicy.word : ParsePolicy → String
  | abort => "abort"
  | skip => "skip"

def ParsePolicy.decode : Medium → Decoder ParsePolicy :=
  Decoder.constant [("abort", .abort), ("skip", .skip)]

/-- The level of the log and the number of its files. -/
structure LoggingSettings where
  level : String := "info"
  maxFiles : Nat := 5
  deriving DecidableEq, Repr

/-- How records are collected and rows are read: page size, units of a fan-out in flight, what
becomes of malformed records, and rows per batch. -/
structure PipelineSettings where
  pageSize : Nat := 250
  concurrency : Nat := 4
  onParseError : ParsePolicy := .abort
  batchSize : Nat := 500
  deriving DecidableEq, Repr

/-- An instance of the service and how to log in to it. -/
structure Connection where
  id : Int := 0
  name : Option String := none
  endpoint : Option String := none
  username : Option String := none
  password : Option String := none
  timeout : Nat := 60
  deriving DecidableEq, Repr

structure Settings where
  logging : LoggingSettings := {}
  pipeline : PipelineSettings := {}
  connections : List Connection := []
  deriving DecidableEq, Repr

namespace LoggingSettings

def shape : Shape LoggingSettings where
  name := "LoggingConfig"
  blank := {}
  fields := [
    .of "level" Decoder.string (fun v s => { s with level := v }) .default,
    .of "max_files" (Decoder.unsigned "usize") (fun v s => { s with maxFiles := v }) .default]

end LoggingSettings

namespace PipelineSettings

def maxPageSize : Nat := 250

def shape (medium : Medium) : Shape PipelineSettings where
  name := "PipelineConfig"
  blank := {}
  fields := [
    .of "page_size" (Decoder.unsigned "usize") (fun v s => { s with pageSize := v }) .default,
    .of "fan_out_concurrency" (Decoder.unsigned "usize")
      (fun v s => { s with concurrency := v }) .default,
    .of "on_parse_error" (ParsePolicy.decode medium)
      (fun v s => { s with onParseError := v }) .default,
    .of "cursor_batch_size" (Decoder.unsigned "usize")
      (fun v s => { s with batchSize := v }) .default]

def decode (medium : Medium) : Decoder PipelineSettings :=
  (shape medium).decode medium

def validate (s : PipelineSettings) : Except Error Unit :=
  if s.pageSize = 0 ∨ maxPageSize < s.pageSize then .error (.config .pageSize)
  else if s.concurrency = 0 then .error (.config .concurrency)
  else if s.batchSize = 0 then .error (.config .batchSize)
  else .ok ()

end PipelineSettings

namespace Connection

def shape : Shape Connection where
  name := "ConnectionConfig"
  blank := {}
  fields := [
    .of "id" Decoder.int64 (fun v c => { c with id := v }) .required,
    .of "name" (Decoder.optional Decoder.string) (fun v c => { c with name := v }) .default,
    .of "endpoint" (Decoder.optional Decoder.string)
      (fun v c => { c with endpoint := v }) .defaultInObject,
    .of "username" (Decoder.optional Decoder.string)
      (fun v c => { c with username := v }) .defaultInObject,
    .of "password" (Decoder.optional Decoder.string)
      (fun v c => { c with password := v }) .defaultInObject,
    .of "timeout_secs" (Decoder.unsigned "u64") (fun v c => { c with timeout := v }) .default]

def resolvedPassword (c : Connection) (environment : Option String) : Option String :=
  c.password.or environment

def isGiven (s : Option String) : Bool :=
  s.any fun s => !s.isEmpty

def validate (c : Connection) (environment : Option String) : Except Error Unit :=
  if c.id ≤ 0 then .error (.config .connectionId)
  else if !isGiven c.endpoint then .error (.config (.noEndpoint c.id))
  else if !isGiven c.username then .error (.config (.noUsername c.id))
  else if !isGiven (c.resolvedPassword environment) then .error (.config (.noPassword c.id))
  else .ok ()

def endpointMark : String := "index.php?/api/v2/"

def baseUrl (c : Connection) : String :=
  let endpoint := (c.endpoint.getD "").toList
  String.ofList (endpoint.reverse.dropWhile (· == '/')).reverse ++ "/" ++ endpointMark

end Connection

namespace Settings

def shape (medium : Medium) : Shape Settings where
  name := "Config"
  blank := {}
  fields := [
    .of "logging" (LoggingSettings.shape.decode medium)
      (fun v s => { s with logging := v }) .default,
    .of "pipeline" (PipelineSettings.decode medium)
      (fun v s => { s with pipeline := v }) .default,
    .of "connections" (Decoder.list (Connection.shape.decode medium))
      (fun v s => { s with connections := v }) .default]

def ofToml (s : String) : Except Error Settings :=
  match Toml.read? s with
  | none => .error (.config .unreadable)
  | some d =>
    match (shape .settings).decode .settings d with
    | .error _ => .error (.config .unreadable)
    | .ok settings => do
      settings.pipeline.validate
      return settings

def connection (s : Settings) (id : Int) : Except Error Connection :=
  match s.connections.find? (·.id == id) with
  | some c => .ok c
  | none => .error (.config (.unknownConnection id))

end Settings

end QaLake
