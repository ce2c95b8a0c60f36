import QaLake.Entity
import QaLake.Json.Decode

namespace QaLake

inductive OptionFault
  | undecodable (f : Json.Fault)
  | noConnection
  | noProject
  deriving DecidableEq, Repr

/-- Why a staged record is not a tool row. -/
inductive RecordFault
  | undecodable (f : Json.Fault)
  | notAnObject
  | entryRecord
  | entryWithoutId (plan : Int)
  deriving DecidableEq, Repr

inductive TransportFault
  | failed (detail : String)
  | tooManyCalls
  | notAnObject (found : String)
  | notAList (found : String)
  | notAnArray (key found : String)
  deriving DecidableEq, Repr

/-- What is wrong with the settings or with a path template. -/
inductive ConfigFault
  | unreadable
  | fileUnread (path detail : String)
  | pageSize
  | concurrency
  | batchSize
  | connectionId
  | noEndpoint (connection : Int)
  | noUsername (connection : Int)
  | noPassword (connection : Int)
  | unknownConnection (connection : Int)
  | logLevel (level detail : String)
  | unterminatedPlaceholder (template : String)
  | unknownPlaceholder (name template : String)
  | missingInput (template field : String)
  | inputNotScalar (field value : String)
  deriving DecidableEq, Repr

inductive Error
  | badInput (cause : OptionFault)
  | database
  | json (f : Json.Fault)
  | parse (kind : EntityKind) (cause : RecordFault)
  | http (status : Nat) (url body : String)
  | transport (cause : TransportFault)
  | config (cause : ConfigFault)
  | cancelled
  | subtask (name : String) (source : Error)
  deriving DecidableEq, Repr

def OptionFault.message : OptionFault → String
  | .undecodable f => "invalid task options: " ++ f.message
  | .noConnection => "connectionId is required"
  | .noProject => "projectId is required"

def RecordFault.message : RecordFault → String
  | .undecodable f => f.message
  | .notAnObject => "record is not a JSON object"
  | .entryRecord => "plan entries are extracted from their plan"
  | .entryWithoutId plan => "entry of plan " ++ toString plan ++ " has no id"

def TransportFault.message : TransportFault → String
  | .failed detail => detail
  | .tooManyCalls => "too many calls"
  | .notAnObject found => "expected a JSON object, got " ++ found
  | .notAList found => "expected an array or envelope, got " ++ found
  | .notAnArray key found => "expected " ++ Text.quoted key ++ " to be an array, got " ++ found

def passwordVariable : String := "TESTRAIL_PASSWORD"

def ConfigFault.message : ConfigFault → String
  | .unreadable => "failed to parse config"
  | .fileUnread path detail =>
    "failed to read config file " ++ Text.quoted path ++ ": " ++ detail
  | .pageSize => "pipeline.page_size must be between 1 and 250"
  | .concurrency => "pipeline.fan_out_concurrency must be at least 1"
  | .batchSize => "pipeline.cursor_batch_size must be at least 1"
  | .connectionId => "connections.id must be positive"
  | .noEndpoint c => "connections.endpoint is required for connection " ++ toString c
  | .noUsername c => "connections.username is required for connection " ++ toString c
  | .noPassword c =>
    "connections.password (or " ++ passwordVariable ++ ") is required for connection " ++ toString c
  | .unknownConnection c => "no connection with id " ++ toString c ++ " configured"
  | .logLevel level detail => "invalid log level " ++ Text.quoted level ++ ": " ++ detail
  | .unterminatedPlaceholder t => "unterminated placeholder in URL template " ++ Text.quoted t
  | .unknownPlaceholder name t =>
    "unknown placeholder \x7b" ++ name ++ "\x7d in URL template " ++ Text.quoted t
  | .missingInput t field =>
    "URL template " ++ Text.quoted t ++ " needs input field " ++ Text.quoted field
  | .inputNotScalar field value =>
    "input field " ++ Text.quoted field ++ " is not a scalar: " ++ value

def Error.message : Error → String
  | .badInput cause => "bad input: " ++ cause.message
  | .database => "database error"
  | .json f => "JSON error: " ++ f.message
  | .parse kind cause => "parse error in " ++ kind.name ++ " record: " ++ cause.message
  | .http status url body =>
    "API error (" ++ toString status ++ ") for " ++ url ++ ": " ++ body
  | .transport cause => "transport error: " ++ cause.message
  | .config cause => "configuration error: " ++ cause.message
  | .cancelled => "operation cancelled"
  | .subtask name source => "subtask " ++ name ++ " failed: " ++ source.message

end QaLake
