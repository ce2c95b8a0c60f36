import QaLake.Text.Numeral

namespace QaLake.CommandLine

inductive ValueOption
  | connection
  | project
  | scopeFile
  | createdAfter
  | subtask
  deriving DecidableEq, Repr

inductive Switch
  | skipMalformed
  | list
  | verbose
  deriving DecidableEq, Repr

/-- What the words of a command line amount to. -/
inductive Item
  | value (option : ValueOption) (text : String)
  | switch (s : Switch)
  | help
  | version
  | misuse
  deriving DecidableEq, Repr

/-- What a synchronisation is asked for: a project on a connection, a file with a scope
configuration and the text of an instant, the names of steps, and how to go about it. -/
structure SyncRequest where
  connection : Int
  project : Int
  scopeFile : Option String
  createdAfter : Option String
  subtasks : List String
  skipMalformed : Bool
  verbose : Bool
  deriving DecidableEq, Repr

inductive Command
  | help
  | version
  | list
  | sync (request : SyncRequest)
  deriving DecidableEq, Repr

def valueNames : List (String × ValueOption) := [
  ("connection", .connection),
  ("project", .project),
  ("scope-config", .scopeFile),
  ("created-after", .createdAfter),
  ("subtask", .subtask)]

def soleNames : List (String × Item) := [
  ("skip-parse-errors", .switch .skipMalformed),
  ("list", .switch .list),
  ("verbose", .switch .verbose),
  ("help", .help),
  ("version", .version)]

def Item.ofLetter : Char → Item
  | 'v' => .switch .verbose
  | 'h' => .help
  | 'V' => .version
  | _ => .misuse

/-- Whether a word can be the value of the option before it. -/
def isValue (word : String) : Bool :=
  word = "-" || word.toList.head? != some '-'

/-- The items of a command line. The option given is the one that still waits for its value. Nothing
may follow a double dash. -/
def items : Option ValueOption → List String → List Item
  | none, [] => []
  | some _, [] => [.misuse]
  | some option, word :: rest =>
    if isValue word then .value option word :: items none rest else [.misuse]
  | none, word :: rest =>
    match word.toList with
    | ['-', '-'] => if rest.isEmpty then [] else [.misuse]
    | '-' :: '-' :: cs =>
      let name := cs.takeWhile (· != '=')
      let named := String.ofList name
      match cs.drop name.length, valueNames.lookup named, soleNames.lookup named with
      | [], some option, _ => items (some option) rest
      | [], none, some item => item :: items none rest
      | _ :: value, some option, _ => .value option (String.ofList value) :: items none rest
      | _, _, _ => [.misuse]
    | '-' :: c :: cs => (c :: cs).map Item.ofLetter ++ items none rest
    | _ => [.misuse]

structure Given where
  connection : Option Int := none
  project : Option Int := none
  scopeFile : Option String := none
  createdAfter : Option String := none
  subtasks : List String := []
  skipMalformed : Bool := false
  list : Bool := false
  verbose : Bool := false
  deriving DecidableEq, Repr

namespace Given

/-- Adds an option with its value. All but the names of steps can be given only once, ids are
numbers, and the name of a file is not empty. -/
def addValue (g : Given) (text : String) : ValueOption → Option Given
  | .connection => do
    guard g.connection.isNone
    return { g with connection := some (← Text.int64? text) }
  | .project => do
    guard g.project.isNone
    return { g with project := some (← Text.int64? text) }
  | .scopeFile => do
    guard (g.scopeFile.isNone && !text.isEmpty)
    return { g with scopeFile := some text }
  | .createdAfter => do
    guard g.createdAfter.isNone
    return { g with createdAfter := some text }
  | .subtask => some { g with subtasks := g.subtasks ++ [text] }

/-- Adds an option that stands alone. Only the call for details may be repeated. -/
def addSwitch (g : Given) : Switch → Option Given
  | .skipMalformed => if g.skipMalformed then none else some { g with skipMalformed := true }
  | .list => if g.list then none else some { g with list := true }
  | .verbose => some { g with verbose := true }

/-- The command at the end of the items. A synchronisation needs both ids. -/
def command? (g : Given) : Option Command :=
  if g.list then some .list
  else
    match g.connection, g.project with
    | some connection, some project => some (.sync {
        connection := connection
        project := project
        scopeFile := g.scopeFile
        createdAfter := g.createdAfter
        subtasks := g.subtasks
        skipMalformed := g.skipMalformed
        verbose := g.verbose })
    | _, _ => none

def read (g : Given) : List Item → Option Command
  | [] => g.command?
  | .help :: _ => some .help
  | .version :: _ => some .version
  | .misuse :: _ => none
  | .value option text :: rest =>
    match g.addValue text option with
    | some g => g.read rest
    | none => none
  | .switch s :: rest =>
    match g.addSwitch s with
    | some g => g.read rest
    | none => none

end Given

def Command.ofWords? (words : List String) : Option Command :=
  ({} : Given).read (items none words)

end QaLake.CommandLine
