import QaLake.Endpoint.PathTemplate
import QaLake.Endpoint.Response
import QaLake.Sync.Action

namespace QaLake

/-- What is collected: the table and the scope of the records, the path, the size of a page if there
are pages, further pairs for the query, the inputs of a fan-out, the form of the answers, and how
many walks may be under way at once. -/
structure Collector where
  table : String
  scope : RunScope
  path : PathTemplate
  pageSize : Option Nat
  query : List (String × String)
  inputs : Option (List Json)
  form : ResponseForm
  concurrency : Nat := 1

/-- The number of requests that were made and the records they brought, in order. -/
structure Fetched where
  requests : Nat
  records : List Json

namespace Fetched

def empty : Fetched := ⟨0, []⟩

def append (a b : Fetched) : Fetched :=
  ⟨a.requests + b.requests, a.records ++ b.records⟩

instance : EmptyCollection Fetched := ⟨empty⟩

instance : Append Fetched := ⟨append⟩

end Fetched

structure CollectStats where
  requests : Nat
  records : Nat
  deriving DecidableEq, Repr

def Fetched.stats (f : Fetched) : CollectStats :=
  ⟨f.requests, f.records.length⟩

/-- A walk that waits for an answer: its input and path, how many records it has, its request, and
the answer that is to come. -/
structure Pending where
  input : Option Json
  path : String
  offset : Nat
  request : Request
  answer : Except Error Json

/-- A walk of a fan-out that waits, and what it has brought so far. -/
structure Waiting extends Pending where
  fetched : Fetched

/-- What a fan-out does next. It starts the walk for an input, goes on with a walk that waits among
others, or ends. -/
inductive Turn
  | start (input : Json) (rest : List Json)
  | resume (before : List Waiting) (walk : Waiting) (after : List Waiting)
  | stop

def Turn.resume? (waiting : List Waiting) (i : Nat) : Option Turn :=
  match waiting.drop i with
  | [] => none
  | walk :: after => some (.resume (waiting.take i) walk after)

namespace Collector

variable {σ : Type} (c : Collector)

def queryAt (offset : Nat) : List (String × String) :=
  match c.pageSize with
  | none => c.query
  | some size => ("limit", toString size) :: ("offset", toString offset) :: c.query

def stagedUrl (service : Service σ) (request : Request) : String :=
  String.join (service.url request.path :: request.query.map fun (key, value) =>
    "&" ++ Text.percentEncode key ++ "=" ++ Text.percentEncode value)

def isLast (page : Page) : Bool :=
  match c.pageSize with
  | none => true
  | some size =>
    page.records.isEmpty || page.records.length < size || page.hasNext == some false

def stage (service : Service σ) (input : Option Json) (request : Request) (page : Page) :
    Action σ Unit :=
  if page.records.isEmpty then pure ()
  else Action.update fun db =>
    db.stagePage c.table c.scope (stagedUrl service request) input page.records

/-- Sends the request for the page behind a number of records, unless the run is cancelled. -/
def send (service : Service σ) (input : Option Json) (path : String) (offset : Nat) :
    Action σ Pending := do
  Action.checkCancelled
  let request : Request := ⟨path, c.queryAt offset⟩
  return ⟨input, path, offset, request, ← Action.send service request⟩

def settle (service : Service σ) (staged : Bool) (p : Pending) : Action σ Page := do
  let page ← Action.ofExcept (c.form.page (← Action.ofExcept p.answer))
  if staged then c.stage service p.input p.request page
  return page

/-- The rest of a walk from behind a number of records. The first argument bounds the number of
requests. -/
def walk (service : Service σ) (staged : Bool) (input : Option Json) (path : String) :
    Nat → Nat → Action σ Fetched
  | 0, _ => throw (.transport .tooManyCalls)
  | n + 1, offset => do
    let page ← c.settle service staged (← c.send service input path offset)
    if c.isLast page then return ⟨1, page.records⟩
    else
      let rest ← walk service staged input path n (offset + page.records.length)
      return ⟨1, page.records⟩ ++ rest

/-- The walk for an input. It ends by itself or when no more requests may be made. -/
def walkFor (service : Service σ) (staged : Bool) (input : Option Json) : Action σ Fetched := do
  let path ← Action.ofExcept (c.path.render c.scope input)
  let budget := (← getThe (World σ)).budget
  c.walk service staged input path (budget + 1) 0

/-- The turn that starts a walk, if there is an input left and room for one more walk. -/
def start? : List Json → List Waiting → Option Turn
  | [], _ => none
  | input :: rest, waiting =>
    if waiting.length < max c.concurrency 1 then some (.start input rest) else none

/-- What comes next. A walk whose answer has arrived goes on. If there is none, another walk is
started, and without one to start the first walk under way is waited for. -/
def turn (arrived : Option Nat) (inputs : List Json) (waiting : List Waiting) : Turn :=
  (arrived.bind (Turn.resume? waiting) <|> c.start? inputs waiting <|>
    Turn.resume? waiting 0).getD .stop

/-- The walks for some inputs next to the walks that are under way. What they bring is in the order
in which they end, and the first failure ends them all. The first argument bounds the number of
turns. -/
def fanOut (client : Client σ) (staged : Bool) :
    Nat → List Json → List Waiting → Action σ Fetched
  | 0, _, _ => throw (.transport .tooManyCalls)
  | n + 1, inputs, waiting => do
    let remote := (← getThe (World σ)).remote
    match c.turn (client.arrived remote (waiting.map (·.request))) inputs waiting with
    | .stop => return ∅
    | .start input rest =>
      let path ← Action.ofExcept (c.path.render c.scope (some input))
      let p ← c.send client.toService (some input) path 0
      fanOut client staged n rest (waiting ++ [⟨p, ∅⟩])
    | .resume before p after =>
      let page ← c.settle client.toService staged p.toPending
      let fetched := p.fetched ++ ⟨1, page.records⟩
      if c.isLast page then return fetched ++ (← fanOut client staged n inputs (before ++ after))
      else
        let p ← c.send client.toService p.input p.path (p.offset + page.records.length)
        fanOut client staged n inputs (before ++ ⟨p, fetched⟩ :: after)

/-- The walks of the collector. A walk has at most one turn for each of its requests and one more.
-/
def gather (client : Client σ) (staged : Bool) : Action σ Fetched :=
  match c.inputs with
  | none => c.walkFor client.toService staged none
  | some inputs => do
    let budget := (← getThe (World σ)).budget
    c.fanOut client staged (2 * (budget + inputs.length) + 1) inputs []

/-- Replaces what is staged for the table and the scope by what the service has now. -/
def execute (client : Client σ) : Action σ CollectStats := do
  Action.update fun db => db.clearStaged c.table c.scope
  return (← c.gather client true).stats

def fetchAll (client : Client σ) : Action σ (List Json) := do
  return (← c.gather client false).records

end Collector

end QaLake
