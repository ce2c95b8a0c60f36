import QaLake.Service.Basic
import QaLake.Store.Cursor

namespace QaLake

/-- The database, the state of the service, the requests made so far, how many more may be made, and
whether the run is cancelled. -/
structure World (σ : Type) where
  database : Database
  remote : σ
  calls : List Request
  budget : Nat
  cancelled : Bool

/-- An action succeeds or fails. Either way it leaves a world behind, with all that was written and
requested up to then. -/
abbrev Action (σ : Type) := ExceptT Error (StateM (World σ))

namespace Action

variable {σ α β ρ : Type}

def runIn (a : Action σ α) (w : World σ) : Except Error α × World σ :=
  a.run w

def ofExcept (r : Except Error α) : Action σ α :=
  ExceptT.mk (pure r)

def checkCancelled : Action σ Unit := do
  if (← getThe (World σ)).cancelled then throw .cancelled

def database : Action σ Database := do
  return (← getThe (World σ)).database

def query (f : Database → Except Error α) : Action σ α := do
  ofExcept (f (← database))

def update (f : Database → Except Error Database) : Action σ Unit := do
  let db ← query f
  modifyThe (World σ) fun w => { w with database := db }

/-- Sends a request and holds the answer without looking at it. A request beyond the number of those
that may be made has the answer that it fails, but is noted, too. -/
def send (service : Service σ) (request : Request) : Action σ (Except Error Json) :=
  ExceptT.mk fun w =>
    let w := { w with calls := w.calls ++ [request] }
    match w.budget with
    | 0 => (.ok (.error (.transport .tooManyCalls)), w)
    | n + 1 =>
      let (exchange, remote) := service.exchange w.remote request
      (.ok exchange.answer,
        { w with remote := remote, budget := n, cancelled := w.cancelled || exchange.cancels })

def ask (service : Service σ) (request : Request) : Action σ Json := do
  ofExcept (← send service request)

/-- Goes through the rows of a cursor, each read from the database as it then is, up to a number of
them. -/
def foldCursor (step : β → ρ → Action σ β) : Nat → Store.Cursor ρ → β → Action σ β
  | 0, _, b => pure b
  | n + 1, c, b => do
    match c.next (← database) with
    | (none, _) => return b
    | (some row, c) =>
      checkCancelled
      let b ← step b (← ofExcept row)
      foldCursor step n c b

def foldSource (source : Store.Source ρ) (batchSize : Nat) (step : β → ρ → Action σ β) (b : β) :
    Action σ β := do
  foldCursor step (source.bound (← database) + 1) (.start source batchSize) b

end Action

end QaLake
