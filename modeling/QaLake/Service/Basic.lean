import QaLake.Address.Basic
import QaLake.Error

namespace QaLake

structure Request where
  path : String
  query : List (String × String)
  deriving DecidableEq, Repr

/-- What came of a request: the answer, and whether the run was cancelled meanwhile. -/
structure Exchange where
  answer : Except Error Json
  cancels : Bool

/-- A service with states in `σ`: the address of an endpoint, and the exchange that a request leads
to. -/
structure Service (σ : Type) where
  url : String → String
  exchange : σ → Request → Exchange × σ

namespace Request

def queryText (r : Request) : String :=
  "&".intercalate (r.query.map fun (key, value) => key ++ "=" ++ value)

end Request

/-- A client of a service: it knows which of the requests that are under way is answered before
another one is made, if one of them is. -/
structure Client (σ : Type) extends Service σ where
  arrived : σ → List Request → Option Nat

def Service.client {σ : Type} (service : Service σ) : Client σ where
  toService := service
  arrived _ _ := some 0

instance {σ : Type} : Coe (Service σ) (Client σ) := ⟨Service.client⟩

def Service.ofFunction (url : String → String) (answer : Request → Except Error Json) :
    Service Unit :=
  ⟨url, fun _ request => (⟨answer request, false⟩, ())⟩

/-- Why a request cannot be sent without a network. What is no address, or not one that requests can
be sent to, is found out before the network is. -/
def Request.unsent (r : Request) (url : String) : String :=
  match Address.read? url with
  | none => "builder error"
  | some a =>
    let full := if a.hasHost then a.addPairs r.query else a
    let fault := if a.hasHost && a.isWeb then "error sending request" else "builder error"
    fault ++ " for url (" ++ full.text ++ ")"

/-- A service that cannot be reached. A client says so with the address it tried. -/
def Service.unreachable (url : String → String) : Service Unit :=
  .ofFunction url fun request =>
    let base := url request.path
    .error (.transport (.failed
      ("HTTP request to " ++ base ++ " failed: " ++ request.unsent base)))

end QaLake
