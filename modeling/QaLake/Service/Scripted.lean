import QaLake.Service.Basic
import QaLake.Text.Numeral

namespace QaLake

inductive Route
  | body (answer : Json)
  | http (status : Nat) (text : String)
  | transport (detail : String)
  | records (all : List Json) (envelope : Option String)
  | sequence (routes : List Route)

/-- Routes of paths, and the number of the request during which the run is cancelled. -/
structure Script where
  routes : List (String × Route)
  cancelAt : Option Nat

/-- The paths that were requested, the last one first. -/
structure ScriptState where
  requested : List String

namespace Route

def queryNumber (query : List (String × String)) (name : String) (default : Nat) : Nat :=
  (((query.lookup name).bind Text.int64?).map Int.toNat).getD default

def slice (all : List Json) (query : List (String × String)) : List Json :=
  (all.drop (queryNumber query "offset" 0)).take (queryNumber query "limit" all.length)

def hasMore (all : List Json) (query : List (String × String)) : Bool :=
  queryNumber query "offset" 0 + queryNumber query "limit" all.length < all.length

def envelopeOf (key : String) (records : List Json) (more : Bool) : Json :=
  Json.ofMembers [
    ("_links", .obj [("next", if more then .str "next" else .null)]), (key, .arr records)]

/-- The route that stands for a path at its n-th request, the first being number 0. The last route
of a sequence goes on for ever. -/
def current : Nat → Nat → Route → Option Route
  | 0, _, _ => none
  | depth + 1, n, .sequence routes =>
    match routes.getLast? with
    | none => none
    | some last => current depth n (routes.getD n last)
  | _ + 1, _, route => some route

def missing (url : String) : Except Error Json :=
  .error (.http 404 url "no route")

def answer (url : String) (query : List (String × String)) : Route → Except Error Json
  | .body j => .ok j
  | .http status text => .error (.http status url text)
  | .transport detail => .error (.transport (.failed detail))
  | .records all none => .ok (.arr (slice all query))
  | .records all (some key) => .ok (envelopeOf key (slice all query) (hasMore all query))
  | .sequence _ => missing url

def overriding (given others : List (String × Route)) : List (String × Route) :=
  given ++ others.filter fun r => (given.lookup r.1).isNone

def maxDepth : Nat := 16

end Route

namespace Script

def answer (s : Script) (url : String) (n : Nat) (request : Request) : Except Error Json :=
  match (s.routes.lookup request.path).bind (Route.current Route.maxDepth n) with
  | none => Route.missing url
  | some route => route.answer url request.query

def service (s : Script) (url : String → String) : Service ScriptState where
  url := url
  exchange state request :=
    let number := state.requested.length + 1
    let earlier := state.requested.count request.path
    (⟨s.answer (url request.path) earlier request, s.cancelAt.any fun n => max n 1 == number⟩,
      ⟨request.path :: state.requested⟩)

end Script

end QaLake
