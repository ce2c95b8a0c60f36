import QaLake.Store.Database

namespace QaLake.Store

/-- Where rows come from: the rows behind a position, the position of a row, and a bound of the
number of rows there are. -/
structure Source (ρ : Type) where
  batch : Database → Int → Nat → Except Error (List ρ)
  position : ρ → Int
  bound : Database → Nat

/-- The rows read but not handed out, and where the next batch begins. A batch is asked for when the
one before is used up, so that rows may be written while a cursor is under way. -/
structure Cursor (ρ : Type) where
  source : Source ρ
  batchSize : Nat
  after : Int
  buffer : List ρ
  exhausted : Bool

namespace Cursor

variable {ρ : Type}

/-- A cursor before the first row. Positions begin at one. -/
def start (source : Source ρ) (batchSize : Nat) : Cursor ρ :=
  ⟨source, max 1 batchSize, 0, [], false⟩

/-- The next row or the failure to read one, and the cursor behind it. After a failure there are no
more rows. -/
def next (db : Database) (c : Cursor ρ) : Option (Except Error ρ) × Cursor ρ :=
  match c.buffer with
  | r :: rest => (some (.ok r), { c with buffer := rest })
  | [] =>
    if c.exhausted then (none, c)
    else
      match c.source.batch db c.after c.batchSize with
      | .error e => (some (.error e), { c with exhausted := true })
      | .ok [] => (none, { c with exhausted := true })
      | .ok (r :: rest) =>
        let last := (r :: rest).getLast (List.cons_ne_nil r rest)
        (some (.ok r), { c with
          after := c.source.position last
          buffer := rest
          exhausted := (r :: rest).length < c.batchSize })

def take (db : Database) : Nat → Cursor ρ → Except Error (List ρ)
  | 0, _ => .ok []
  | n + 1, c =>
    match c.next db with
    | (none, _) => .ok []
    | (some (.error e), _) => .error e
    | (some (.ok r), c) => (take db n c).map (r :: ·)

def toList (db : Database) (c : Cursor ρ) : Except Error (List ρ) :=
  take db (c.source.bound db + 1) c

end Cursor

def stagedSource (table : String) (scope : RunScope) : Source StagedRecord where
  batch db := db.stagedBatch table scope
  position r := r.id
  bound
    | .unmigrated => 0
    | .migrated t => t.staging.rows.length

def toolSource (ρ : Type) [Streamed ρ] (scope : RunScope) : Source ρ where
  batch db := db.toolBatch ρ scope
  position r := (Streamed.key r).id
  bound
    | .unmigrated => 0
    | .migrated t => (Streamed.table (ρ := ρ) t.tool).stored.rows.length

end QaLake.Store
