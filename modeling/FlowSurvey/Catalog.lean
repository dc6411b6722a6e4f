import FlowSurvey.Record.Flow
import Std.Data.HashMap

/-!
# Catalogs

A catalog holds flows in the order in which they came, each id once.  A flow
whose id is taken is not let in; that is recorded as a collision, so nothing that
was offered is lost without a trace.
-/

namespace FlowSurvey

/-- A flow that was not let in. -/
structure Collision where
  id : String
  /-- Where the flow comes from that has the id. -/
  kept : String
  /-- Where the flow comes from that was not let in. -/
  dropped : String
  deriving DecidableEq, Repr

structure Catalog where
  flows : Array Flow := #[]
  /-- The position of the flow with an id. -/
  index : Std.HashMap String Nat := {}
  collisions : List Collision := []

namespace Catalog

def empty : Catalog := {}

def size (c : Catalog) : Nat :=
  c.flows.size

def isEmpty (c : Catalog) : Bool :=
  c.flows.isEmpty

def get? (c : Catalog) (id : String) : Option Flow :=
  c.index[id]?.bind fun i => c.flows[i]?

def insert (c : Catalog) (flow : Flow) : Catalog :=
  match c.index[flow.id]? with
  | some i =>
      let kept := (c.flows[i]?.map (·.sourceRelative)).getD ""
      { c with collisions := c.collisions ++ [⟨flow.id, kept, flow.sourceRelative⟩] }
  | none =>
      { c with flows := c.flows.push flow, index := c.index.insert flow.id c.flows.size }

def isFree (c : Catalog) (id : String) : Bool :=
  !c.index.contains id

def insertAll (c : Catalog) (flows : List Flow) : Catalog :=
  flows.foldl insert c

def ofList (flows : List Flow) : Catalog :=
  empty.insertAll flows

/-- Offers the flows of another catalog, whose collisions are taken over first. -/
def merge (c other : Catalog) : Catalog :=
  { c with collisions := c.collisions ++ other.collisions }.insertAll other.flows.toList

end Catalog

end FlowSurvey
