import EntityStore.Query.Search
import EntityStore.Session.Caller
import EntityStore.Session.Data
import EntityStore.Setup

/-! # Collections

A collection gives access to the entities of one type under a setup.  Each of its operations
comes in three forms.

* `Collection.getOn` and its like run in a session that is given.
* `Collection.get` and its like run in a session of their own, outside of transactions.
* `Collection.getIn` and its like run in the transaction that a caller passes, which is
  checked before anything else. -/

namespace EntityStore

/-- Access to the entities of one type. -/
structure Collection (α : Type) where
  type : EntityType α
  setup : Setup

namespace Collection

variable {α : Type}

/-- Open the collection of a type, whose kind is registered if it was not. -/
def create {σ : Type} [Registrar σ] (type : EntityType α) (setup : Setup) (registry : Registry)
    (store : σ) : Registration σ (Collection α) :=
  let out := registry.register type.kind store
  ⟨out.result.map fun _ => ⟨type, setup⟩, out.registry, out.registrar⟩

/-- The request for a first page of the default size. -/
def firstPage (c : Collection α) : Page := .first c.setup.config.defaultPageSize

/-! ## In a session -/

/-- Look an entity up by its id. -/
def getOn (c : Collection α) (id : String) (s : Session) (store : Store) :
    Outcome Session (Option α) :=
  (s.load store c.type id).map fun found => found.map Row.entity

/-- Insert an entity or replace the one with its id. -/
def putOn (c : Collection α) (entity : α) (s : Session) (store : Store) : Outcome Session Unit :=
  s.save store c.type entity

/-- Delete the entity with an id, and tell whether there was one. -/
def deleteOn (c : Collection α) (id : String) (s : Session) (store : Store) :
    Outcome Session Bool :=
  s.delete store c.type id

/-- The entities that satisfy a predicate: the page of a request, whose size has to be
    allowed, or all. -/
def findOn (c : Collection α) (request : Option Page) (pred : α → Bool) (s : Session)
    (store : Store) : Outcome Session (Results α) :=
  let found := do
    c.setup.config.checkPageSize request
    let q ← s.query store c.type (request.bind Page.current)
    return q.search request pred
  ⟨found, store, s⟩

/-! ## Outside of transactions -/

/-- Run an operation in a session of its own. -/
def runPlain {β : Type} (store : Store) (operation : Session → Store → Outcome Session β) :
    Except Error β × Store :=
  let out := operation .plain store
  (out.result, out.store)

/-- Look an entity up by its id. -/
def get (c : Collection α) (store : Store) (id : String) : Except Error (Option α) × Store :=
  runPlain store (c.getOn id)

/-- Insert an entity or replace the one with its id. -/
def put (c : Collection α) (store : Store) (entity : α) : Except Error Unit × Store :=
  runPlain store (c.putOn entity)

/-- Delete the entity with an id, and tell whether there was one. -/
def delete (c : Collection α) (store : Store) (id : String) : Except Error Bool × Store :=
  runPlain store (c.deleteOn id)

/-- The entities that satisfy a predicate: the page of a request, or all. -/
def find (c : Collection α) (store : Store) (request : Option Page) (pred : α → Bool) :
    Except Error (Results α) × Store :=
  runPlain store (c.findOn request pred)

/-- All entities, by ascending id. -/
def findAll (c : Collection α) (store : Store) : Except Error (List α) × Store :=
  let (result, store) := c.find store none fun _ => true
  (result.map Results.items, store)

/-! ## In a transaction -/

/-- Look an entity up by its id. -/
def getIn (c : Collection α) (t : Option CallerTransaction) (store : Store) (id : String) :
    Outcome (Option CallerTransaction) (Option α) :=
  CallerTransaction.run t store (c.getOn id)

/-- Insert an entity or replace the one with its id. -/
def putIn (c : Collection α) (t : Option CallerTransaction) (store : Store) (entity : α) :
    Outcome (Option CallerTransaction) Unit :=
  CallerTransaction.run t store (c.putOn entity)

/-- Delete the entity with an id, and tell whether there was one. -/
def deleteIn (c : Collection α) (t : Option CallerTransaction) (store : Store) (id : String) :
    Outcome (Option CallerTransaction) Bool :=
  CallerTransaction.run t store (c.deleteOn id)

/-- The entities that satisfy a predicate, as the transaction sees them. -/
def findIn (c : Collection α) (t : Option CallerTransaction) (store : Store)
    (request : Option Page) (pred : α → Bool) : Outcome (Option CallerTransaction) (Results α) :=
  CallerTransaction.run t store (c.findOn request pred)

end Collection

end EntityStore
