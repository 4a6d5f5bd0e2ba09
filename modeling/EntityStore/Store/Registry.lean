import EntityStore.Kind.Listing
import EntityStore.Store.Basic
import Std.Data.ExtTreeSet

/-! # Registries of kinds

A store refuses a kind that it holds already, yet kinds are registered from many places.  A
registry remembers which kinds went through it, so that only the first registration of a
kind reaches the store.  A kind that was refused is not remembered and may be tried again.

Kinds may also be registered by a list of names.  All names are resolved before the first
kind is registered. -/

namespace EntityStore

/-- Something that kinds can be registered with, as its state `σ`. -/
class Registrar (σ : Type) where
  register : Kind → σ → Except Error Unit × σ

instance : Registrar Store where
  register kind store :=
    match store.register kind with
    | .ok store => (.ok (), store)
    | .error e => (.error e, store)

/-- The kinds that went through a registry. -/
structure Registry where
  registered : Std.ExtTreeSet Kind := ∅

/-- What a registration leaves: its result, the registry, and what it was made with. -/
structure Registration (σ β : Type) where
  result : Except Error β
  registry : Registry
  registrar : σ

namespace Registry

variable {σ : Type}

/-- A registry that nothing went through. -/
def empty : Registry := {}

/-- Whether a kind went through the registry. -/
def isRegistered (r : Registry) (kind : Kind) : Bool := r.registered.contains kind

/-- The kinds that went through the registry, in ascending order. -/
def kinds (r : Registry) : List Kind := r.registered.toList

/-- The number of kinds that went through the registry. -/
def size (r : Registry) : Nat := r.registered.size

/-- Whether nothing went through the registry. -/
def isEmpty (r : Registry) : Bool := r.registered.isEmpty

/-- Register a kind unless it has been registered, and tell whether that was done. -/
def register [Registrar σ] (r : Registry) (kind : Kind) (registrar : σ) :
    Registration σ Bool :=
  if r.isRegistered kind then ⟨.ok false, r, registrar⟩
  else
    match Registrar.register kind registrar with
    | (.ok (), registrar) => ⟨.ok true, ⟨r.registered.insert kind⟩, registrar⟩
    | (.error e, registrar) => ⟨.error e, r, registrar⟩

/-- Register kinds in order, up to the first that is refused. -/
def registerAll [Registrar σ] (r : Registry) (registrar : σ) :
    List Kind → Registration σ Unit
  | [] => ⟨.ok (), r, registrar⟩
  | kind :: kinds =>
    match r.register kind registrar with
    | ⟨.ok _, r, registrar⟩ => registerAll r registrar kinds
    | ⟨.error e, r, registrar⟩ => ⟨.error e, r, registrar⟩

/-- The kinds of names in a catalog, or an error for the first name that is not in it. -/
def resolveAll (catalog : Catalog) : List String → Except Error (List Kind)
  | [] => .ok []
  | name :: names =>
    match catalog.resolve name with
    | .error source => .error (.unresolvableKind name source)
    | .ok kind => (resolveAll catalog names).map (kind :: ·)

/-- The kinds that a list names, which have to be some. -/
def kindsOfList (catalog : Catalog) (text : Bytes) : Except Error (List Kind) := do
  let names ← KindListing.parse text
  if names.isEmpty then
    throw (.configuration "entity kind resource does not name any kinds")
  resolveAll catalog names

/-- Register the kinds that a list names, and answer with them in the order of the list. -/
def registerList [Registrar σ] (r : Registry) (text : Bytes) (catalog : Catalog)
    (registrar : σ) : Registration σ (List Kind) :=
  match kindsOfList catalog text with
  | .error e => ⟨.error e, r, registrar⟩
  | .ok kinds =>
    match r.registerAll registrar kinds with
    | ⟨.ok (), r, registrar⟩ => ⟨.ok kinds, r, registrar⟩
    | ⟨.error e, r, registrar⟩ => ⟨.error e, r, registrar⟩

end Registry

end EntityStore
