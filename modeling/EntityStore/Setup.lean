import EntityStore.Config
import EntityStore.Store.Registry

/-! # Setups

A setup is how a store is to be used: under which configuration, and with a catalog of the
kinds that may be registered by name.  The store and the registry are shared with others, so
every operation is given their present state.

`Setup.build` checks the configuration and then registers the kinds that it lists. -/

namespace EntityStore

/-- A configuration, and the kinds that may be registered by name. -/
structure Setup where
  catalog : Catalog := .empty
  config : Config := {}

namespace Setup

variable {σ : Type} [Registrar σ]

/-- Register the kinds that a text lists. -/
def registerList (setup : Setup) (text : Bytes) (registry : Registry) (store : σ) :
    Registration σ (List Kind) :=
  registry.registerList text setup.catalog store

/-- Register the kinds that a file lists.  A file that is not there is a matter of the
    configuration. -/
def registerFile (setup : Setup) (files : FileTree) (path : String) (registry : Registry)
    (store : σ) : Registration σ (List Kind) :=
  match files.find path with
  | .error e =>
    ⟨.error (.configuration s!"cannot open entity kind resource '{path}': {e.message}"),
      registry, store⟩
  | .ok file =>
    match file.content with
    | .error e => ⟨.error (.io e), registry, store⟩
    | .ok text => setup.registerList text registry store

/-- Check a setup and register the kinds that its configuration lists.  A setup needs a
    store. -/
def build (setup : Setup) (files : FileTree) (registry : Registry) (store : Option σ) :
    Registration (Option σ) Setup :=
  match store with
  | none => ⟨.error (.configuration "SessionFactory requires a datastore"), registry, none⟩
  | some store =>
    match setup.config.validate with
    | .error e => ⟨.error e, registry, some store⟩
    | .ok () =>
      match setup.config.entities with
      | none => ⟨.ok setup, registry, some store⟩
      | some path =>
        let out := setup.registerFile files path registry store
        ⟨out.result.map fun _ => setup, out.registry, some out.registrar⟩

end Setup

end EntityStore
