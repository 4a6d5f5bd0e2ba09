import EntityStore.Json.Basic
import EntityStore.Kind.Catalog
import EntityStore.Text.Quoted

/-! # Errors

Everything that can go wrong, by cause, and the wording of each cause.  Errors of misuse are
told apart from those of running conditions by `Error.isProgrammerError`. -/

namespace EntityStore

/-- Why an entity has no stored body, or a body is no entity of the type that was asked
    for. -/
inductive BodyError where
  /-- A number has no place in a stored body. -/
  | numberOutOfRange
  /-- A field of the type is not in the body. -/
  | missingField (field : String)
  /-- A field holds a value of another type. -/
  | invalidType (found : Json) (expected : String)
  /-- A field holds a number beyond the bounds of its type. -/
  | invalidValue (found : Json) (expected : String)
  /-- Another reason, in words. -/
  | other (reason : String)

namespace BodyError

/-- What a value is, for a reader who expected something else. -/
def describe : Json → String
  | .null => "null"
  | .bool b => s!"boolean \x60{b}\x60"
  | .int n => s!"integer \x60{n}\x60"
  | .real negative digits exponent =>
    s!"floating point \x60{(Json.real negative digits exponent).renderString}\x60"
  | .str s => s!"string {Text.quote s}"
  | .arr _ => "sequence"
  | .obj _ => "map"

/-- The wording of a body error. -/
def message : BodyError → String
  | .numberOutOfRange => "number out of range"
  | .missingField field => s!"missing field \x60{field}\x60"
  | .invalidType found expected => s!"invalid type: {describe found}, expected {expected}"
  | .invalidValue found expected => s!"invalid value: {describe found}, expected {expected}"
  | .other reason => reason

end BodyError

/-- Why a file could not be read or written. -/
inductive IoError where
  | notFound
  | notADirectory
  | isADirectory
  /-- A path, or a name in it, is too long. -/
  | nameTooLong
  /-- A path holds the character that ends a path for the system. -/
  | nulInPath
  /-- The bytes are not UTF-8. -/
  | invalidUtf8
  /-- Another reason, in words. -/
  | other (reason : String)
deriving DecidableEq, Repr

/-- The wording of a file error. -/
def IoError.message : IoError → String
  | .notFound => "No such file or directory (os error 2)"
  | .notADirectory => "Not a directory (os error 20)"
  | .isADirectory => "Is a directory (os error 21)"
  | .nameTooLong => "File name too long (os error 36)"
  | .nulInPath => "file name contained an unexpected NUL byte"
  | .invalidUtf8 => "stream did not contain valid UTF-8"
  | .other reason => reason

/-- An error of the store, its sessions or anything built on them. -/
inductive Error where
  /-- A required part or resource is missing or empty. -/
  | configuration (reason : String)
  /-- A configured name stands for no kind. -/
  | unresolvableKind (name : String) (source : UnknownName)
  /-- A commit or rollback on something that takes part in no transaction. -/
  | transactionState (reason : String)
  /-- A transaction is required and none was given. -/
  | nullTransaction
  /-- The given transaction belongs to another persistence layer. -/
  | transactionTypeMismatch (expected actual : String)
  /-- The transaction has already finished. -/
  | transactionNotActive
  /-- A record that the transaction read has changed since. -/
  | transactionConflict (reason : String)
  /-- An operation that a read-only sequence does not have. -/
  | unsupportedOperation (operation : String)
  /-- A cursor that cannot be decoded or belongs to another kind. -/
  | invalidCursor (reason : String)
  /-- A request with parameters out of bounds. -/
  | invalidInput (reason : String)
  /-- A kind that the store does not hold. -/
  | kindNotRegistered (kind : String)
  /-- A kind that the store holds already. -/
  | duplicateKind (kind : String)
  /-- An entity and a body that do not fit each other. -/
  | serialization (cause : BodyError)
  /-- A resource that cannot be read. -/
  | io (cause : IoError)
  /-- A failure of the storage layer. -/
  | storage (reason : String)

namespace Error

/-- The wording of an error. -/
def message : Error → String
  | .configuration reason => s!"configuration error: {reason}"
  | .unresolvableKind name _ => s!"cannot resolve entity kind '{name}'"
  | .transactionState reason => s!"transaction state error: {reason}"
  | .nullTransaction => "transaction handle must not be null"
  | .transactionTypeMismatch expected actual =>
    s!"transaction type mismatch: expected {expected}, got {actual}"
  | .transactionNotActive => "transaction not active"
  | .transactionConflict reason => s!"transaction conflict: {reason}"
  | .unsupportedOperation operation => s!"unsupported operation: {operation}"
  | .invalidCursor reason => s!"invalid cursor: {reason}"
  | .invalidInput reason => s!"invalid input: {reason}"
  | .kindNotRegistered kind => s!"entity kind not registered: {kind}"
  | .duplicateKind kind => s!"entity kind already registered: {kind}"
  | .serialization cause => s!"serialization error: {cause.message}"
  | .io cause => s!"I/O error: {cause.message}"
  | .storage reason => s!"storage error: {reason}"

/-- Whether an error comes from misuse rather than from running conditions. -/
def isProgrammerError : Error → Bool
  | .transactionState _ | .nullTransaction | .transactionTypeMismatch _ _
  | .unsupportedOperation _ => true
  | _ => false

end Error

end EntityStore
