import EntityStore.Base64Url
import EntityStore.Binary64
import EntityStore.Bytes
import EntityStore.Collection
import EntityStore.Config
import EntityStore.Entity.Basic
import EntityStore.Entity.Schema
import EntityStore.Error
import EntityStore.Files.Path
import EntityStore.Files.Tree
import EntityStore.Json.Basic
import EntityStore.Json.RecordText
import EntityStore.Json.Text
import EntityStore.Kind.Basic
import EntityStore.Kind.Catalog
import EntityStore.Kind.Listing
import EntityStore.Page.Basic
import EntityStore.Page.Cursor
import EntityStore.Page.Position
import EntityStore.Page.Wire
import EntityStore.Proofs.Base64Url
import EntityStore.Proofs.Collection.Boundary
import EntityStore.Proofs.Collection.FiniteMap
import EntityStore.Proofs.Collection.Partition
import EntityStore.Proofs.Collection.Reread
import EntityStore.Proofs.Collection.Walk
import EntityStore.Proofs.Collection.Wire
import EntityStore.Proofs.Config
import EntityStore.Proofs.Files.Written
import EntityStore.Proofs.Json.Literal
import EntityStore.Proofs.Json.ReadBack
import EntityStore.Proofs.Json.Values
import EntityStore.Proofs.Kind.Listing
import EntityStore.Proofs.Kind.NormalForm
import EntityStore.Proofs.Kind.Precedence
import EntityStore.Proofs.Page.Position
import EntityStore.Proofs.Page.Wire
import EntityStore.Proofs.Query.Search
import EntityStore.Proofs.Scan.Ahead
import EntityStore.Proofs.Scan.Calls
import EntityStore.Proofs.Scan.Demands
import EntityStore.Proofs.Scan.Pages
import EntityStore.Proofs.Scan.Resume
import EntityStore.Proofs.Session.Alone
import EntityStore.Proofs.Session.Conflict
import EntityStore.Proofs.Session.Effect
import EntityStore.Proofs.Session.Operation
import EntityStore.Proofs.Session.PointReads
import EntityStore.Proofs.Session.Queried
import EntityStore.Proofs.Session.Repeat
import EntityStore.Proofs.Session.Replay
import EntityStore.Proofs.Session.Rows
import EntityStore.Proofs.Session.Run
import EntityStore.Proofs.Session.Serial
import EntityStore.Proofs.Session.Update
import EntityStore.Proofs.Session.Versions
import EntityStore.Proofs.Store.Commit
import EntityStore.Proofs.Store.Records
import EntityStore.Proofs.System.Atomic
import EntityStore.Proofs.System.Bulk
import EntityStore.Proofs.System.Client
import EntityStore.Proofs.System.Failed
import EntityStore.Proofs.System.Finished
import EntityStore.Proofs.System.Invisible
import EntityStore.Proofs.System.Known
import EntityStore.Proofs.System.LifeCycle
import EntityStore.Proofs.System.Registration
import EntityStore.Proofs.System.Run
import EntityStore.Proofs.System.Sessions
import EntityStore.Proofs.Text.ByteOrder
import EntityStore.Proofs.Toml.Entries
import EntityStore.Proofs.Toml.Quoted
import EntityStore.Query.Basic
import EntityStore.Query.Search
import EntityStore.Scan.Basic
import EntityStore.Scan.Paging
import EntityStore.Scan.Selection
import EntityStore.Scan.Source
import EntityStore.Session.Basic
import EntityStore.Session.Caller
import EntityStore.Session.Data
import EntityStore.Session.Handle
import EntityStore.Session.Transaction
import EntityStore.Setup
import EntityStore.Store.Basic
import EntityStore.Store.Commit
import EntityStore.Store.Record
import EntityStore.Store.Registry
import EntityStore.Text.Blank
import EntityStore.Text.Printable
import EntityStore.Text.Quoted
import EntityStore.Toml.Basic
import EntityStore.Toml.Quoted
import EntityStore.Toml.Reader
import EntityStore.Toml.Scalar
