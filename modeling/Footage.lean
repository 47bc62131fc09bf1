import Footage.Main
import Footage.Store.Events
import Footage.Store.Session
import Footage.Proofs.Binary64.Magnitude
import Footage.Proofs.Binary64.Order
import Footage.Proofs.Sql.Literals
import Footage.Proofs.Sql.Selection
import Footage.Proofs.Timestamp.Digits
import Footage.Proofs.Outcome
import Footage.Proofs.Store.Reading
import Footage.Proofs.Fragment.Prefilter
import Footage.Proofs.Fragment.Order
import Footage.Proofs.Store.Resolution
import Footage.Proofs.Store.Trigger
import Footage.Proofs.Store.Effects
import Footage.Proofs.Store.Invariant
import Footage.Proofs.Store.Reachable
import Footage.Proofs.Store.History
import Footage.Proofs.Store.Runs
import Footage.Proofs.Store.Footage
import Footage.Proofs.Store.Siblings
import Footage.Proofs.Store.Deletion
import Footage.Proofs.Store.Turns
import Footage.Proofs.Store.Survival
import Footage.Proofs.Store.Thumbnails
import Footage.Proofs.Calendar.Civil
import Footage.Proofs.Recording.Order
import Footage.Proofs.Recording.Filename
import Footage.Proofs.Store.Listing
import Footage.Proofs.Store.Failure
import Footage.Proofs.Store.Stopping
import Footage.Proofs.Sql.Token
import Footage.Proofs.Sql.Splitting
import Footage.Proofs.Sql.Statements
import Footage.Proofs.Sql.Template
import Footage.Proofs.Query.Call
import Footage.Proofs.Store.Contribution
import Footage.Proofs.Fragment.Relocation
import Footage.Proofs.Store.Moves
import Footage.Proofs.Store.Naming
import Footage.Proofs.Program.Registry
import Footage.Proofs.Binary64.Value
import Footage.Proofs.Window.Bounds
import Footage.Proofs.Store.Sharing
import Footage.Proofs.Fragment.Narrowing
import Footage.Proofs.Store.Overlap
import Footage.Proofs.Json.RoundTrip
import Footage.Proofs.Sql.Reals
import Footage.Proofs.Store.Writing
import Footage.Proofs.Store.Connections
import Footage.Proofs.Text.Pieces
import Footage.Proofs.Path.Components
import Footage.Proofs.Path.Directory
import Footage.Proofs.Path.Containment
import Footage.Proofs.Text.Bytes
import Footage.Proofs.Fragment.Names
import Footage.Proofs.Store.Additions
import Footage.Proofs.Store.Events
