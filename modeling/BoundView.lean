import BoundView.Component.Dispatch
import BoundView.Component.Mount
import BoundView.Component.Write
import BoundView.Config
import BoundView.Decimal.Layout
import BoundView.Decimal.Shortest
import BoundView.Dom.Content
import BoundView.Dom.Document
import BoundView.Dom.Edit
import BoundView.Dom.Markup
import BoundView.Dom.Traverse
import BoundView.Forest
import BoundView.Interpolation.Marker
import BoundView.Interpolation.Resolve
import BoundView.Json.Basic
import BoundView.Json.Reader
import BoundView.Markup.Cursor
import BoundView.Markup.Entity
import BoundView.Markup.Error
import BoundView.Markup.Parse
import BoundView.Markup.Render
import BoundView.Markup.Tag
import BoundView.Markup.Token
import BoundView.Options
import BoundView.Proofs.Component.Agreement
import BoundView.Proofs.Component.Arriving
import BoundView.Proofs.Component.Auditing
import BoundView.Proofs.Component.Bubbling
import BoundView.Proofs.Component.Conduct
import BoundView.Proofs.Component.Consistency
import BoundView.Proofs.Component.Constancy
import BoundView.Proofs.Component.Dispatching
import BoundView.Proofs.Component.Faithful
import BoundView.Proofs.Component.Hearing
import BoundView.Proofs.Component.Idle
import BoundView.Proofs.Component.Injection
import BoundView.Proofs.Component.Isolation
import BoundView.Proofs.Component.Keeping
import BoundView.Proofs.Component.Lasting
import BoundView.Proofs.Component.Making
import BoundView.Proofs.Component.Mirroring
import BoundView.Proofs.Component.Noting
import BoundView.Proofs.Component.Outcome
import BoundView.Proofs.Component.Page
import BoundView.Proofs.Component.Presenting
import BoundView.Proofs.Component.Program
import BoundView.Proofs.Component.Propagating
import BoundView.Proofs.Component.RoundTrips
import BoundView.Proofs.Component.Scans
import BoundView.Proofs.Component.Sparing
import BoundView.Proofs.Component.Strictness
import BoundView.Proofs.Component.Touching
import BoundView.Proofs.Component.Upkeep
import BoundView.Proofs.Component.Writeback
import BoundView.Proofs.Component.Writing
import BoundView.Proofs.Interpolation.Occurrences
import BoundView.Proofs.Interpolation.Splicing
import BoundView.Proofs.Markup.Escaping
import BoundView.Proofs.Markup.Image
import BoundView.Proofs.Markup.Joining
import BoundView.Proofs.Markup.Nesting
import BoundView.Proofs.Markup.Reading
import BoundView.Proofs.Markup.References
import BoundView.Proofs.Markup.RoundTrip
import BoundView.Proofs.Markup.Scanning
import BoundView.Proofs.Markup.Skeleton
import BoundView.Proofs.Markup.Sound
import BoundView.Proofs.Markup.WellFormed
import BoundView.Proofs.Rendering.Above
import BoundView.Proofs.Rendering.Derived
import BoundView.Proofs.Rendering.Filtered
import BoundView.Proofs.Rendering.Freshness
import BoundView.Proofs.Rendering.Housing
import BoundView.Proofs.Rendering.LiveValue
import BoundView.Proofs.Rendering.Markup
import BoundView.Proofs.Rendering.Mounting
import BoundView.Proofs.Rendering.Patching
import BoundView.Proofs.Rendering.Placing
import BoundView.Proofs.Selector.Grammar
import BoundView.Proofs.Selector.Meaning
import BoundView.Proofs.Text.Cut
import BoundView.Proofs.Text.Slice
import BoundView.Proofs.Tree.Alike
import BoundView.Proofs.Tree.Coherent
import BoundView.Proofs.Tree.Contents
import BoundView.Proofs.Tree.Edits
import BoundView.Proofs.Tree.Extending
import BoundView.Proofs.Tree.Frame
import BoundView.Proofs.Tree.Grafting
import BoundView.Proofs.Tree.Growing
import BoundView.Proofs.Tree.Lockstep
import BoundView.Proofs.Tree.Lowercase
import BoundView.Proofs.Tree.Parsing
import BoundView.Proofs.Tree.Planting
import BoundView.Proofs.Tree.Pointing
import BoundView.Proofs.Tree.Reachable
import BoundView.Proofs.Tree.Rehanging
import BoundView.Proofs.Tree.Reparsing
import BoundView.Proofs.Tree.Retaining
import BoundView.Proofs.Tree.Revising
import BoundView.Proofs.Tree.Rewriting
import BoundView.Proofs.Tree.Standing
import BoundView.Proofs.Tree.Stepwise
import BoundView.Proofs.Tree.Traversals
import BoundView.Proofs.Tree.Walks
import BoundView.Proofs.World.Accounts
import BoundView.Proofs.World.Adding
import BoundView.Proofs.World.Attending
import BoundView.Proofs.World.Audit
import BoundView.Proofs.World.Calls
import BoundView.Proofs.World.Contract
import BoundView.Proofs.World.Declaring
import BoundView.Proofs.World.Delivery
import BoundView.Proofs.World.Durable
import BoundView.Proofs.World.Idling
import BoundView.Proofs.World.Journal
import BoundView.Proofs.World.Keyed
import BoundView.Proofs.World.Ledger
import BoundView.Proofs.World.Mirrored
import BoundView.Proofs.World.Neighbours
import BoundView.Proofs.World.Orderly
import BoundView.Proofs.World.Tables
import BoundView.Proofs.World.Triple
import BoundView.Proofs.World.Twofold
import BoundView.Proofs.World.Underway
import BoundView.Selector.Basic
import BoundView.Selector.Match
import BoundView.Session.Cells
import BoundView.Session.Components
import BoundView.Session.Documents
import BoundView.Session.Evaluate
import BoundView.Session.Reply
import BoundView.Session.Run
import BoundView.Session.Script
import BoundView.Session.State
import BoundView.Session.Templates
import BoundView.Template.Basic
import BoundView.Template.Patch
import BoundView.Template.Render
import BoundView.Text.Basic
import BoundView.Text.Class
import BoundView.Text.Cut
import BoundView.Text.Shown
import BoundView.Trace
import BoundView.Value
import BoundView.World.Basic
import BoundView.World.Store
