import CachedViews.CommandLine.Run
import CachedViews.Config.Loading
import CachedViews.Engine.Delivery
import CachedViews.Engine.Running
import CachedViews.Layout
import CachedViews.Log.Context
import CachedViews.Log.Setup
import CachedViews.Main
import CachedViews.Options
import CachedViews.PathCache
import CachedViews.Proofs.CommandLine.Escaping
import CachedViews.Proofs.CommandLine.Partials
import CachedViews.Proofs.Config.Layers
import CachedViews.Proofs.Config.Loading
import CachedViews.Proofs.Config.NormalForm
import CachedViews.Proofs.Config.Overlay
import CachedViews.Proofs.Config.Settings
import CachedViews.Proofs.Engine.Aggregated
import CachedViews.Proofs.Engine.Barrier
import CachedViews.Proofs.Engine.Blame
import CachedViews.Proofs.Engine.Calls
import CachedViews.Proofs.Engine.Coherence
import CachedViews.Proofs.Engine.Composed
import CachedViews.Proofs.Engine.Composition
import CachedViews.Proofs.Engine.Delivered
import CachedViews.Proofs.Engine.Discovered
import CachedViews.Proofs.Engine.Escaped
import CachedViews.Proofs.Engine.Expected
import CachedViews.Proofs.Engine.FailedView
import CachedViews.Proofs.Engine.History
import CachedViews.Proofs.Engine.HistoryFree
import CachedViews.Proofs.Engine.Keyed
import CachedViews.Proofs.Engine.Malformed
import CachedViews.Proofs.Engine.Merged
import CachedViews.Proofs.Engine.Named
import CachedViews.Proofs.Engine.Once
import CachedViews.Proofs.Engine.OneFault
import CachedViews.Proofs.Engine.Provenance
import CachedViews.Proofs.Engine.Refinement
import CachedViews.Proofs.Engine.Rendered
import CachedViews.Proofs.Engine.Reported
import CachedViews.Proofs.Engine.Retries
import CachedViews.Proofs.Engine.Uncached
import CachedViews.Proofs.Engine.Usage
import CachedViews.Proofs.Fields
import CachedViews.Proofs.FileTree.Following
import CachedViews.Proofs.Json.ReadBack
import CachedViews.Proofs.Json.Texts
import CachedViews.Proofs.Listing.Descent
import CachedViews.Proofs.Listing.Detours
import CachedViews.Proofs.Listing.Listed
import CachedViews.Proofs.Listing.Named
import CachedViews.Proofs.Listing.Tour
import CachedViews.Proofs.Listing.Turns
import CachedViews.Proofs.Log.ReadBack
import CachedViews.Proofs.Log.SettingUp
import CachedViews.Proofs.Path.Along
import CachedViews.Proofs.Path.Below
import CachedViews.Proofs.Path.Canonical
import CachedViews.Proofs.PathCache.Bystanders
import CachedViews.Proofs.PathCache.Cancelling
import CachedViews.Proofs.PathCache.Coalescing
import CachedViews.Proofs.PathCache.Failing
import CachedViews.Proofs.PathCache.Keys
import CachedViews.Proofs.PathCache.LateEnds
import CachedViews.Proofs.PathCache.Runs
import CachedViews.Proofs.Source.Entries
import CachedViews.Proofs.Task.Accounts
import CachedViews.Proofs.Task.Alike
import CachedViews.Proofs.Task.Amid
import CachedViews.Proofs.Task.Apart
import CachedViews.Proofs.Task.Contract
import CachedViews.Proofs.Task.Deeds
import CachedViews.Proofs.Task.Ending
import CachedViews.Proofs.Task.Failures
import CachedViews.Proofs.Task.Halt
import CachedViews.Proofs.Task.Held
import CachedViews.Proofs.Task.Keys
import CachedViews.Proofs.Task.Mirror
import CachedViews.Proofs.Task.Moves
import CachedViews.Proofs.Task.Notes
import CachedViews.Proofs.Task.Onward
import CachedViews.Proofs.Task.Orderly
import CachedViews.Proofs.Task.Results
import CachedViews.Proofs.Task.Sources
import CachedViews.Proofs.Task.Upheld
import CachedViews.Proofs.Task.Usage
import CachedViews.Proofs.Task.Withdrawn
import CachedViews.Proofs.Task.Within
import CachedViews.Proofs.Template.Cutting
import CachedViews.Proofs.Template.Environments
import CachedViews.Proofs.Template.Expansion
import CachedViews.Proofs.Template.Faults
import CachedViews.Proofs.Template.Kept
import CachedViews.Proofs.Template.Reaching
import CachedViews.Proofs.Template.Reading
import CachedViews.Proofs.Template.Scoping
import CachedViews.Proofs.Web.Containment
import CachedViews.Proofs.Web.Naming
import CachedViews.Proofs.Web.NotFound
import CachedViews.Proofs.Web.Steering
import CachedViews.Source
import CachedViews.Template.Environment
import CachedViews.Web.Site
