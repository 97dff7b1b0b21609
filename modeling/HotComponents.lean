import HotComponents.Cache.Desk
import HotComponents.Component.Markup
import HotComponents.Options.Written
import HotComponents.Session.Run
import HotComponents.Proofs.Cache.Sound
import HotComponents.Proofs.Cache.Shared
import HotComponents.Proofs.Cache.Waiting
import HotComponents.Proofs.Cache.Current
import HotComponents.Proofs.Cache.SingleFlight
import HotComponents.Proofs.Cache.Superseded
import HotComponents.Proofs.Cache.Graph
import HotComponents.Proofs.Cache.Mirror
import HotComponents.Proofs.Cache.Renewal
import HotComponents.Proofs.Cache.Dependents
import HotComponents.Proofs.Cache.Spelled
import HotComponents.Proofs.Cache.Refreshed
import HotComponents.Proofs.Session.Change
import HotComponents.Proofs.Session.HotUpdate
import HotComponents.Proofs.Cache.Provenance
import HotComponents.Proofs.Session.Transform
import HotComponents.Proofs.Session.Failure
import HotComponents.Proofs.Session.Report
import HotComponents.Proofs.Text.Escapes
import HotComponents.Proofs.ModuleId.Query
import HotComponents.Proofs.ModuleId.RoundTrip
import HotComponents.Proofs.Session.Sweep
import HotComponents.Proofs.Session.Outlived
import HotComponents.Proofs.Session.Remaking
import HotComponents.Proofs.Session.Commuting
import HotComponents.Proofs.Cache.Ordered
import HotComponents.Proofs.Session.Delivery
import HotComponents.Proofs.Session.Compiles
import HotComponents.Proofs.Session.Kept
import HotComponents.Proofs.Session.Stylesheet
import HotComponents.Proofs.Session.Restored
import HotComponents.Proofs.Session.Readers
import HotComponents.Proofs.Session.Emptied
import HotComponents.Proofs.Session.StyleImport
import HotComponents.Proofs.Package.Memory
import HotComponents.Proofs.Cache.Returning
import HotComponents.Proofs.Cache.Isolated
import HotComponents.Proofs.Session.WellFiled
import HotComponents.Proofs.Cache.Succession
import HotComponents.Proofs.ModuleId.Resolved
import HotComponents.Proofs.Session.Worklist
import HotComponents.Proofs.Session.Reported
import HotComponents.Proofs.ModuleId.Apart
import HotComponents.Proofs.ModuleId.Grammar
import HotComponents.Proofs.Session.ImportLine
import HotComponents.Proofs.Session.Stale
import HotComponents.Proofs.Cache.GraphHistory
import HotComponents.Proofs.Package.Report
import HotComponents.Proofs.ModuleId.WellFormed
import HotComponents.Proofs.Session.Repeated
import HotComponents.Proofs.Component.Dependencies
