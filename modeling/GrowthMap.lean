import GrowthMap.Payments.Reachable
import GrowthMap.Payments.Terminal
import GrowthMap.Payments.Crossing
import GrowthMap.Payments.Guarantees
import GrowthMap.Payments.Triggers
import GrowthMap.Payments.Fencing
import GrowthMap.Payments.FailClosed
import GrowthMap.Payments.StartTrust
import GrowthMap.Payments.Finalization
import GrowthMap.Payments.Restart
import GrowthMap.Payments.Rows
import GrowthMap.Payments.Recovery
import GrowthMap.Payments.Quote
import GrowthMap.Authority.Ledger
import GrowthMap.Authority.Effects
import GrowthMap.Authority.Seats
import GrowthMap.Authority.Inbox
import GrowthMap.Authority.Gifts
import GrowthMap.Authority.Ceremonies
import GrowthMap.Authority.Journal
import GrowthMap.Canon.Types
import GrowthMap.Canon.Branching
import GrowthMap.Canon.Projects
import GrowthMap.Canon.Batch
import GrowthMap.Canon.Requests
import GrowthMap.Lib.Part
import GrowthMap.Canon.Effects
import GrowthMap.Canon.Serial
import GrowthMap.Canon.Copies
import GrowthMap.Canon.Validation
import GrowthMap.Canon.Execution
import GrowthMap.Canon.Application
import GrowthMap.Canon.Steps
import GrowthMap.Canon.Containment
import GrowthMap.Desktop.Database
import GrowthMap.Desktop.Exclusion
import GrowthMap.Desktop.Replacement
import GrowthMap.Desktop.Entitlements
import GrowthMap.Desktop.SoundEntitlement
import GrowthMap.Payments.BaseFinality
import GrowthMap.Payments.FinalizedChain
import GrowthMap.Desktop.Authorisation
import GrowthMap.Whop.Fulfilment
import GrowthMap.Authority.Entitlements
import GrowthMap.Canon.Changes
import GrowthMap.Whop.Effects
import GrowthMap.Whop.Guarantees
import GrowthMap.Desktop.Agreement
import GrowthMap.Desktop.FirstStart
import GrowthMap.Authority.Retention
import GrowthMap.Canon.Confinement
import GrowthMap.Canon.ActiveLimit
import GrowthMap.Canon.LockOrder
import GrowthMap.Client.Actions
import GrowthMap.Client.Coherence
import GrowthMap.Canon.Deletion
import GrowthMap.Canon.Scopes
import GrowthMap.Canon.BlockOrder
import GrowthMap.Canon.BranchCopy
import GrowthMap.Canon.Cycles
import GrowthMap.Canon.Merging
import GrowthMap.Canon.Moves
import GrowthMap.Client.Walks
import GrowthMap.Views.Markdown
import GrowthMap.Views.Subtree
import GrowthMap.AgentPort.Exactness
import GrowthMap.AgentPort.Traffic
import GrowthMap.AgentPort.Idempotency
import GrowthMap.AgentPort.Paths
import GrowthMap.Canon.Reordering
import GrowthMap.Desktop.Install
import GrowthMap.Db.Contract
import GrowthMap.Db.Migrations
import GrowthMap.Db.Prediction
import GrowthMap.Db.SchemaText
import GrowthMap.Desktop.FailClosed
import GrowthMap.Desktop.JsonAgreement
import GrowthMap.Authority.GiftLimiter
import GrowthMap.Build.ModuleIds
import GrowthMap.Client.Suggestions
import GrowthMap.Desktop.LicenseImport
import GrowthMap.Lib.Decimal
import GrowthMap.Lib.HashChain
import GrowthMap.Payments.AdminLimiter
import GrowthMap.Payments.Audit
import GrowthMap.Payments.CanonicalJson
import GrowthMap.Payments.PaypalAmount
import GrowthMap.Payments.Sidecar
import GrowthMap.Views.Layout
import GrowthMap.Authority.EdgeRequests
import GrowthMap.Build.CheckoutFree
import GrowthMap.Client.NodeHistory
import GrowthMap.Desktop.SecretStore
import GrowthMap.Desktop.Versions
import GrowthMap.Lib.IsoOrder
import GrowthMap.Lib.PosixPath
import GrowthMap.Payments.CanonicalForm
import GrowthMap.Payments.ReviewManifest
import GrowthMap.Payments.ReviewVerdict
import GrowthMap.Payments.SeparationOfDuties
import GrowthMap.Payments.Timestamps
import GrowthMap.Views.StaticFiles
