import AgentPlatform.Engine.Destinations
import AgentPlatform.Routing.OneOutcome
import AgentPlatform.Engine.Terminal
import AgentPlatform.Lib.Pipeline
import AgentPlatform.Lib.Runs
import AgentPlatform.Erp.AtMostOnce
import AgentPlatform.Budget.Admission
import AgentPlatform.Agent.Inert
import AgentPlatform.Freeze
import AgentPlatform.Engine.Schedules
import AgentPlatform.Escalation.Delivered
import AgentPlatform.Conversation.Suppressed
import AgentPlatform.Conversation.History
import AgentPlatform.Reengagement.OneLive
import AgentPlatform.Briefing.Progress
import AgentPlatform.Supervisor.Ledger
import AgentPlatform.Identity.Sessions
import AgentPlatform.Crm.Settlement
import AgentPlatform.Crm.Evidence
import AgentPlatform.Crm.Destination
import AgentPlatform.OAuth.Generations
import AgentPlatform.OAuth.Retry
import AgentPlatform.Google.Readback
import AgentPlatform.Sync.Chain
import AgentPlatform.Sync.Fits
import AgentPlatform.Budget.Retries
import AgentPlatform.Deliveries.Lease
import AgentPlatform.Conversation.Prompt
import AgentPlatform.Ladder.Store
import AgentPlatform.Briefing.Digest
import AgentPlatform.Integrations.Credentials
import AgentPlatform.Erp.Documents
import AgentPlatform.Worker.Planner
import AgentPlatform.Escalation.Attempts
import AgentPlatform.Conversation.LeftRuns
import AgentPlatform.Conversation.Desk
import AgentPlatform.Conversation.Orders
import AgentPlatform.Knowledge.Store
import AgentPlatform.Knowledge.Chunks
import AgentPlatform.Knowledge.Versions
import AgentPlatform.Runner.Loop
import AgentPlatform.Runner.AtMostOnce
import AgentPlatform.Runner.Results
import AgentPlatform.Legacy.Approvals
import AgentPlatform.Legacy.Decisions
import AgentPlatform.Packs.Loader
import AgentPlatform.Packs.Cache
import AgentPlatform.Graph.Canonical
import AgentPlatform.Graph.Config
import AgentPlatform.Graph.Collect
import AgentPlatform.Graph.Search
import AgentPlatform.Inventory.Figures
import AgentPlatform.Inventory.Catalogue
import AgentPlatform.Lib.AnyOrder
import AgentPlatform.Texts
import AgentPlatform.Assets.Paths
import AgentPlatform.Assets.Views
import AgentPlatform.Assets.Tree
import AgentPlatform.Assets.Agreement
import AgentPlatform.Oee.Report
import AgentPlatform.Oee.RowOrder
import AgentPlatform.Oee.Andon
import AgentPlatform.Manufacturing.Yield
import AgentPlatform.Manufacturing.Honest
import AgentPlatform.Documents.Normalize
import AgentPlatform.Documents.Spelling
import AgentPlatform.Documents.Posting
import AgentPlatform.Documents.Amounts
import AgentPlatform.Documents.Tool
import AgentPlatform.Documents.BankAccount
import AgentPlatform.Telephony.Queue
import AgentPlatform.Telephony.Calls
import AgentPlatform.Vision.Events
import AgentPlatform.Vision.Persons
import AgentPlatform.App.ClientAddress
import AgentPlatform.WhatsApp.Send
import AgentPlatform.WhatsApp.Signature
import AgentPlatform.WhatsApp.Webhook
import AgentPlatform.Sheets.Columns
import AgentPlatform.Model.Dialects
import AgentPlatform.Shop.Orders
import AgentPlatform.Crm.Paths
import AgentPlatform.Crm.Quote
import AgentPlatform.Crm.Search
import AgentPlatform.Ui.Fenced
import AgentPlatform.Catalog.Loads
import AgentPlatform.Engine.ActiveTasks
import AgentPlatform.Routing.Ceilings
import AgentPlatform.Vault.RoundTrip
import AgentPlatform.Conversation.Echoes
import AgentPlatform.Evals.Scoring
