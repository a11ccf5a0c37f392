import Workflow.Main
import Workflow.Proofs.Graph.Distance
import Workflow.Proofs.Graph.Flow
import Workflow.Proofs.Graph.KeyEdits
import Workflow.Proofs.Graph.LinkIntegrity
import Workflow.Proofs.Graph.Preview
import Workflow.Proofs.Graph.Remembered
import Workflow.Proofs.Graph.SlotPlaces
import Workflow.Proofs.Document.FoundAgain
import Workflow.Proofs.Document.Ledger
import Workflow.Proofs.Document.Replaced
import Workflow.Proofs.Document.Skipped
import Workflow.Proofs.Document.SlotNames
import Workflow.Proofs.Document.TypeNames
import Workflow.Proofs.Registry.Index
import Workflow.Proofs.Session.EditedValues
import Workflow.Proofs.Session.Failure
import Workflow.Proofs.Session.Loaded
import Workflow.Proofs.Session.Monotone
import Workflow.Proofs.Session.Reopened
import Workflow.Proofs.Session.Reread
import Workflow.Proofs.Session.Subscriber
import Workflow.Proofs.Session.Verdict
import Workflow.Proofs.Schema.Agreement
import Workflow.Proofs.Schema.Inherited
import Workflow.Proofs.Schema.Layout
import Workflow.Proofs.Schema.RawTypes
import Workflow.Proofs.Schema.Registered
import Workflow.Proofs.Text.Literals
import Workflow.Proofs.Text.TopLevel
