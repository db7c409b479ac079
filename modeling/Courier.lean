import Courier.Main
import Courier.Proofs.Exchange.Convergence
import Courier.Proofs.Exchange.Endings
import Courier.Proofs.Event.Format
import Courier.Proofs.Rules.Format
import Courier.Proofs.Config.Canonical
import Courier.Proofs.Config.Reorder
import Courier.Proofs.Config.Secrets
import Courier.Proofs.Store.History
import Courier.Proofs.Config.Unused
import Courier.Proofs.Command.Send
import Courier.Proofs.Command.Password
import Courier.Proofs.Config.Report
import Courier.Proofs.Exchange.Bound
import Courier.Proofs.Rules.Order
import Courier.Proofs.Rules.Ids
import Courier.Proofs.Exchange.Signal
import Courier.Proofs.Exchange.Deadline
import Courier.Proofs.Exchange.ErrorStatus
import Courier.Proofs.Text.Lossy
import Courier.Proofs.Exchange.Excerpt
import Courier.Proofs.Exchange.Endpoint
import Courier.Proofs.Event.Build
import Courier.Proofs.Text.Valid
import Courier.Proofs.Store.Token
import Courier.Proofs.Store.Columns
import Courier.Proofs.Config.Resolve
import Courier.Proofs.Config.Algebra
import Courier.Proofs.Yaml.Embedding
import Courier.Proofs.Config.Layering
import Courier.Proofs.Exchange.Credentials
import Courier.Proofs.Command.Output
import Courier.Proofs.Command.Fields
import Courier.Proofs.Config.Stages
import Courier.Proofs.Json.Printed
import Courier.Proofs.Command.ConfigHash
import Courier.Proofs.Json.Positional
import Courier.Proofs.Rules.Positional
import Courier.Proofs.Json.Places
import Courier.Proofs.Config.Walk
import Courier.Proofs.Config.NormalForm
import Courier.Proofs.Exchange.Reading
