import TxDelivery.Binary64
import TxDelivery.Main
import TxDelivery.Proofs.Chain.Signing
import TxDelivery.Proofs.Chain.TransactionText
import TxDelivery.Proofs.Config.RoundTrip
import TxDelivery.Proofs.Config.Validation
import TxDelivery.Proofs.Delivery.Abandoned
import TxDelivery.Proofs.Delivery.Evidence
import TxDelivery.Proofs.Delivery.Failed
import TxDelivery.Proofs.Delivery.Look
import TxDelivery.Proofs.Delivery.Pace
import TxDelivery.Proofs.Delivery.Premium
import TxDelivery.Proofs.Delivery.Ring
import TxDelivery.Proofs.Feed.Reader
import TxDelivery.Proofs.Lock.Deadlock
import TxDelivery.Proofs.Metrics.Balance
import TxDelivery.Proofs.Node.Failover
import TxDelivery.Proofs.Nonce.Allocation
import TxDelivery.Proofs.Nonce.Reuse
import TxDelivery.Proofs.Operation.EndToEnd
import TxDelivery.Proofs.Queue.CaughtUp
import TxDelivery.Proofs.Queue.Closing
import TxDelivery.Proofs.Queue.Dropped
import TxDelivery.Proofs.Queue.Entered
import TxDelivery.Proofs.Queue.Rejected
import TxDelivery.Proofs.Queue.Serialized
import TxDelivery.Rehearsal.Script
