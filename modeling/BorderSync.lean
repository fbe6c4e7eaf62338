import BorderSync.Main
import BorderSync.Proofs.Border.Address
import BorderSync.Proofs.Border.Contexts
import BorderSync.Proofs.Border.Exact
import BorderSync.Proofs.Border.Mended
import BorderSync.Proofs.Border.Written
import BorderSync.Proofs.Crew.LastOut
import BorderSync.Proofs.Delivery.Delivered
import BorderSync.Proofs.Delivery.FanOutTurns
import BorderSync.Proofs.Plan.Ports
import BorderSync.Proofs.Plan.Withdrawal
import BorderSync.Proofs.Queue.Drained
import BorderSync.Proofs.Queue.HandOut
import BorderSync.Proofs.Queue.InOrder
import BorderSync.Proofs.Queue.LaneTurns
import BorderSync.Proofs.Queue.Limiter
import BorderSync.Proofs.Queue.Turns
import BorderSync.Proofs.Relay.Alike
import BorderSync.Proofs.Relay.Lasting
import BorderSync.Proofs.Relay.TaskTurn
import BorderSync.Proofs.Relay.Traffic
import BorderSync.Proofs.Settings.AsGiven
import BorderSync.Proofs.Settings.Hosts
import BorderSync.Proofs.Station.Attempt
import BorderSync.Proofs.Tls.Items
import BorderSync.Proofs.Watch.Noted
import BorderSync.Proofs.Watch.Relist
import BorderSync.Proofs.Watch.Remembered
import BorderSync.Queue.Session
import BorderSync.Settings.Files
import BorderSync.Watch.Session
