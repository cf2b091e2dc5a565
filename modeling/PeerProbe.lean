import PeerProbe.Control.Client
import PeerProbe.Eth.Duplex
import PeerProbe.Log.Queue
import PeerProbe.Main
import PeerProbe.Proofs.Eth.Canonical
import PeerProbe.Proofs.Node.Kept
import PeerProbe.Proofs.Watch.Bursts
import PeerProbe.Scenario.Basic
import PeerProbe.Wire.Script
import PeerProbe.Proofs.Feed.Delivery
import PeerProbe.Proofs.Attempt.Acts
import PeerProbe.Proofs.Attempt.Ending
import PeerProbe.Proofs.Node.Stories
import PeerProbe.Proofs.Node.Slots
import PeerProbe.Proofs.Node.Unwinding
import PeerProbe.Proofs.Node.Account
import PeerProbe.Proofs.Node.Lifecycle
import PeerProbe.Proofs.Node.Adding
import PeerProbe.Proofs.Node.Dialling
import PeerProbe.Proofs.Node.HeldReads
import PeerProbe.Proofs.Transport.InProcess
import PeerProbe.Proofs.Node.Power
import PeerProbe.Proofs.Transport.Tcp
import PeerProbe.Proofs.Node.Crashes
import PeerProbe.Proofs.Node.Removals
import PeerProbe.Proofs.Tcp.Generations
import PeerProbe.Proofs.Tcp.Sessions
import PeerProbe.Proofs.Wire.Framing
import PeerProbe.Proofs.Eth.Agreement
import PeerProbe.Proofs.PeerRef.Text
import PeerProbe.Proofs.Node.Observing
import PeerProbe.Proofs.Discovery.Bonding
import PeerProbe.Proofs.Discovery.Replies
import PeerProbe.Proofs.Eth.Verdict
import PeerProbe.Proofs.Wire.Script
import PeerProbe.Proofs.Attempt.Verdict
import PeerProbe.Proofs.Attempt.Commitment
import PeerProbe.Proofs.Node.Cancelling
import PeerProbe.Proofs.Json.Reading
import PeerProbe.Proofs.Text.Utf8
import PeerProbe.Proofs.Control.Lines
import PeerProbe.Proofs.Control.Serving
import PeerProbe.Proofs.Control.Messages
import PeerProbe.Proofs.Control.Session
import PeerProbe.Proofs.Control.Answering
import PeerProbe.Proofs.Log.Chain
import PeerProbe.Proofs.Log.Rotation
import PeerProbe.Proofs.Log.History
import PeerProbe.Proofs.Log.Recovery
import PeerProbe.Proofs.Log.Flushing
import PeerProbe.Proofs.PeerRef.Grammar
import PeerProbe.Proofs.Discovery.Datagrams
import PeerProbe.Proofs.Discovery.Probing
import PeerProbe.Proofs.Control.Refusals
import PeerProbe.Proofs.Wire.Lengths
import PeerProbe.Proofs.Tcp.Setup
import PeerProbe.Proofs.Tcp.Limits
