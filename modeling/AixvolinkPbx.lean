import AixvolinkPbx.Lib.Prog
import AixvolinkPbx.Lib.Interleave
import AixvolinkPbx.Auth.Digest
import AixvolinkPbx.Auth.Replay
import AixvolinkPbx.Call.Actor
import AixvolinkPbx.Call.History
import AixvolinkPbx.Lib.Text
import AixvolinkPbx.Sdp.Audio
import AixvolinkPbx.B2bua.Session
import AixvolinkPbx.B2bua.Engine
import AixvolinkPbx.B2bua.Answering
import AixvolinkPbx.B2bua.Operations
import AixvolinkPbx.B2bua.Anchored
import AixvolinkPbx.B2bua.Teardown
import AixvolinkPbx.B2bua.Admission
import AixvolinkPbx.Media.Endpoint
import AixvolinkPbx.Media.Forward
import AixvolinkPbx.Media.Anchoring
import AixvolinkPbx.Media.Direction
import AixvolinkPbx.Media.PortConservation
import AixvolinkPbx.Registration.Memory
import AixvolinkPbx.Registration.Mysql
import AixvolinkPbx.Registration.Equivalence
import AixvolinkPbx.Call.Finished
import AixvolinkPbx.Registration.Limit
import AixvolinkPbx.Call.Traced
import AixvolinkPbx.Call.Cdr
import AixvolinkPbx.Call.CdrTimes
import AixvolinkPbx.Call.Clients
import AixvolinkPbx.Call.Reports
import AixvolinkPbx.B2bua.Provisional
import AixvolinkPbx.B2bua.Handlers
import AixvolinkPbx.B2bua.DialogSteps
import AixvolinkPbx.B2bua.Byes
import AixvolinkPbx.B2bua.Stages
import AixvolinkPbx.B2bua.Requests
import AixvolinkPbx.B2bua.Responses
import AixvolinkPbx.B2bua.Gate
import AixvolinkPbx.Media.Accounting
import AixvolinkPbx.Sdp.Relay
import AixvolinkPbx.Media.Configured
import AixvolinkPbx.Call.Rollback
import AixvolinkPbx.Registration.Manager
import AixvolinkPbx.Registrar.Handler
import AixvolinkPbx.Lib.History
import AixvolinkPbx.Registrar.Transactions
import AixvolinkPbx.Registrar.Isolation
import AixvolinkPbx.Registrar.Updates
import AixvolinkPbx.Registrar.Wildcard
import AixvolinkPbx.Registrar.Source
import AixvolinkPbx.B2bua.Negotiated
import AixvolinkPbx.B2bua.ReInvites
import AixvolinkPbx.Media.Pinning
import AixvolinkPbx.Media.Factory
import AixvolinkPbx.Media.Leases
import AixvolinkPbx.Lib.Shares
import AixvolinkPbx.Media.Ledger
import AixvolinkPbx.Media.OpenSessions
import AixvolinkPbx.B2bua.Released
import AixvolinkPbx.Media.LastSequence
import AixvolinkPbx.Media.RoundTrip
import AixvolinkPbx.Media.Inactivity
import AixvolinkPbx.Sdp.Accepted
import AixvolinkPbx.Auth.Capacity
import AixvolinkPbx.Auth.Nonce
import AixvolinkPbx.Registrar.Intervals
import AixvolinkPbx.Lib.Sorting
import AixvolinkPbx.Registrar.Preferred
import AixvolinkPbx.Media.Jitter
import AixvolinkPbx.Media.KeyPresses
import AixvolinkPbx.Media.Saturation
import AixvolinkPbx.Lib.Guard
import AixvolinkPbx.Event.Bus
import AixvolinkPbx.Event.CallRecords
import AixvolinkPbx.B2bua.Offers
import AixvolinkPbx.App.Run
import AixvolinkPbx.Registrar.Authorised
import AixvolinkPbx.Registration.Cleanup
