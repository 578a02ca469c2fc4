import PgCat.Lib.Interleaving
import PgCat.Lib.Program
import PgCat.Router.Effect
import PgCat.Router.Selection
import PgCat.Router.Carriers
import PgCat.Router.Pending
import PgCat.Router.Conjunction
import PgCat.Session.Release
import PgCat.Session.Cancel
import PgCat.Session.Cleanup
import PgCat.Session.Handoff
import PgCat.Session.Batch
import PgCat.Session.Shards
import PgCat.Session.Reply
import PgCat.Session.Order
import PgCat.Session.Gauges
import PgCat.Session.Departure
import PgCat.Session.Sticky
import PgCat.Session.Prepared
import PgCat.Session.Checkin
import PgCat.Install.Reload
import PgCat.Auth.Exchange
import PgCat.Auth.Mutual
import PgCat.Auth.Access
import PgCat.Auth.Framing
import PgCat.Auth.Parameters
import PgCat.Auth.Signatures
import PgCat.Checkout.Get
import PgCat.Checkout.Sessions
import PgCat.Checkout.Retest
import PgCat.Install.Pausing
import PgCat.Install.AddressIds
import PgCat.Session.Shutdown
import PgCat.Session.ServerStats
import PgCat.Session.ApplicationName
import PgCat.Session.Footprint
import PgCat.Session.Roles
import PgCat.Session.CopyIn
import PgCat.Session.CommentShards
import PgCat.Session.Replay
import PgCat.Admin.Handle
import PgCat.Checkout.AddressKey
import PgCat.Install.Credentials
import PgCat.Stats.Callers
import PgCat.Mirror.Reads
import PgCat.Mirror.Stream
import PgCat.Metrics.Series
