import ReadThrough.Proofs.Cache.Ahead
import ReadThrough.Proofs.Cache.Answers
import ReadThrough.Proofs.Cache.Beginnings
import ReadThrough.Proofs.Cache.Books
import ReadThrough.Proofs.Cache.Conservation
import ReadThrough.Proofs.Cache.Course
import ReadThrough.Proofs.Cache.Deeds
import ReadThrough.Proofs.Cache.Events
import ReadThrough.Proofs.Cache.Failures
import ReadThrough.Proofs.Cache.Genuine
import ReadThrough.Proofs.Cache.Gets
import ReadThrough.Proofs.Cache.Identity
import ReadThrough.Proofs.Cache.Leases
import ReadThrough.Proofs.Cache.Ledger
import ReadThrough.Proofs.Cache.Operations
import ReadThrough.Proofs.Cache.Queries
import ReadThrough.Proofs.Cache.Quiet
import ReadThrough.Proofs.Cache.Renewals
import ReadThrough.Proofs.Cache.Repeats
import ReadThrough.Proofs.Cache.Scheduling
import ReadThrough.Proofs.Cache.Staleness
import ReadThrough.Proofs.Cache.Succession
import ReadThrough.Proofs.Cache.UnderWay
import ReadThrough.Proofs.Cache.Vacant
import ReadThrough.Proofs.Cache.Wakeups
import ReadThrough.Proofs.Flights
import ReadThrough.Proofs.Hub.Events
import ReadThrough.Proofs.Hub.FanOut
import ReadThrough.Proofs.Hub.Hearing
import ReadThrough.Proofs.Hub.Heeding
import ReadThrough.Proofs.Hub.Liveness
import ReadThrough.Proofs.Hub.Owners
import ReadThrough.Proofs.Hub.Publications
import ReadThrough.Proofs.Hub.Purging
import ReadThrough.Proofs.Hub.Registries
import ReadThrough.Proofs.Layouts
import ReadThrough.Proofs.Lease.Ownership
import ReadThrough.Proofs.Lease.Tokens
import ReadThrough.Proofs.Store.Accesses
import ReadThrough.Proofs.Store.Agreement
import ReadThrough.Proofs.Store.Alike
import ReadThrough.Proofs.Store.Bounded
import ReadThrough.Proofs.Store.Changes
import ReadThrough.Proofs.Store.Contents
import ReadThrough.Proofs.Store.Endings
import ReadThrough.Proofs.Store.Evictions
import ReadThrough.Proofs.Store.Failures
import ReadThrough.Proofs.Store.FlightCounts
import ReadThrough.Proofs.Store.Frame
import ReadThrough.Proofs.Store.Histories
import ReadThrough.Proofs.Store.Homes
import ReadThrough.Proofs.Store.Landings
import ReadThrough.Proofs.Store.Lockstep
import ReadThrough.Proofs.Store.Pass
import ReadThrough.Proofs.Store.Provenance
import ReadThrough.Proofs.Store.Replacing
import ReadThrough.Proofs.Store.Room
import ReadThrough.Proofs.Store.SessionRuns
import ReadThrough.Proofs.Store.Sharding
import ReadThrough.Proofs.Store.Sharing
import ReadThrough.Proofs.Store.SingleFlight
import ReadThrough.Proofs.Store.Tidy
import ReadThrough.Proofs.Store.Waiting
import ReadThrough.Proofs.Window
import ReadThrough.Proofs.Window.Exact
import ReadThrough.Scenario.CacheScript
import ReadThrough.Scenario.FlightScript
import ReadThrough.Scenario.LeaseScript
import ReadThrough.Scenario.StoreScript
