import ArenaCore.Store.Cancellation
import ArenaCore.Store.Lifetime
import ArenaCore.Store.Secrecy
import ArenaCore.Realtime.Delivery
import ArenaCore.Store.GuardHistory
import ArenaCore.Problems.Judgeable
import ArenaCore.Store.Capacity
import ArenaCore.Store.Idempotency
import ArenaCore.Store.Quota
import ArenaCore.Runner.Faults
import ArenaCore.Runner.Blame
import ArenaCore.Runner.Observations
import ArenaCore.Api.Listings
import ArenaCore.Api.Administrators
import ArenaCore.Api.SingleUse
import ArenaCore.Judge.Comparison
import ArenaCore.Store.Closing
import ArenaCore.Competitions.Ties
import ArenaCore.Api.Threads
import ArenaCore.Api.Sessions
import ArenaCore.Judge.Sanitizing
import ArenaCore.Api.Streaks
import ArenaCore.Competitions.Conflicts
import ArenaCore.Runner.Admission
