import Meno.Notes.PushApplied
import Meno.Notes.PushRetry
import Meno.Notes.Interleaving
import Meno.Notes.Incarnations
import Meno.Broadcast.Participation
import Meno.Broadcast.Statements
import Meno.Lib.Schedule
import Meno.Broadcast.Live
import Meno.Broadcast.Limits
import Meno.Broadcast.PublishRights
import Meno.Broadcast.FailedCalls
import Meno.Lib.Faults
import Meno.Lib.Timeline
import Meno.Broadcast.Connections
import Meno.Broadcast.Ending
import Meno.Broadcast.Grace
import Meno.Broadcast.Abandoned
import Meno.Broadcast.Writes
import Meno.Lib.Deferred
import Meno.Broadcast.LiveCount
import Meno.Broadcast.LiveRows
import Meno.Broadcast.LiveCountKept
import Meno.Lib.Serial
import Meno.Broadcast.Lifecycle
import Meno.Broadcast.Serializable
import Meno.Broadcast.Control
import Meno.Broadcast.Totals
import Meno.Subscribers.Repository
import Meno.Subscribers.Counters
import Meno.Auth.Model
import Meno.Auth.Repository
import Meno.Auth.Cache
import Meno.Auth.Token
import Meno.Auth.Middleware
import Meno.Auth.Services
import Meno.Auth.Entrances
import Meno.Auth.Statements
import Meno.Auth.Google
import Meno.Auth.Stability
import Meno.Auth.Takeover
import Meno.Idempotency.Middleware
import Meno.Idempotency.Once
import Meno.Chat.Dto
import Meno.Chat.Repository
import Meno.Chat.Service
import Meno.Chat.Sender
import Meno.Lib.Rely
import Meno.Auth.Interleaving
import Meno.Auth.SingleUse
import Meno.Auth.Rotation
import Meno.Auth.Blocklist
import Meno.Idempotency.Replay
import Meno.Lib.Keyset
import Meno.Lib.Select
import Meno.Lib.Text
import Meno.Shared.Pagination
import Meno.Shared.Repository
import Meno.Notes.Listing
import Meno.Chat.Listing
import Meno.Subscribers.Listing
import Meno.Lib.Base64
import Meno.Notifications.Listing
import Meno.Shared.UuidText
import Meno.Feeds
import Meno.Broadcast.Listing
import Meno.Broadcast.ListWalk
import Meno.Broadcast.ParticipantWalk
import Meno.Broadcast.CacheKeys
import Meno.Broadcast.CachedLists
import Meno.Broadcast.ListInvalidation
import Meno.Notes.PushCollision
import Meno.Shared.CircuitBreaker
import Meno.Lib.CacheAside
import Meno.Profile.Dto
import Meno.Profile.Service
import Meno.Profile.Cached
import Meno.Profile.Histories
import Meno.Notifications.UnreadCount
import Meno.Lib.Pool
import Meno.Profile.Avatars
import Meno.Broadcast.Detail
import Meno.Broadcast.DetailKept
import Meno.Ws.Hub
import Meno.Ws.RoomDelivery
import Meno.Ws.UserDelivery
import Meno.Notes.Edits
import Meno.Notes.PushConflicts
import Meno.Notes.SyncPull
import Meno.Shared.CursorShapes
import Meno.Broadcast.Statement
import Meno.Broadcast.LiveParticipants
import Meno.Shared.Coalescing
import Meno.Shared.CoalescedCache
import Meno.Chat.CachedPages
import Meno.Chat.Invalidation
import Meno.Chat.FreshPages
import Meno.Notes.Replica
import Meno.Chat.OwnRoom
import Meno.Broadcast.Effects
import Meno.Broadcast.CohostRemoval
import Meno.Broadcast.GoingLive
import Meno.Ws.Registry
import Meno.Ws.OfflineBuffer
import Meno.Ws.Backpressure
import Meno.Ws.ReadLoop
import Meno.Auth.LoggedOut
import Meno.Auth.OneTime
import Meno.Auth.Commands
import Meno.Auth.Guesses
import Meno.Auth.LoginThrottle
import Meno.Auth.Permanence
import Meno.Auth.Kinds
import Meno.Auth.Registration
import Meno.Auth.Passwords
import Meno.Lib.Grammar
import Meno.Auth.Validators
import Meno.Shared.RateLimit
import Meno.Lib.Substitute
import Meno.Notifications.Templates
import Meno.Notifications.Sending
import Meno.Notifications.BulkInsert
import Meno.Notifications.TemplateCache
import Meno.Subscribers.FollowNotifications
import Meno.Shared.Push
import Meno.Lib.Batches
import Meno.Notes.Purge
import Meno.Auth.Cleanup
import Meno.Jobs
import Meno.RedisKeys
import Meno.Profile.Search
import Meno.Profile.FailedUpdate
import Meno.Profile.Visibility
import Meno.Broadcast.FlexibleTime
import Meno.Lib.Escape
import Meno.Lib.Markup
import Meno.Auth.Emails
import Meno.Push.Tasks
import Meno.Lib.Buffered
import Meno.Push.Multicast
import Meno.Lib.Tenants
import Meno.Notes.Tenants
import Meno.Lib.RowHistory
import Meno.Chat.Histories
import Meno.Lib.Pages
import Meno.ChangingFeeds
import Meno.Lib.Provenance
import Meno.Auth.Evidence
import Meno.Auth.Vouching
import Meno.Broadcast.Backing
import Meno.Broadcast.Authority
import Meno.Settings.Service
import Meno.Settings.Changes
import Meno.Settings.Registrations
import Meno.Notifications.Apart
import Meno.Notifications.Histories
