import CustomerSegments.Audience
import CustomerSegments.Cli.Arguments
import CustomerSegments.Cli.Start
import CustomerSegments.Config.Load
import CustomerSegments.Config.Settings
import CustomerSegments.Config.Source
import CustomerSegments.Config.Value
import CustomerSegments.Customer
import CustomerSegments.Decimal.Digits
import CustomerSegments.Decimal.Double
import CustomerSegments.Decimal.Rounding
import CustomerSegments.Decimal.Shortest
import CustomerSegments.Decimal.Text
import CustomerSegments.Effect
import CustomerSegments.Error
import CustomerSegments.Http.MediaType
import CustomerSegments.Http.Message
import CustomerSegments.Http.Respond
import CustomerSegments.Http.Target
import CustomerSegments.Id.Basic
import CustomerSegments.Id.Set
import CustomerSegments.Json.Basic
import CustomerSegments.Json.Decoder
import CustomerSegments.Json.Number
import CustomerSegments.Json.Reading
import CustomerSegments.Json.Text
import CustomerSegments.Json.Token
import CustomerSegments.Main
import CustomerSegments.Membership
import CustomerSegments.Net.Address
import CustomerSegments.Predicate.Basic
import CustomerSegments.Predicate.Filter
import CustomerSegments.Predicate.Matching
import CustomerSegments.Program
import CustomerSegments.Proofs.AgeCutoffs
import CustomerSegments.Proofs.Attributes
import CustomerSegments.Proofs.AudienceBalance
import CustomerSegments.Proofs.AudienceConservation
import CustomerSegments.Proofs.AudienceCounts
import CustomerSegments.Proofs.AudienceTasks
import CustomerSegments.Proofs.BulkImports
import CustomerSegments.Proofs.CalendarDays
import CustomerSegments.Proofs.Calls
import CustomerSegments.Proofs.Clauses
import CustomerSegments.Proofs.CommandEffects
import CustomerSegments.Proofs.CommandFootprint
import CustomerSegments.Proofs.CompiledShape
import CustomerSegments.Proofs.ConcurrentRequests
import CustomerSegments.Proofs.ConcurrentWrites
import CustomerSegments.Proofs.Conduct
import CustomerSegments.Proofs.Confinement
import CustomerSegments.Proofs.ContestedSwaps
import CustomerSegments.Proofs.CustomerAges
import CustomerSegments.Proofs.CustomerDeletions
import CustomerSegments.Proofs.CustomerOperations
import CustomerSegments.Proofs.CustomerUpdates
import CustomerSegments.Proofs.DecimalText
import CustomerSegments.Proofs.DeletedSizes
import CustomerSegments.Proofs.DeltaBatches
import CustomerSegments.Proofs.DoubleOrder
import CustomerSegments.Proofs.DoubleValues
import CustomerSegments.Proofs.DroppedRules
import CustomerSegments.Proofs.EqualValues
import CustomerSegments.Proofs.FailingMethods
import CustomerSegments.Proofs.FieldPaths
import CustomerSegments.Proofs.FilterMeaning
import CustomerSegments.Proofs.Footprint
import CustomerSegments.Proofs.Hosts
import CustomerSegments.Proofs.IdText
import CustomerSegments.Proofs.InMemory
import CustomerSegments.Proofs.IntegerRules
import CustomerSegments.Proofs.JsonDecoding
import CustomerSegments.Proofs.JsonMembers
import CustomerSegments.Proofs.JsonPrefixes
import CustomerSegments.Proofs.JsonReading
import CustomerSegments.Proofs.JsonRecords
import CustomerSegments.Proofs.JsonTokens
import CustomerSegments.Proofs.KeyPrefixes
import CustomerSegments.Proofs.Keys
import CustomerSegments.Proofs.Listings
import CustomerSegments.Proofs.LiveMemberships
import CustomerSegments.Proofs.MembershipChains
import CustomerSegments.Proofs.MemoryCalls
import CustomerSegments.Proofs.NameIndex
import CustomerSegments.Proofs.NamesUnderRefusals
import CustomerSegments.Proofs.NearestDoubles
import CustomerSegments.Proofs.NumberText
import CustomerSegments.Proofs.OrderedTimes
import CustomerSegments.Proofs.OverlappingEdits
import CustomerSegments.Proofs.PagedLoading
import CustomerSegments.Proofs.PartialUpdates
import CustomerSegments.Proofs.PatchedRecords
import CustomerSegments.Proofs.PatternText
import CustomerSegments.Proofs.PrefixIsolation
import CustomerSegments.Proofs.QuotedIntegers
import CustomerSegments.Proofs.ReachedStates
import CustomerSegments.Proofs.RecordLoading
import CustomerSegments.Proofs.RecordText
import CustomerSegments.Proofs.RedisCustomers
import CustomerSegments.Proofs.RedisSegments
import CustomerSegments.Proofs.RedisStripping
import CustomerSegments.Proofs.RefusedCommands
import CustomerSegments.Proofs.RefusedReads
import CustomerSegments.Proofs.RefusedWrites
import CustomerSegments.Proofs.Rejections
import CustomerSegments.Proofs.RepresentedRuns
import CustomerSegments.Proofs.Represents
import CustomerSegments.Proofs.RereadRecords
import CustomerSegments.Proofs.RetriedRequests
import CustomerSegments.Proofs.RuleConditions
import CustomerSegments.Proofs.RuleMeaning
import CustomerSegments.Proofs.RuleOrder
import CustomerSegments.Proofs.RuleTests
import CustomerSegments.Proofs.SegmentDeletion
import CustomerSegments.Proofs.SegmentFiles
import CustomerSegments.Proofs.SegmentListing
import CustomerSegments.Proofs.SegmentNames
import CustomerSegments.Proofs.SegmentOperations
import CustomerSegments.Proofs.SegmentUpdates
import CustomerSegments.Proofs.SegmentWrites
import CustomerSegments.Proofs.ServerAnswers
import CustomerSegments.Proofs.ServerRuns
import CustomerSegments.Proofs.SharedCounters
import CustomerSegments.Proofs.ShownStates
import CustomerSegments.Proofs.SlotCommands
import CustomerSegments.Proofs.Slots
import CustomerSegments.Proofs.StoreAgreement
import CustomerSegments.Proofs.StoreRuns
import CustomerSegments.Proofs.StoredRecords
import CustomerSegments.Proofs.StrictTimes
import CustomerSegments.Proofs.StringOrder
import CustomerSegments.Proofs.Tables
import CustomerSegments.Proofs.TextEquality
import CustomerSegments.Proofs.TextSearch
import CustomerSegments.Proofs.TimeText
import CustomerSegments.Proofs.TouchedKeys
import CustomerSegments.Proofs.Turns
import CustomerSegments.Proofs.FaultlessRuns
import CustomerSegments.Proofs.UnseenMemberships
import CustomerSegments.Redis.Command
import CustomerSegments.Redis.Connect
import CustomerSegments.Redis.Layout
import CustomerSegments.Redis.Server
import CustomerSegments.Redis.Store
import CustomerSegments.Redis.Traffic
import CustomerSegments.Request
import CustomerSegments.Rule.Basic
import CustomerSegments.Rule.Compile
import CustomerSegments.Rule.Operator
import CustomerSegments.Segment
import CustomerSegments.Service.Customers
import CustomerSegments.Service.Run
import CustomerSegments.Service.Segments
import CustomerSegments.Store.Call
import CustomerSegments.Store.Memory
import CustomerSegments.Store.Table
import CustomerSegments.Text.Blank
import CustomerSegments.Text.CaseTable
import CustomerSegments.Text.Lower
import CustomerSegments.Time.Calendar
import CustomerSegments.Time.Instant
import CustomerSegments.Time.Text
