import Ddi.Lib.Marks
import Ddi.Lib.Arrivals
import Ddi.Lib.Assoc
import Ddi.Lib.Avro
import Ddi.Lib.Double
import Ddi.Lib.Binary
import Ddi.Lib.Bins
import Ddi.Lib.JsonText
import Ddi.Lib.Latest
import Ddi.Lib.NumberText
import Ddi.Lib.Objects
import Ddi.Lib.Ordered
import Ddi.Lib.Paired
import Ddi.Lib.Registers
import Ddi.Lib.Repeats
import Ddi.Lib.RowCode
import Ddi.Lib.Segments
import Ddi.Lib.Succession
import Ddi.Lib.WalkBack
import Ddi.Lib.Walks
import Ddi.Source.Cursor
import Ddi.Delta.Log
import Ddi.Error
import Ddi.Source.LogStream
import Ddi.Source.NextBatch
import Ddi.Source.Identity
import Ddi.Source.CallSemantics
import Ddi.Source.Completeness
import Ddi.Source.Emitted
import Ddi.Source.Refusal
import Ddi.Dedup
import Ddi.Stats
import Ddi.Rescan
import Ddi.Pipeline.Config
import Ddi.Offset
import Ddi.Cutoff
import Ddi.Target
import Ddi.Pipeline.Open
import Ddi.Pipeline.Step
import Ddi.Pipeline.StepSemantics
import Ddi.Pipeline.Delivery
import Ddi.Pipeline.SourceRows
import Ddi.Pipeline.Lineage
import Ddi.Pipeline.OpenSemantics
import Ddi.Pipeline.Record
import Ddi.Pipeline.World
import Ddi.Pipeline.Coverage
import Ddi.Pipeline.CoverageSteps
import Ddi.RescanBound
import Ddi.RescanCoverage
import Ddi.Pipeline.RescanSemantics
import Ddi.Pipeline.CoverageOpen
import Ddi.Pipeline.ExactlyOnce
import Ddi.Pipeline.Handover
import Ddi.Lookup.Snapshots
import Ddi.Pipeline.Lookups
import Ddi.Lookup.Moments
import Ddi.Lookup.Pinning
import Ddi.Lookup.PinningSemantics
import Ddi.Lookup.Reproducible
import Ddi.Pipeline.LookupsExact
import Ddi.Pipeline.Rebuild
import Ddi.DataQuality
import Ddi.Pipeline.Rejects
import Ddi.Pipeline.RejectSteps
import Ddi.Pipeline.RejectsKept
import Ddi.Pipeline.RejectRuns
import Ddi.TargetHistory
import Ddi.Pipeline.WindowHead
import Ddi.Compact
import Ddi.Config.Uri
import Ddi.Config.Names
import Ddi.Config.Entries
import Ddi.Config.Resolve
import Ddi.Config.Standing
import Ddi.Config.Apart
import Ddi.Config.Separation
import Ddi.Kafka.Partitions
import Ddi.Kafka.Fence
import Ddi.DataQuality.WriteKafka
import Ddi.DataQuality.WriteKafkaRuns
import Ddi.DataQuality.WriteKafkaExact
import Ddi.Grain.Check
import Ddi.Grain.Exact
import Ddi.Kafka.FenceSemantics
import Ddi.Kafka.FenceRuns
import Ddi.Kafka.Start
import Ddi.Kafka.Member
import Ddi.Kafka.Group
import Ddi.Kafka.MemberSemantics
import Ddi.Kafka.Topic
import Ddi.Kafka.Accounting
import Ddi.Kafka.AccountingResets
import Ddi.Kafka.AccountingMessages
import Ddi.Kafka.AccountingEvents
import Ddi.Kafka.AccountingCommits
import Ddi.Kafka.AccountingSteps
import Ddi.Kafka.Handle
import Ddi.Kafka.AccountingRuns
import Ddi.Kafka.ArrowTypes
import Ddi.Kafka.BufferRuns
import Ddi.Kafka.KdiText
import Ddi.Kafka.Conform
import Ddi.Kafka.ConformArms
import Ddi.Kafka.ConformPaths
import Ddi.Kafka.ConformMeaning
import Ddi.Kafka.ConformExact
import Ddi.Kafka.UnionSchema
import Ddi.Kafka.ConformKept
import Ddi.Kafka.ConformNotNull
import Ddi.Kafka.ConformRows
import Ddi.Kafka.ConformTarget
import Ddi.Kafka.ConformRegroup
import Ddi.Kafka.WriterSchema
import Ddi.Kafka.Decode
import Ddi.Kafka.DecodeSemantics
import Ddi.Kafka.DecodeRuns
import Ddi.Kafka.Takeover
import Ddi.Kafka.Open
import Ddi.Kafka.Lookup
import Ddi.Kafka.LookupLog
import Ddi.Kafka.LookupMarks
import Ddi.Kafka.LookupBelow
import Ddi.Kafka.LookupListing
import Ddi.Kafka.LookupDown
import Ddi.Kafka.LookupCheckpoint
import Ddi.Kafka.LookupTruth
import Ddi.Kafka.LookupRead
import Ddi.Kafka.OpenStarts
import Ddi.Kafka.Reread
import Ddi.Kafka.RereadRuns
import Ddi.Kafka.SetOffsets
import Ddi.Kafka.Wire
import Ddi.Kafka.WireExact
import Ddi.Kafka.WireTypes
import Ddi.Kafka.WireSchema
import Ddi.Merge.Bounds
import Ddi.Merge.Window
import Ddi.Upsert
import Ddi.Merge.Completeness
import Ddi.Publish.Envelope
import Ddi.Publish.Broadcast
import Ddi.Publish.Chain
import Ddi.UpsertSemantics
import Ddi.Regrouping
import Ddi.RescanPartitions
import Ddi.Schema.Columns
import Ddi.Schema.Fractions
import Ddi.Schema.Coerce
import Ddi.Schema.Writes
import Ddi.Schema.FractionSearch
import Ddi.Schema.Agreement
import Ddi.Schema.CoerceExact
import Ddi.Schema.QuarantineExact
import Ddi.Schema.AgreementExact
import Ddi.Storage.WithoutCheckpoints
import Ddi.Storage.Replayed
import Ddi.TargetScan
import Ddi.TargetScanSemantics
import Ddi.TargetScanExact
import Ddi.Transform.Jsonval
import Ddi.Transform.BigDecimal
import Ddi.Transform.Sql
import Ddi.Transform.Bisection
import Ddi.Transform.JavaDouble
import Ddi.Transform.JavaHashMap
import Ddi.Transform.JavaHashMapExact
import Ddi.Transform.JsonBuild
import Ddi.Transform.JsonObjects
import Ddi.Transform.JsonInvoke
import Ddi.Transform.JsonMeaning
import Ddi.Transform.JsonGrammar
import Ddi.Transform.JsonRead
import Ddi.Transform.JsonWrite
import Ddi.Transform.JsonStored
import Ddi.Transform.JsonFormatted
import Ddi.Transform.JsonUnambiguous
import Ddi.Transform.JsonSpelled
import Ddi.Transform.JsonShown
import Ddi.Transform.JsonBuilt
import Ddi.Transform.JsonMeant
