import ModelOperator.Attachment.Payload
import ModelOperator.Attachment.Source
import ModelOperator.Bytes.Base64
import ModelOperator.Bytes.Crc32
import ModelOperator.Bytes.Number
import ModelOperator.Bytes.Utf8
import ModelOperator.Bytes.Xxh64
import ModelOperator.Cluster.Access
import ModelOperator.Cluster.Address
import ModelOperator.Cluster.Error
import ModelOperator.Cluster.Event
import ModelOperator.Cluster.Exchange
import ModelOperator.Cluster.Quantity
import ModelOperator.Cluster.Recorder
import ModelOperator.Cluster.Reply
import ModelOperator.Cluster.Request
import ModelOperator.Cluster.Shape
import ModelOperator.Cluster.Shapes.Container
import ModelOperator.Cluster.Shapes.Coordination
import ModelOperator.Cluster.Shapes.Data
import ModelOperator.Cluster.Shapes.Definition
import ModelOperator.Cluster.Shapes.Meta
import ModelOperator.Cluster.Shapes.Pod
import ModelOperator.Cluster.Shapes.Service
import ModelOperator.Cluster.Shapes.Volume
import ModelOperator.Cluster.Shapes.Workload
import ModelOperator.CommandLine.Arguments
import ModelOperator.CommandLine.Help
import ModelOperator.CommandLine.Outcome
import ModelOperator.CommandLine.Setting
import ModelOperator.Compression.Bits
import ModelOperator.Compression.Deflate
import ModelOperator.Compression.Gzip
import ModelOperator.Compression.PrefixCode
import ModelOperator.Compression.StateTable
import ModelOperator.Compression.Window
import ModelOperator.Compression.Zstd.Frame
import ModelOperator.Compression.Zstd.Literals
import ModelOperator.Compression.Zstd.Sequences
import ModelOperator.Controller.Manifests
import ModelOperator.Controller.ModelPass
import ModelOperator.Controller.Pass
import ModelOperator.Controller.PromptPass
import ModelOperator.Controller.Rendering
import ModelOperator.Controller.Report
import ModelOperator.Controller.Rollout
import ModelOperator.Duration
import ModelOperator.Health
import ModelOperator.Inference.Client
import ModelOperator.Inference.Wire
import ModelOperator.Json.Edit
import ModelOperator.Json.Extent
import ModelOperator.Json.MergePatch
import ModelOperator.Json.Mismatch
import ModelOperator.Json.Parser
import ModelOperator.Json.Pointer
import ModelOperator.Json.Printer
import ModelOperator.Json.Raw
import ModelOperator.Json.Record
import ModelOperator.Json.Value
import ModelOperator.Leadership.Campaign
import ModelOperator.Leadership.Candidate
import ModelOperator.Leadership.Lease
import ModelOperator.Leadership.Tenure
import ModelOperator.Main
import ModelOperator.Number.Binary64
import ModelOperator.Number.Decimal
import ModelOperator.Patch.Apply
import ModelOperator.Patch.Body
import ModelOperator.Patch.Error
import ModelOperator.Patch.Merge
import ModelOperator.Patch.Operations
import ModelOperator.Patch.Strategic
import ModelOperator.Patch.Target
import ModelOperator.Resource.Answer
import ModelOperator.Resource.Condition
import ModelOperator.Resource.ConditionSet
import ModelOperator.Resource.Conditioned
import ModelOperator.Resource.Conversation
import ModelOperator.Resource.Definition
import ModelOperator.Resource.Image
import ModelOperator.Resource.Manifest
import ModelOperator.Resource.Metadata
import ModelOperator.Resource.Model
import ModelOperator.Resource.Naming
import ModelOperator.Resource.Prompt
import ModelOperator.Resource.Schema
import ModelOperator.Text.Blank
import ModelOperator.Text.Quoted
import ModelOperator.Text.Unprintable
import ModelOperator.Time.Instant
import ModelOperator.Yaml.Cursor
import ModelOperator.Yaml.Expected
import ModelOperator.Yaml.Node
import ModelOperator.Yaml.Plain
import ModelOperator.Yaml.Printer
import ModelOperator.Yaml.Scalar
import ModelOperator.Yaml.Token
import ModelOperator.Proofs.Controller.Pass
import ModelOperator.Proofs.Controller.PromptPass
import ModelOperator.Proofs.Controller.PromptRun
import ModelOperator.Proofs.Controller.ModelPass
import ModelOperator.Proofs.Controller.ModelRun
import ModelOperator.Proofs.Json.Members
import ModelOperator.Proofs.Number.Digits
import ModelOperator.Proofs.Time.Calendar
import ModelOperator.Proofs.Time.InstantText
import ModelOperator.Proofs.Json.Record
import ModelOperator.Proofs.Json.Extent
import ModelOperator.Proofs.Cluster.Shape
import ModelOperator.Proofs.Controller.StatusWrite
import ModelOperator.Proofs.Cluster.Exchange
import ModelOperator.Proofs.Leadership.Lease
import ModelOperator.Proofs.Leadership.LeaseStore
import ModelOperator.Proofs.Leadership.Election
import ModelOperator.Proofs.Leadership.Release
import ModelOperator.Proofs.Resource.Readiness
import ModelOperator.Proofs.Controller.ModelExit
import ModelOperator.Proofs.Cluster.NormalForm
import ModelOperator.Proofs.Cluster.Amounts
import ModelOperator.Proofs.Patch.Pipeline
import ModelOperator.Proofs.Text.Quoted
import ModelOperator.Proofs.Controller.Question
import ModelOperator.Proofs.Controller.PromptExit
import ModelOperator.Proofs.Controller.WakeUp
import ModelOperator.Proofs.Controller.SelfReport
import ModelOperator.Proofs.Controller.Announcement
import ModelOperator.Proofs.Controller.StatusHistory
import ModelOperator.Proofs.Controller.SteadyStatus
import ModelOperator.Proofs.Controller.Conflict
import ModelOperator.Proofs.Controller.Convergence
import ModelOperator.Proofs.Controller.FailedPass
import ModelOperator.Proofs.Inference.BodyWire
import ModelOperator.Proofs.Json.Written
import ModelOperator.Proofs.Resource.StableWire
import ModelOperator.Proofs.Bytes.Base64
import ModelOperator.Proofs.Json.Numbers
import ModelOperator.Proofs.Resource.Conversation
import ModelOperator.Proofs.Text.Blank
import ModelOperator.Proofs.Controller.Answering
import ModelOperator.Proofs.Controller.ConflictChain
import ModelOperator.Proofs.Json.Outline
import ModelOperator.Proofs.Patch.MergeCheck
import ModelOperator.Proofs.Patch.MergeItem
import ModelOperator.Proofs.Patch.KeyedList
import ModelOperator.Proofs.Patch.MergePlace
import ModelOperator.Proofs.Patch.Deletion
import ModelOperator.Proofs.Patch.Storing
import ModelOperator.Proofs.Patch.Frame
import ModelOperator.Proofs.Patch.Refusal
import ModelOperator.Proofs.Patch.Idempotence
import ModelOperator.Proofs.Json.Pointer
import ModelOperator.Proofs.Json.Addition
import ModelOperator.Proofs.Patch.Operation
import ModelOperator.Proofs.Patch.Addition
import ModelOperator.Proofs.Json.Edits
import ModelOperator.Proofs.Patch.Creation
import ModelOperator.Proofs.Patch.PlainEdits
import ModelOperator.Proofs.Inference.PullStream
import ModelOperator.Proofs.Resource.Succession
import ModelOperator.Proofs.Resource.Agreement
import ModelOperator.Proofs.Cluster.Order
import ModelOperator.Proofs.Cluster.Parts
import ModelOperator.Proofs.Patch.MergeTwice
import ModelOperator.Proofs.Controller.Rollout
import ModelOperator.Proofs.Time.DurationText
import ModelOperator.Proofs.Leadership.StepDown
import ModelOperator.Proofs.Controller.Conversation
import ModelOperator.Proofs.Json.PointerText
import ModelOperator.Proofs.Attachment.PlainImage
import ModelOperator.Proofs.Cluster.AmountPlaces
import ModelOperator.Proofs.Compression.Locality
import ModelOperator.Proofs.Compression.Fields
import ModelOperator.Proofs.Compression.Deflate
import ModelOperator.Proofs.Compression.Gzip
import ModelOperator.Proofs.Compression.Zstd
import ModelOperator.Proofs.Attachment.CompressedImage
import ModelOperator.Proofs.Compression.Deflate
