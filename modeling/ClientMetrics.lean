import ClientMetrics.Batch.Basic
import ClientMetrics.Batch.Json
import ClientMetrics.Command.Arguments
import ClientMetrics.Command.Basic
import ClientMetrics.Command.Run
import ClientMetrics.Config.File
import ClientMetrics.Config.Folder
import ClientMetrics.Config.Settings
import ClientMetrics.Config.Yaml
import ClientMetrics.Consent.Bits
import ClientMetrics.Consent.Gate
import ClientMetrics.Consent.Store
import ClientMetrics.Decimal.Range
import ClientMetrics.Decimal.Shortest
import ClientMetrics.Dispatch.Pipeline
import ClientMetrics.Dispatch.Run
import ClientMetrics.Dispatch.Transport
import ClientMetrics.Impression.Basic
import ClientMetrics.Impression.Json
import ClientMetrics.Json.Literal
import ClientMetrics.Json.Message
import ClientMetrics.Json.Number
import ClientMetrics.Json.Problem
import ClientMetrics.Json.Reader
import ClientMetrics.Json.Record
import ClientMetrics.Json.Skip
import ClientMetrics.Log.Causes
import ClientMetrics.Log.Event
import ClientMetrics.Log.Filter
import ClientMetrics.Log.Level
import ClientMetrics.Log.Line
import ClientMetrics.Main
import ClientMetrics.Queue.Basic
import ClientMetrics.Queue.Loss
import ClientMetrics.Simulation
import ClientMetrics.Statsd.Client
import ClientMetrics.Statsd.Host
import ClientMetrics.Statsd.Line
import ClientMetrics.Statsd.Settings
import ClientMetrics.Text.Duration
import ClientMetrics.Text.Hex
import ClientMetrics.Text.Hidden
import ClientMetrics.Text.Moment
import ClientMetrics.Text.Quoted
import ClientMetrics.Text.Word
import ClientMetrics.Yaml.Block
import ClientMetrics.Yaml.Cursor
import ClientMetrics.Yaml.Document
import ClientMetrics.Yaml.Fields
import ClientMetrics.Yaml.Gap
import ClientMetrics.Yaml.Layout
import ClientMetrics.Yaml.Node
import ClientMetrics.Yaml.Plain
import ClientMetrics.Yaml.Property
import ClientMetrics.Yaml.Quoted
import ClientMetrics.Yaml.Scalar
import ClientMetrics.Yaml.Style
import ClientMetrics.Yaml.Token
import ClientMetrics.Yaml.Write
import ClientMetrics.Proofs.Queue.Fifo
import ClientMetrics.Proofs.Dispatch.Frame
import ClientMetrics.Proofs.Dispatch.Trace
import ClientMetrics.Proofs.Dispatch.Shutdown
import ClientMetrics.Proofs.Dispatch.Balance
import ClientMetrics.Proofs.Dispatch.Conservation
import ClientMetrics.Proofs.Dispatch.Surroundings
import ClientMetrics.Proofs.Dispatch.Ticks
import ClientMetrics.Proofs.Dispatch.Refusal
import ClientMetrics.Proofs.Dispatch.Pace
import ClientMetrics.Proofs.Dispatch.Timetable
import ClientMetrics.Proofs.Dispatch.Statistics
import ClientMetrics.Proofs.Simulation.Totals
import ClientMetrics.Proofs.Json.Objects
import ClientMetrics.Proofs.Wire.Record
import ClientMetrics.Proofs.Wire.Batch
import ClientMetrics.Proofs.Config.File
import ClientMetrics.Proofs.Dispatch.Lockstep
import ClientMetrics.Proofs.Dispatch.Delivery
import ClientMetrics.Proofs.Consent.History
import ClientMetrics.Proofs.Impression.Changes
import ClientMetrics.Proofs.Queue.Burst
import ClientMetrics.Proofs.Dispatch.Setback
import ClientMetrics.Proofs.Dispatch.Outage
import ClientMetrics.Proofs.Impression.Members
import ClientMetrics.Proofs.Config.Overrides
import ClientMetrics.Proofs.Command.Compose
import ClientMetrics.Proofs.Simulation.Drain
import ClientMetrics.Proofs.Wire.Clock
import ClientMetrics.Proofs.Text.Word
import ClientMetrics.Proofs.Log.Level
import ClientMetrics.Proofs.Json.Cuts
import ClientMetrics.Proofs.Wire.Cuts
import ClientMetrics.Proofs.Log.Filter
import ClientMetrics.Proofs.Yaml.Entry
import ClientMetrics.Proofs.Config.Overlay
import ClientMetrics.Proofs.Config.Outline
import ClientMetrics.Proofs.Statsd.Scopes
