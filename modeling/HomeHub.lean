import HomeHub.Connection
import HomeHub.Contact
import HomeHub.Device
import HomeHub.Entity.Attribute
import HomeHub.Entity.Basic
import HomeHub.Entity.State
import HomeHub.Entry.Basic
import HomeHub.Entry.Store
import HomeHub.Error
import HomeHub.Event
import HomeHub.EventBus
import HomeHub.Flow.Basic
import HomeHub.Flow.Form
import HomeHub.Flow.Input
import HomeHub.Flow.Run
import HomeHub.FlowManager.Calls
import HomeHub.FlowManager.Job
import HomeHub.FlowManager.Table
import HomeHub.HomeKit.Accessory
import HomeHub.HomeKit.Bridge
import HomeHub.HomeKit.Characteristic
import HomeHub.HomeKit.Light
import HomeHub.Http.Api
import HomeHub.Http.Request
import HomeHub.Http.Response
import HomeHub.Http.Route
import HomeHub.Hub
import HomeHub.Json.Basic
import HomeHub.Json.Document
import HomeHub.Json.Number
import HomeHub.Json.Printer
import HomeHub.Json.Reader
import HomeHub.Light
import HomeHub.Loading
import HomeHub.MySensors.Config
import HomeHub.MySensors.Discovery
import HomeHub.MySensors.Error
import HomeHub.MySensors.Gateway
import HomeHub.MySensors.Message
import HomeHub.MySensors.Node
import HomeHub.NativeApi.Client
import HomeHub.NativeApi.Failure
import HomeHub.NativeApi.Frame
import HomeHub.NativeApi.Message
import HomeHub.NativeApi.Settings
import HomeHub.NativeApi.Varint
import HomeHub.NativeApi.Wire
import HomeHub.Number.Binary64
import HomeHub.Number.Decimal
import HomeHub.Number.Nearest
import HomeHub.Number.Shortest
import HomeHub.Proofs.Entity.Attribute
import HomeHub.Proofs.Entity.Ids
import HomeHub.Proofs.Entity.Reading
import HomeHub.Proofs.Entity.Reread
import HomeHub.Proofs.Entry.Listing
import HomeHub.Proofs.Entry.Register
import HomeHub.Proofs.Entry.Rows
import HomeHub.Proofs.Entry.Stored
import HomeHub.Proofs.Entry.Updated
import HomeHub.Proofs.Flow.Announced
import HomeHub.Proofs.Flow.Rediscovery
import HomeHub.Proofs.FlowManager.Abort
import HomeHub.Proofs.FlowManager.Addressable
import HomeHub.Proofs.FlowManager.Created
import HomeHub.Proofs.FlowManager.Discovery
import HomeHub.Proofs.FlowManager.Dropped
import HomeHub.Proofs.FlowManager.Failure
import HomeHub.Proofs.FlowManager.Forms
import HomeHub.Proofs.FlowManager.Frame
import HomeHub.Proofs.FlowManager.Host
import HomeHub.Proofs.FlowManager.Marks
import HomeHub.Proofs.FlowManager.OneEntry
import HomeHub.Proofs.FlowManager.Orderly
import HomeHub.Proofs.FlowManager.Persist
import HomeHub.Proofs.FlowManager.Race
import HomeHub.Proofs.FlowManager.Refused
import HomeHub.Proofs.FlowManager.Session
import HomeHub.Proofs.FlowManager.Sound
import HomeHub.Proofs.FlowManager.Step
import HomeHub.Proofs.FlowManager.Trail
import HomeHub.Proofs.FlowManager.Turns
import HomeHub.Proofs.FlowManager.Twin
import HomeHub.Proofs.FlowManager.Wording
import HomeHub.Proofs.HomeKit.Commands
import HomeHub.Proofs.HomeKit.Features
import HomeHub.Proofs.HomeKit.Following
import HomeHub.Proofs.HomeKit.LastCommand
import HomeHub.Proofs.HomeKit.LastValues
import HomeHub.Proofs.HomeKit.Layout
import HomeHub.Proofs.HomeKit.Numbering
import HomeHub.Proofs.HomeKit.Refusal
import HomeHub.Proofs.HomeKit.Restored
import HomeHub.Proofs.HomeKit.Steady
import HomeHub.Proofs.HomeKit.Uses
import HomeHub.Proofs.Http.Errors
import HomeHub.Proofs.Http.Wording
import HomeHub.Proofs.Json.Numeral
import HomeHub.Proofs.Json.Record
import HomeHub.Proofs.Json.RoundTrip
import HomeHub.Proofs.Json.Text
import HomeHub.Proofs.Lists
import HomeHub.Proofs.Loading.Status
import HomeHub.Proofs.Loading.Visits
import HomeHub.Proofs.MySensors.Addressing
import HomeHub.Proofs.MySensors.Discovery
import HomeHub.Proofs.MySensors.EntityIds
import HomeHub.Proofs.MySensors.Frame
import HomeHub.Proofs.MySensors.Lines
import HomeHub.Proofs.MySensors.LinkState
import HomeHub.Proofs.MySensors.MainValues
import HomeHub.Proofs.MySensors.Message
import HomeHub.Proofs.MySensors.Nodes
import HomeHub.Proofs.MySensors.ReadBack
import HomeHub.Proofs.MySensors.Sending
import HomeHub.Proofs.NativeApi.Frame
import HomeHub.Proofs.NativeApi.Message
import HomeHub.Proofs.NativeApi.Varint
import HomeHub.Proofs.NativeApi.Wire
import HomeHub.Proofs.NativeApi.Words
import HomeHub.Proofs.Number.Decimal
import HomeHub.Proofs.Number.Rounding
import HomeHub.Proofs.Results
import HomeHub.Proofs.States.Overlap
import HomeHub.Proofs.States.Telling
import HomeHub.Proofs.States.Writes
import HomeHub.Proofs.Supply
import HomeHub.Proofs.Table
import HomeHub.Proofs.Text.Runs
import HomeHub.Proofs.Text.Slug
import HomeHub.Proofs.Text.Utf8
import HomeHub.Proofs.Timestamp.Calendar
import HomeHub.Proofs.Timestamp.Text
import HomeHub.Proofs.Uuid
import HomeHub.Scenario
import HomeHub.Scenario.Accessories
import HomeHub.Scenario.Failures
import HomeHub.Service
import HomeHub.Settings
import HomeHub.States
import HomeHub.Supply
import HomeHub.Table
import HomeHub.Text.Blank
import HomeHub.Text.Hex
import HomeHub.Text.Percent
import HomeHub.Text.Quoted
import HomeHub.Text.Slug
import HomeHub.Text.Split
import HomeHub.Text.Unprintable
import HomeHub.Text.Utf8
import HomeHub.Timestamp
import HomeHub.Toml
import HomeHub.Uuid
