import ChatClient.Chat.RoomTable
import ChatClient.Chat.State
import ChatClient.CommandLine
import ChatClient.Config
import ChatClient.Connection.Backoff
import ChatClient.Connection.Endpoint
import ChatClient.Connection.Machine
import ChatClient.Failure
import ChatClient.Files.Disk
import ChatClient.Files.Path
import ChatClient.Files.Tree
import ChatClient.Ident
import ChatClient.Json.Number
import ChatClient.Json.Problem
import ChatClient.Json.Quoted
import ChatClient.Json.Record
import ChatClient.Json.Skip
import ChatClient.Json.Write
import ChatClient.Log.Directive
import ChatClient.Lookup
import ChatClient.Message
import ChatClient.Message.Stored
import ChatClient.Queue.Outbox
import ChatClient.Session.Client
import ChatClient.Session.Network
import ChatClient.Session.Run
import ChatClient.Session.Simulation
import ChatClient.Socket.Bridge
import ChatClient.Socket.Connector
import ChatClient.Socket.Uri
import ChatClient.Terminal.Command
import ChatClient.Terminal.Display
import ChatClient.Terminal.Screen
import ChatClient.Terminal.Console
import ChatClient.Terminal.Stage
import ChatClient.Text.Blank
import ChatClient.Text.Digit
import ChatClient.Time.Calendar
import ChatClient.Time.Rfc3339
import ChatClient.Time.Timestamp
import ChatClient.Typing.Debouncer
import ChatClient.Wire.Frame
import ChatClient.Wire.Inbound
import ChatClient.Wire.Outbound
import ChatClient.Main
import ChatClient.Proofs.Session.Standing
import ChatClient.Proofs.Session.Course
import ChatClient.Proofs.Session.Conduct
import ChatClient.Proofs.Session.Growth
import ChatClient.Proofs.Session.Talk
import ChatClient.Proofs.Session.Delivery
import ChatClient.Proofs.Session.Listening
import ChatClient.Proofs.Session.Lifetime
import ChatClient.Proofs.Session.Rehearsal
import ChatClient.Proofs.Session.Pace
import ChatClient.Proofs.Session.Schedule
import ChatClient.Proofs.Session.Exchange
import ChatClient.Proofs.Session.Custody
import ChatClient.Proofs.Session.Overtaking
import ChatClient.Proofs.Session.Handover
import ChatClient.Proofs.Session.Untouched
import ChatClient.Proofs.Session.Commutation
import ChatClient.Proofs.Session.Hold
import ChatClient.Proofs.Json.RoundTrip
import ChatClient.Proofs.Message.StoredForm
import ChatClient.Proofs.Files.Places
import ChatClient.Proofs.Files.WellFormed
import ChatClient.Proofs.Files.Rewriting
import ChatClient.Proofs.Queue.Durability
import ChatClient.Proofs.Files.Interruption
import ChatClient.Proofs.Queue.Survival
import ChatClient.Proofs.Session.Reloading
import ChatClient.Proofs.Chat.Deeds
import ChatClient.Proofs.Chat.Log
import ChatClient.Proofs.Chat.Typing
import ChatClient.Proofs.Json.Grammar
import ChatClient.Proofs.Json.Skipping
import ChatClient.Proofs.Json.Reading
import ChatClient.Proofs.Wire.Codec
import ChatClient.Proofs.Chat.Discretion
import ChatClient.Proofs.Terminal.Moves
import ChatClient.Proofs.Terminal.Rehearsal
import ChatClient.Proofs.Session.Addressing
import ChatClient.Proofs.Terminal.Rooms
import ChatClient.Proofs.Terminal.Signals
import ChatClient.Proofs.Wire.Meaning
import ChatClient.Proofs.Terminal.Conveyance
import ChatClient.Proofs.Wire.Demands
import ChatClient.Proofs.Chat.Announcements
import ChatClient.Proofs.Chat.Repetition
import ChatClient.Proofs.Chat.Recognition
import ChatClient.Proofs.Connection.Doubling
import ChatClient.Proofs.Connection.Calls
import ChatClient.Proofs.Chat.Attachments
import ChatClient.Proofs.Typing.Timeline
import ChatClient.Proofs.Json.Soundness
import ChatClient.Proofs.Json.Exactness
import ChatClient.Proofs.Json.Parts
import ChatClient.Proofs.Message.Presentation
import ChatClient.Proofs.Queue.Opening
import ChatClient.Proofs.Terminal.RetryNumbers
import ChatClient.Proofs.Terminal.Confirmation
import ChatClient.Proofs.Session.Publication
import ChatClient.Proofs.Text.Trimming
import ChatClient.Proofs.Terminal.CommandLines
import ChatClient.Proofs.Text.Digits
import ChatClient.Proofs.Time.Days
import ChatClient.Proofs.Time.Spelling
import ChatClient.Proofs.Time.Instants
import ChatClient.Proofs.Socket.Workers
import ChatClient.Proofs.Socket.Reader
import ChatClient.Proofs.Socket.Writer
import ChatClient.Proofs.Socket.Relay
import ChatClient.Proofs.Socket.Attachment
