import NoteTape.Block.Basic
import NoteTape.Block.Run
import NoteTape.Brackets.Balance
import NoteTape.Brackets.Basic
import NoteTape.Command.Basic
import NoteTape.Command.Play
import NoteTape.CommandLine.Request
import NoteTape.CommandLine.Usage
import NoteTape.Console
import NoteTape.Device.Basic
import NoteTape.Device.Error
import NoteTape.Device.Feed
import NoteTape.Device.Outlet
import NoteTape.Device.Pieces
import NoteTape.Device.Reads
import NoteTape.Device.Store
import NoteTape.Device.Supply
import NoteTape.Document.Directive
import NoteTape.Document.Gap
import NoteTape.Document.Layout
import NoteTape.Document.Mark
import NoteTape.Document.Passage
import NoteTape.Document.Plain
import NoteTape.Document.Property
import NoteTape.Document.Quoted
import NoteTape.Document.Reader
import NoteTape.Document.Text
import NoteTape.Document.Token
import NoteTape.Document.Tokens
import NoteTape.Document.Value
import NoteTape.Fault
import NoteTape.Instruction
import NoteTape.Machine.Advance
import NoteTape.Machine.Basic
import NoteTape.Machine.Run
import NoteTape.Machine.Session
import NoteTape.Machine.Walk
import NoteTape.Main
import NoteTape.Note
import NoteTape.Performance
import NoteTape.Program
import NoteTape.Proofs.Block.Flatten
import NoteTape.Proofs.Block.Layout
import NoteTape.Proofs.Block.Refinement
import NoteTape.Proofs.Block.Simulation
import NoteTape.Proofs.Brackets.Behind
import NoteTape.Proofs.Brackets.InFront
import NoteTape.Proofs.Brackets.Missing
import NoteTape.Proofs.Brackets.Nesting
import NoteTape.Proofs.Brackets.Pairing
import NoteTape.Proofs.Brackets.Partners
import NoteTape.Proofs.Brackets.Scan
import NoteTape.Proofs.Brackets.Surplus
import NoteTape.Proofs.Brackets.Verdict
import NoteTape.Proofs.Command.Agreement
import NoteTape.Proofs.Command.Emit
import NoteTape.Proofs.Command.Limit
import NoteTape.Proofs.Command.Lockstep
import NoteTape.Proofs.Command.Waiting
import NoteTape.Proofs.Console.Log
import NoteTape.Proofs.Console.Views
import NoteTape.Proofs.Device.Bytes
import NoteTape.Proofs.Device.Holding
import NoteTape.Proofs.Device.Lines
import NoteTape.Proofs.Device.Outlet
import NoteTape.Proofs.Device.Prompt
import NoteTape.Proofs.Device.Store
import NoteTape.Proofs.Document.Entries
import NoteTape.Proofs.Document.Idle
import NoteTape.Proofs.Document.Mapping
import NoteTape.Proofs.Document.Spelling
import NoteTape.Proofs.Document.Turns
import NoteTape.Proofs.Machine.Alike
import NoteTape.Proofs.Machine.AllOrNothing
import NoteTape.Proofs.Machine.Displaced
import NoteTape.Proofs.Machine.Ending
import NoteTape.Proofs.Machine.Faults
import NoteTape.Proofs.Machine.FullSink
import NoteTape.Proofs.Machine.Interchange
import NoteTape.Proofs.Machine.Resume
import NoteTape.Proofs.Machine.Session
import NoteTape.Proofs.Machine.Stale
import NoteTape.Proofs.Machine.Step
import NoteTape.Proofs.Machine.StraightLine
import NoteTape.Proofs.Machine.Unvisited
import NoteTape.Proofs.Performance.Stages
import NoteTape.Proofs.Program.Text
import NoteTape.Proofs.Settings.AllOrNothing
import NoteTape.Proofs.Settings.Fields
import NoteTape.Proofs.Settings.Values
import NoteTape.Proofs.Tape.Rotation
import NoteTape.Proofs.Text.Bytes
import NoteTape.Proofs.Text.Digits
import NoteTape.Proofs.TrackFile.Beginning
import NoteTape.Proofs.TrackFile.Chunk
import NoteTape.Proofs.TrackFile.CutOff
import NoteTape.Proofs.TrackFile.File
import NoteTape.Proofs.TrackFile.Isolation
import NoteTape.Proofs.TrackFile.Message
import NoteTape.Proofs.Transcription.Change
import NoteTape.Proofs.Transcription.Hearing
import NoteTape.Proofs.Transcription.Interval
import NoteTape.Proofs.Transcription.Root
import NoteTape.Proofs.Transcription.Spelling
import NoteTape.Proofs.Transcription.Streaming
import NoteTape.Scale
import NoteTape.Settings.Basic
import NoteTape.Settings.Load
import NoteTape.Tape.Basic
import NoteTape.Tape.Rotation
import NoteTape.Tape.StraightLine
import NoteTape.Text.Blank
import NoteTape.Text.Digits
import NoteTape.Text.Range
import NoteTape.Text.Terminal
import NoteTape.TrackFile.Basic
import NoteTape.TrackFile.Chunk
import NoteTape.TrackFile.Message
import NoteTape.TrackFile.Number
import NoteTape.TrackFile.Writer
import NoteTape.Transcription.Basic
import NoteTape.Transcription.OnePass
import NoteTape.Transcription.Spelling
