import StaticLog.Backend.Draining
import StaticLog.Backend.Entries
import StaticLog.Backend.HandedLine
import StaticLog.Backend.MergeOrder
import StaticLog.Backend.Poll
import StaticLog.Backend.ProcessLogBuffer
import StaticLog.Backend.Shutdown
import StaticLog.Decoding.Cursor
import StaticLog.Decoding.Integers
import StaticLog.Decoding.Parameters
import StaticLog.Decoding.Retry
import StaticLog.Decoding.RoundTrip
import StaticLog.Decoding.Segments
import StaticLog.Encoding.Exactness
import StaticLog.Format.Parsing
import StaticLog.Foundation.Channel
import StaticLog.Foundation.Merge
import StaticLog.Frontend.CallSite
import StaticLog.Frontend.SharedSizes
import StaticLog.Program.Accounting
import StaticLog.Program.Lifetime
import StaticLog.Program.LogFile
import StaticLog.Program.Ownership
import StaticLog.Program.Threads
import StaticLog.StagingBuffer.Calls
import StaticLog.StagingBuffer.Capacity
import StaticLog.StagingBuffer.Deletion
import StaticLog.StagingBuffer.Lossless
import StaticLog.StagingBuffer.Occupancy
import StaticLog.StagingBuffer.Reservation
import StaticLog.Format.Acceptance
import StaticLog.Program.Files
import StaticLog.Decoding.Rendering
import StaticLog.Program.Sync
import StaticLog.Decoding.LoopHeads
import StaticLog.Decoding.Outcomes
import StaticLog.Decoding.CursorGrowth
import StaticLog.Decoding.Stores
import StaticLog.Backend.Scan
import StaticLog.Backend.TimePrefix
import StaticLog.Encoding.Precision
import StaticLog.Backend.GivingUp
import StaticLog.Decoding.EntryAssertion
import StaticLog.Program.FailedOpen
import StaticLog.Decoding.Cutting
import StaticLog.Decoding.Coverage
import StaticLog.Decoding.Failures
import StaticLog.Backend.PrintedLine
import StaticLog.Program.Completion
import StaticLog.Backend.LineHeader
import StaticLog.Program.LineOrder
import StaticLog.Program.Progress
import StaticLog.Format.Composition
import StaticLog.Foundation.Collector
import StaticLog.Program.Buffers
import StaticLog.Program.Collected
import StaticLog.Program.FileContents
import StaticLog.Program.Levels
import StaticLog.Program.StoppedFile
import StaticLog.Foundation.Fairness
import StaticLog.Program.Fairness
import StaticLog.Program.Service
