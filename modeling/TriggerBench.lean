import TriggerBench.Session.Checking
import TriggerBench.Session.Measuring
import TriggerBench.Session.Printing
import TriggerBench.Session.Registers
import TriggerBench.Session.Replying
import TriggerBench.Session.Rigging
import TriggerBench.Session.Serial
import TriggerBench.Session.Staging
import TriggerBench.Session.TriggerUse
import TriggerBench.Proofs.Ring
import TriggerBench.Proofs.Units
import TriggerBench.Proofs.PlainStream
import TriggerBench.Proofs.Receiving
import TriggerBench.Proofs.AnswerPackets
import TriggerBench.Proofs.Sending
import TriggerBench.Proofs.Polls
import TriggerBench.Proofs.BlockChains
import TriggerBench.Proofs.StuffedFraming
import TriggerBench.Proofs.HexSpelling
import TriggerBench.Proofs.Registrations
import TriggerBench.Proofs.TextBodies
import TriggerBench.Proofs.TextGrammar
import TriggerBench.Proofs.Answering
import TriggerBench.Proofs.StreamRefinement
import TriggerBench.Proofs.TransmitFaults
import TriggerBench.Proofs.BrokenPackets
import TriggerBench.Proofs.ErrorDetection
import TriggerBench.Proofs.WireForms
import TriggerBench.Proofs.Resynchronisation
import TriggerBench.Proofs.StagingCapacity
import TriggerBench.Proofs.Dispatching
import TriggerBench.Proofs.VersionCommand
import TriggerBench.Proofs.ResponseStreams
import TriggerBench.Proofs.Conversations
import TriggerBench.Proofs.Footprints
import TriggerBench.Proofs.TriggerRegister
import TriggerBench.Proofs.MeasuredWindows
import TriggerBench.Proofs.TruthfulStatuses
import TriggerBench.Proofs.BoundedQueue
import TriggerBench.Proofs.QuietRuns
import TriggerBench.Proofs.MeasurementRuns
import TriggerBench.Proofs.RunCommand
import TriggerBench.Proofs.SerialDriver
import TriggerBench.Proofs.LosslessServing
import TriggerBench.Proofs.LosslessRuns
import TriggerBench.Proofs.RingOverflow
import TriggerBench.Proofs.UnitBoundaries
import TriggerBench.Proofs.BulkStaging
import TriggerBench.Proofs.CommandMaps
import TriggerBench.Proofs.Headway
import TriggerBench.Proofs.GaplessLines
import TriggerBench.Proofs.RelayedPackets
import TriggerBench.Proofs.CheckRemainders
import TriggerBench.Proofs.TriggerPulses
import TriggerBench.Proofs.PrintedText
