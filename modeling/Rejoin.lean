import Rejoin.CleanBreak
import Rejoin.Log.Logger
import Rejoin.Repair.Fences
import Rejoin.Repair.Json
import Rejoin.Settings.File
import Rejoin.Stitch
import Rejoin.Turn.Run
import Rejoin.Proofs.Json.Agreement
import Rejoin.Proofs.Json.Document
import Rejoin.Proofs.Json.Leading
import Rejoin.Proofs.Repair.Search
import Rejoin.Proofs.Repair.Closure
import Rejoin.Proofs.Json.Grammar
import Rejoin.Proofs.Json.Reading
import Rejoin.Proofs.Repair.Kept
import Rejoin.Proofs.Repair.Lossy
import Rejoin.Proofs.Structure.Closing
import Rejoin.Proofs.Turn.Step
import Rejoin.Proofs.Turn.Stopping
import Rejoin.Proofs.Turn.Ending
import Rejoin.Proofs.Turn.CapFault
import Rejoin.Proofs.Json.Extent
import Rejoin.Proofs.Diagnosis.Unbalanced
import Rejoin.Proofs.Json.Fences
import Rejoin.Proofs.Turn.Recovery
import Rejoin.Proofs.Stitch.Pieces
import Rejoin.Proofs.Turn.Text
import Rejoin.Proofs.Timeline.Race
import Rejoin.Proofs.Turn.Signal
import Rejoin.Proofs.Turn.Cancellation
import Rejoin.Proofs.Repair.Fences
import Rejoin.Proofs.Turn.Final
import Rejoin.Proofs.Turn.Forward
import Rejoin.Proofs.Turn.Unused
import Rejoin.Proofs.Timeline.Parties
import Rejoin.Proofs.Timeline.First
import Rejoin.Proofs.Timeline.Settling
import Rejoin.Proofs.Session.Activity
import Rejoin.Proofs.Session.Alone
import Rejoin.Proofs.Session.Together
import Rejoin.Proofs.Session.Loop
import Rejoin.Proofs.Diagnosis.Cascade
import Rejoin.Proofs.Diagnosis.TrailingBlanks
import Rejoin.Proofs.Json.Token
import Rejoin.Proofs.Stitch.Document
import Rejoin.Proofs.Json.Scalar
import Rejoin.Proofs.Turn.Pace
import Rejoin.Proofs.Turn.Advice
import Rejoin.Proofs.Text.CleanBreak
import Rejoin.Proofs.Settings.Failure
import Rejoin.Proofs.Structure.Stray
import Rejoin.Proofs.Entries
import Rejoin.Proofs.Policy.Override
import Rejoin.Proofs.Settings.Reading
import Rejoin.Proofs.Settings.Layers
import Rejoin.DotEnv
import Rejoin.Settings.Environment
import Rejoin.Settings.Standard
import Rejoin.Proofs.Settings.Documented
