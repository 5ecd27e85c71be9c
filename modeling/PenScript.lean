import PenScript.Studio.Desk
import PenScript.Studio.Painting
import PenScript.Studio.View
import PenScript.Proofs.Actions
import PenScript.Proofs.Law
import PenScript.Proofs.Progress
import PenScript.Proofs.Pairing
import PenScript.Proofs.Headroom
import PenScript.Proofs.Inlining
import PenScript.Proofs.Trees
import PenScript.Proofs.Inheritance
import PenScript.Proofs.Reachable
import PenScript.Proofs.Nesting
import PenScript.Proofs.Outlay
import PenScript.Proofs.Prediction
import PenScript.Proofs.LargerLimits
import PenScript.Proofs.Scanner
import PenScript.Proofs.FlatMachine
import PenScript.Proofs.SingleFlag
import PenScript.Proofs.RelocatedRuns
import PenScript.Proofs.LineEntry
import PenScript.Proofs.Gate
import PenScript.Proofs.LaterLines
import PenScript.Proofs.OpenEnd
import PenScript.Proofs.TreeShape
import PenScript.Proofs.LineOrder
import PenScript.Proofs.HeldLines
import PenScript.Proofs.ClosingLine
import PenScript.Proofs.ClosingWords
import PenScript.Proofs.SafeReading
import PenScript.Proofs.Endings
import PenScript.Proofs.Deeds
import PenScript.Proofs.StoreGrowth
import PenScript.Proofs.StoppedCalls
import PenScript.Proofs.FaultLines
import PenScript.Proofs.StudioHistory
import PenScript.Proofs.DrawingLog
import PenScript.Proofs.Enclosure
import PenScript.Proofs.WrittenOut
import PenScript.Proofs.ControlState
import PenScript.Proofs.Substitution
import PenScript.Proofs.DrawingCommands
import PenScript.Proofs.EarClipping
import PenScript.Proofs.Area
import PenScript.Proofs.ConvexOutline
import PenScript.Proofs.Layout
import PenScript.Proofs.StoreHistories
import PenScript.Proofs.Values
import PenScript.Proofs.Turns
