import VisualNovel.Scenario.Source
import VisualNovel.Main
import VisualNovel.Proofs.Listing
import VisualNovel.Proofs.Playback.Departure
import VisualNovel.Proofs.Store.Flags
import VisualNovel.Proofs.Console.Chain
import VisualNovel.Proofs.Console.Session
import VisualNovel.Proofs.Playback.Stall
import VisualNovel.Proofs.Playback.StepGuard
import VisualNovel.Proofs.Playback.Telling
import VisualNovel.Proofs.Playback.Ending
import VisualNovel.Proofs.Playback.Parked
import VisualNovel.Proofs.Console.Redraw
import VisualNovel.Proofs.Json.Wanted
import VisualNovel.Proofs.Store.Reread
import VisualNovel.Proofs.Console.Reread
import VisualNovel.Proofs.Console.Saving
import VisualNovel.Proofs.Decimal
import VisualNovel.Proofs.Playback.Position
import VisualNovel.Proofs.Playback.Reload
import VisualNovel.Proofs.Scenario.Course
import VisualNovel.Proofs.Console.Touching
import VisualNovel.Proofs.Template.Rescan
import VisualNovel.Proofs.Store.Report
import VisualNovel.Proofs.Console.Lines
import VisualNovel.Proofs.Playback.Mirror
import VisualNovel.Proofs.Console.Conversation
import VisualNovel.Proofs.Console.Turns
import VisualNovel.Proofs.Random.Rejection
import VisualNovel.Proofs.Playback.Acceptance
import VisualNovel.Proofs.Playback.GuardAtEnd
import VisualNovel.Proofs.Playback.Frame
import VisualNovel.Proofs.Random.Fairness
import VisualNovel.Proofs.Script.Decoding
import VisualNovel.Proofs.Playback.Encoded
import VisualNovel.Proofs.Playback.Strict
import VisualNovel.Proofs.Playback.Faults
import VisualNovel.Proofs.Console.Choices
import VisualNovel.Proofs.Scenario.Expectations
import VisualNovel.Proofs.Scenario.Discovery
