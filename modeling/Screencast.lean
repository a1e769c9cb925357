import Screencast.Proofs.AcceptedParameters
import Screencast.Proofs.Agreement
import Screencast.Proofs.Attempts
import Screencast.Proofs.BareStream
import Screencast.Proofs.Belongings
import Screencast.Proofs.BuffersReturned
import Screencast.Proofs.CallOrder
import Screencast.Proofs.DescriptionText
import Screencast.Proofs.DisplayFollowed
import Screencast.Proofs.DisplayUse
import Screencast.Proofs.Episodes
import Screencast.Proofs.FormatChanges
import Screencast.Proofs.FrameTrack
import Screencast.Proofs.Indifference
import Screencast.Proofs.Lifecycle
import Screencast.Proofs.Midpoints
import Screencast.Proofs.NumbersReadBack
import Screencast.Proofs.ParameterBounds
import Screencast.Proofs.Pictures
import Screencast.Proofs.Polling
import Screencast.Proofs.Proportions
import Screencast.Proofs.Quantities
import Screencast.Proofs.QuickReading
import Screencast.Proofs.RecordBytes
import Screencast.Proofs.RecordingKept
import Screencast.Proofs.Rounding
import Screencast.Proofs.SecondAttempt
import Screencast.Proofs.SetUpFailures
import Screencast.Proofs.SettingsText
import Screencast.Proofs.ShortestDigits
import Screencast.Proofs.Sidecar
import Screencast.Proofs.StartedEncoder
import Screencast.Proofs.StopSignals
import Screencast.Proofs.Teardown
import Screencast.Proofs.Verdict
import Screencast.Rehearsal.Logged
import Screencast.Rehearsal.Scripted
import Screencast.Settings.Quantity
