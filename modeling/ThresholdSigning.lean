import ThresholdSigning.Event.Document
import ThresholdSigning.Key.Generator
import ThresholdSigning.KeyGeneration
import ThresholdSigning.Proofs.Agreement
import ThresholdSigning.Proofs.Answering
import ThresholdSigning.Proofs.Attendance
import ThresholdSigning.Proofs.Closing
import ThresholdSigning.Proofs.Connection
import ThresholdSigning.Proofs.Delivery
import ThresholdSigning.Proofs.Der
import ThresholdSigning.Proofs.Document
import ThresholdSigning.Proofs.Entry
import ThresholdSigning.Proofs.Environment
import ThresholdSigning.Proofs.Examination
import ThresholdSigning.Proofs.Handshake
import ThresholdSigning.Proofs.Horizon
import ThresholdSigning.Proofs.Independence
import ThresholdSigning.Proofs.Numbers
import ThresholdSigning.Proofs.Points
import ThresholdSigning.Proofs.Quiescence
import ThresholdSigning.Proofs.Race
import ThresholdSigning.Proofs.Reception
import ThresholdSigning.Proofs.Refusal
import ThresholdSigning.Proofs.Residue
import ThresholdSigning.Proofs.Schedule
import ThresholdSigning.Proofs.Secrecy
import ThresholdSigning.Proofs.Sending
import ThresholdSigning.Proofs.Separation
import ThresholdSigning.Proofs.Storage
import ThresholdSigning.Proofs.Tenancy
import ThresholdSigning.Proofs.Truncation
import ThresholdSigning.Proofs.Verification
import ThresholdSigning.Rehearsal
import ThresholdSigning.Rehearsal.Joining
import ThresholdSigning.Settings.Document
import ThresholdSigning.Settings.Environment
