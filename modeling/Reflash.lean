import Reflash.Directory
import Reflash.Main
import Reflash.Proofs.Assessment
import Reflash.Proofs.Plan
import Reflash.Proofs.Plan.Resumption
import Reflash.Proofs.Agenda
import Reflash.Proofs.Agenda.Roster
import Reflash.Proofs.Agenda.Calls
import Reflash.Proofs.Plan.TrialBoot
import Reflash.Proofs.Plan.CoreByCore
import Reflash.Proofs.Plan.Uploads
import Reflash.Proofs.Plan.Accounting
import Reflash.Proofs.Plan.Interleaving
import Reflash.Proofs.Plan.Marks
import Reflash.Proofs.Plan.Modes
import Reflash.Proofs.Plan.FinalReset
import Reflash.Proofs.Plan.UpToDate
import Reflash.Proofs.Image.Layout
import Reflash.Proofs.Image.Bounds
import Reflash.Proofs.Image.Reading
import Reflash.Proofs.Base64
import Reflash.Proofs.Base64.Spelling
import Reflash.Proofs.Crc16
import Reflash.Proofs.Crc16.Guarded
import Reflash.Proofs.Serial.Frame
import Reflash.Proofs.Serial.Link
import Reflash.Proofs.Serial.Damage
import Reflash.Proofs.Smp.Header
import Reflash.Proofs.Smp.Request
import Reflash.Proofs.Smp.Acceptance
import Reflash.Proofs.Value
import Reflash.Proofs.Recording
import Reflash.Proofs.Validation
import Reflash.Proofs.Serial.Completeness
import Reflash.Proofs.Serial.Wrapping
import Reflash.Proofs.Bundle
import Reflash.Proofs.Discovery
import Reflash.Proofs.Outcome
import Reflash.Proofs.Serial.Reception
import Reflash.Proofs.Image.Envelope
import Reflash.Proofs.Slot
import Reflash.Proofs.Smp.Listing
import Reflash.Proofs.Plan.Clearing
import Reflash.Proofs.Image.Truncation
import Reflash.Proofs.Console.NothingToDo
import Reflash.Proofs.Console.Loading
import Reflash.Proofs.Plan.DeviceSteps
import Reflash.Proofs.Validation.Handover
import Reflash.Proofs.Validation.Reuse
import Reflash.Proofs.Console.Record
import Reflash.Proofs.Console.StepOrder
import Reflash.Proofs.Console.RecordedPlan
import Reflash.Proofs.Smp.RoundTrip
import Reflash.Proofs.Text.Numeral
import Reflash.Proofs.Argument
import Reflash.Proofs.Console.Destinations
import Reflash.Proofs.Serial.Room
import Reflash.Proofs.Crc16.Remainder
