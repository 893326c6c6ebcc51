import PulseSequencer.Instrument
import PulseSequencer.Board.Log
import PulseSequencer.Capture.Station
import PulseSequencer.Configuration.Reading
import PulseSequencer.Proofs.Program.Format
import PulseSequencer.Proofs.Program.Synthesis
import PulseSequencer.Proofs.Sequencer.Memory
import PulseSequencer.Proofs.Instrument.Attachment
import PulseSequencer.Proofs.Instrument.Mirror
import PulseSequencer.Proofs.Program.Waveform
import PulseSequencer.Proofs.Sequence.Grid
import PulseSequencer.Proofs.Program.Grid
import PulseSequencer.Proofs.Sequence.Requests
import PulseSequencer.Proofs.Program.Order
import PulseSequencer.Proofs.Instrument.Refusal
import PulseSequencer.Proofs.Capture.Run
import PulseSequencer.Proofs.Capture.Release
import PulseSequencer.Proofs.Capture.Delivery
import PulseSequencer.Proofs.Board.Pipes
import PulseSequencer.Proofs.Instrument.Intake
import PulseSequencer.Proofs.Instrument.Upload
import PulseSequencer.Proofs.Instrument.Connecting
import PulseSequencer.Proofs.Link.Lifecycle
import PulseSequencer.Proofs.Instrument.Notices
import PulseSequencer.Proofs.Instrument.FailedSwitch
import PulseSequencer.Proofs.Instrument.Safety
import PulseSequencer.Proofs.Program.Compilable
import PulseSequencer.Proofs.Instrument.Reconfiguration
import PulseSequencer.Proofs.Program.Canonical
import PulseSequencer.Proofs.Instrument.LineHistory
import PulseSequencer.Proofs.Sequence.Length
import PulseSequencer.Proofs.Capture.Sparse
import PulseSequencer.Proofs.Program.Overlong
import PulseSequencer.Proofs.Program.Labels
import PulseSequencer.Proofs.Capture.Sizing
import PulseSequencer.Proofs.Board.Staging
import PulseSequencer.Proofs.Instrument.Questions
import PulseSequencer.Proofs.Instrument.Windows
