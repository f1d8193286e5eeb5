import NamedQuery.Main
import NamedQuery.Proofs.Session.Delivery
import NamedQuery.Proofs.Session.Dispatch
import NamedQuery.Proofs.Session.Release
import NamedQuery.Value.Workbench
import NamedQuery.Proofs.Wire.Acceptance
import NamedQuery.Proofs.Wire.Unambiguous
import NamedQuery.Proofs.Session.Agreement
import NamedQuery.Proofs.Wire.Layout
import NamedQuery.Proofs.Session.Frame
import NamedQuery.Proofs.Session.Iteration
import NamedQuery.Proofs.CommandLine.Limit
import NamedQuery.Proofs.Client.Answer
import NamedQuery.Proofs.Format.Amount
import NamedQuery.Proofs.Wire.Inverse
import NamedQuery.Proofs.Client.Query
import NamedQuery.Proofs.Format.Hex
import NamedQuery.Proofs.Session.Deposits
import NamedQuery.Proofs.CommandLine.Params
import NamedQuery.Proofs.CommandLine.Transmission
import NamedQuery.Proofs.Value.Number
import NamedQuery.Proofs.Format.HexGrammar
import NamedQuery.Proofs.Wire.Record
import NamedQuery.Proofs.Wire.RecordReading
import NamedQuery.Proofs.Wire.Rearrangement
import NamedQuery.Proofs.Wire.RecordSoundness
import NamedQuery.Proofs.Wire.Size
import NamedQuery.Proofs.Client.Canonical
import NamedQuery.Proofs.Text.Blank
import NamedQuery.Proofs.Format.NumeralGrammar
import NamedQuery.Proofs.Headers
import NamedQuery.Proofs.Value.Unambiguous
import NamedQuery.Proofs.CommandLine.Literal
import NamedQuery.Proofs.CommandLine.Occurrence
import NamedQuery.Proofs.CommandLine.Interleaving
import NamedQuery.Proofs.Service.Routing
import NamedQuery.Proofs.Format.HexFault
import NamedQuery.Proofs.Value.Json
