import Interposition.Main
import Interposition.Document.Symbol
import Interposition.Image.Assembly
import Interposition.Proofs.Image.Demand
import Interposition.Proofs.Image.Extension
import Interposition.Proofs.Image.Faults
import Interposition.Proofs.Image.FlowPass
import Interposition.Proofs.Image.Distinctness
import Interposition.Proofs.Image.RoundTrip
import Interposition.Proofs.Image.Meaning
import Interposition.Proofs.Linking.Fitting
import Interposition.Proofs.Linking.Footprint
import Interposition.Proofs.Linking.Repetition
import Interposition.Proofs.Linking.Writability
import Interposition.Proofs.Machine.Addressing
import Interposition.Proofs.Machine.Budget
import Interposition.Proofs.Machine.Conservation
import Interposition.Proofs.Machine.Convention
import Interposition.Proofs.Sandbox.Console
import Interposition.Proofs.Sandbox.Installation
import Interposition.Proofs.Sandbox.Backtrace
import Interposition.Proofs.Sandbox.Caching
import Interposition.Proofs.Sandbox.Transparency
import Interposition.Proofs.Launch.Report
import Interposition.Proofs.Launch.Status
