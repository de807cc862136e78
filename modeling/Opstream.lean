import Opstream.Table.Standard
import Opstream.Disassembly.Log
import Opstream.Draft
import Opstream.Main
import Opstream.Proofs.Authoring
import Opstream.Proofs.Reassembly
import Opstream.Proofs.Patching
import Opstream.Proofs.Defining
import Opstream.Proofs.Extension
import Opstream.Proofs.Ordering
import Opstream.Proofs.Restyling
import Opstream.Proofs.Grammar
import Opstream.Proofs.Reading
import Opstream.Proofs.Meaning
import Opstream.Proofs.Joining
import Opstream.Proofs.FaultLines
import Opstream.Proofs.Shifting
import Opstream.Proofs.Cutting
import Opstream.Proofs.Numerals
import Opstream.Proofs.Packing
import Opstream.Proofs.Overwriting
import Opstream.Proofs.Refusals
import Opstream.Proofs.Views
import Opstream.Proofs.Running
import Opstream.Proofs.Logging
