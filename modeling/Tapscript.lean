import Tapscript.Catalogue
import Tapscript.Family.Equations
import Tapscript.Machine.Command
import Tapscript.Verdict
import Tapscript.Proofs.Accounting
import Tapscript.Proofs.Isolation
import Tapscript.Proofs.Handlers
import Tapscript.Proofs.Steps
import Tapscript.Proofs.Start
import Tapscript.Proofs.Overflow
import Tapscript.Proofs.Plain
import Tapscript.Proofs.Refinement
import Tapscript.Proofs.Conservation
import Tapscript.Proofs.Atomicity
import Tapscript.Proofs.LooserLimits
import Tapscript.Proofs.Parametricity
import Tapscript.Proofs.Reachability
import Tapscript.Proofs.Agreement
import Tapscript.Proofs.Composition
import Tapscript.Proofs.ItemSize
import Tapscript.Proofs.Stops
import Tapscript.Proofs.Budget
import Tapscript.Proofs.Transfers
import Tapscript.Proofs.Folding
import Tapscript.Proofs.DepthCheck
import Tapscript.Proofs.Truth
import Tapscript.Proofs.Batches
import Tapscript.Proofs.Room
import Tapscript.Proofs.Admissible
import Tapscript.Proofs.AmpleMemory
import Tapscript.Proofs.Joining
import Tapscript.Proofs.Clearing
import Tapscript.Proofs.PrintedForms
import Tapscript.Proofs.Verdicts
import Tapscript.Store
import Tapscript.Proofs.Lineage
import Tapscript.Proofs.Mirroring
