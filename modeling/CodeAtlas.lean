import CodeAtlas.Proofs.Assistance
import CodeAtlas.Proofs.Containment
import CodeAtlas.Proofs.Fetching
import CodeAtlas.Proofs.Origins
import CodeAtlas.Startup
import CodeAtlas.Watcher
import CodeAtlas.Proofs.RoundTrip
import CodeAtlas.Proofs.Modifiers
import CodeAtlas.Proofs.ByteOrderMark
import CodeAtlas.Proofs.ImportOrder
import CodeAtlas.Proofs.Parameters
import CodeAtlas.Proofs.Disclosure
import CodeAtlas.Proofs.Controllers
import CodeAtlas.Proofs.Arguments
import CodeAtlas.Proofs.Constraints
import CodeAtlas.Proofs.ImportLines
import CodeAtlas.Proofs.Receivers
import CodeAtlas.Proofs.ImportSpecs
import CodeAtlas.Proofs.StructTexts
import CodeAtlas.Proofs.ExportLines
import CodeAtlas.Proofs.ArrowFunctions
import CodeAtlas.Proofs.Methods
import CodeAtlas.Proofs.Prototypes
import CodeAtlas.Proofs.Unwrapping
import CodeAtlas.Proofs.DrawnLines
import CodeAtlas.Proofs.GraphSearch
import CodeAtlas.Proofs.ImportedRows
import CodeAtlas.Proofs.JoinedPaths
