import Folio.Config.Resolve
import Folio.Log
import Folio.Payload
import Folio.Proofs.Room.Choosing
import Folio.Proofs.Room.Disabling
import Folio.Proofs.Room.Strangers
import Folio.Proofs.Room.Timers
import Folio.Room.Script
import Folio.Signal.Run
import Folio.Watchdog.Run
import Folio.Proofs.Text.Pass
import Folio.Proofs.Text.Wrapping
import Folio.Proofs.Text.Fewest
import Folio.Proofs.Text.Wide
import Folio.Proofs.PageSize
import Folio.Proofs.Text.Shorten
import Folio.Proofs.Fitting
import Folio.Proofs.MenuLimits
import Folio.Proofs.Text.Gap
import Folio.Proofs.Grouping
import Folio.Proofs.Text.Packing
import Folio.Proofs.Run
import Folio.Proofs.Watchdog.Phase
import Folio.Proofs.Watchdog.Safety
import Folio.Proofs.Watchdog.Pinged
import Folio.Proofs.Room.Errand
import Folio.Proofs.Room.Conversation
import Folio.Proofs.Config.Merge
import Folio.Proofs.Accepted
import Folio.Proofs.Rows
import Folio.Proofs.Signal
import Folio.Proofs.Room.Settling
import Folio.Proofs.Config.Issues
