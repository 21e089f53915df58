import Sprocket.Main
import Sprocket.Proofs.Concatenation
import Sprocket.Proofs.Sessions
import Sprocket.Proofs.Validation
import Sprocket.Sql.Call
import Sprocket.Proofs.Failures
import Sprocket.Proofs.Generation
import Sprocket.Proofs.Delivery
import Sprocket.Proofs.Layout
import Sprocket.Proofs.Lossless
import Sprocket.Proofs.Rendering
import Sprocket.Proofs.Arguments
import Sprocket.Proofs.Calls
import Sprocket.Proofs.Braces
import Sprocket.Proofs.Literals
import Sprocket.Proofs.Spellings
import Sprocket.Proofs.Members
import Sprocket.Proofs.Agreement
import Sprocket.Proofs.Forecast
import Sprocket.Proofs.Redaction
import Sprocket.Proofs.Trees
import Sprocket.Proofs.Survival
import Sprocket.Proofs.Labels
import Sprocket.Proofs.Variables
import Sprocket.Proofs.Writing
import Sprocket.Proofs.Quoting
import Sprocket.Proofs.Trials
import Sprocket.Proofs.Sending
import Sprocket.Proofs.Announcements
import Sprocket.Proofs.Prefixes
import Sprocket.Proofs.Sites
import Sprocket.Proofs.Recasing
