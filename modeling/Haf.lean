import Haf.Properties.Handover
import Haf.Properties.Plans
import Haf.Properties.Agreement
import Haf.Properties.Durability
import Haf.Persist.FileStore
import Haf.Properties.Shutdown
import Haf.Properties.Digest
import Haf.Properties.Legibility
import Haf.Properties.Explanations
import Haf.Properties.Record
import Haf.Properties.Bookkeeping
import Haf.Properties.Trail
import Haf.Properties.Report
import Haf.Properties.Rereading
import Haf.Properties.RoundTrips
import Haf.Properties.Rendering
import Haf.Properties.Spelling
import Haf.Properties.Precedence
import Haf.Properties.CanonicalMaps
import Haf.Federation.Ranking
import Haf.Properties.Serving
import Haf.Properties.Lifecycle
