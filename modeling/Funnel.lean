import Funnel.Main
import Funnel.Proofs.Rewriting
import Funnel.Proofs.Tables
import Funnel.Proofs.Unresolved
import Funnel.Proofs.Steps
import Funnel.Proofs.RoundTrip
import Funnel.Proofs.LeftChains
import Funnel.Proofs.Scoping
import Funnel.Proofs.Keeping
import Funnel.Proofs.Building
import Funnel.Proofs.Independence
import Funnel.Proofs.TableNames
import Funnel.Proofs.Capture
import Funnel.Proofs.Clashes
import Funnel.Proofs.Dependence
import Funnel.Proofs.Qualifying
import Funnel.Proofs.Asking
import Funnel.Proofs.Columns
import Funnel.Proofs.Splicing
import Funnel.Proofs.Unambiguous
import Funnel.Proofs.Lookups
import Funnel.Proofs.Refusals
import Funnel.Proofs.Fallbacks
import Funnel.Proofs.Buckets
import Funnel.Proofs.DateRanges
import Funnel.Proofs.Formats
import Funnel.Proofs.Trackers
import Funnel.Proofs.ColumnTexts
import Funnel.Proofs.Literals
