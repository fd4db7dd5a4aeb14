import QueryFilter.Editor.Action
import QueryFilter.Main
import QueryFilter.Proofs.Sheet.Event
import QueryFilter.Proofs.Sheet.Lineage
import QueryFilter.Proofs.Sheet.Delivery
import QueryFilter.Proofs.Sheet.Order
import QueryFilter.Proofs.Sheet.Body
import QueryFilter.Proofs.Sheet.Quotation
import QueryFilter.Proofs.Text.Literals
import QueryFilter.Proofs.Formula.Grammar
import QueryFilter.Proofs.Formula.Rules
import QueryFilter.Proofs.Formula.Unambiguity
import QueryFilter.Proofs.Formula.Layout
import QueryFilter.Proofs.Formula.Reading
import QueryFilter.Proofs.Formula.Parse
import QueryFilter.Proofs.Formula.Matching
import QueryFilter.Proofs.Formula.Joining
import QueryFilter.Proofs.Formula.Descent
import QueryFilter.Proofs.Formula.Balance
import QueryFilter.Proofs.Formula.Brackets
import QueryFilter.Proofs.Formula.Check
import QueryFilter.Proofs.Formula.Filling
import QueryFilter.Proofs.Formula.RoundTrip
import QueryFilter.Proofs.Sheet.Literals
import QueryFilter.Proofs.Editor.Produce
import QueryFilter.Proofs.Sheet.Arrival
import QueryFilter.Proofs.Session.Arrival
import QueryFilter.Proofs.Session.Reading
import QueryFilter.Proofs.Editor.Verdict
import QueryFilter.Proofs.Formula.Listing
import QueryFilter.Proofs.Sheet.Agreement
import QueryFilter.Proofs.Session.Supply
import QueryFilter.Proofs.Formula.Substitution
import QueryFilter.Proofs.Formula.Truth
import QueryFilter.Proofs.Formula.Stop
import QueryFilter.Proofs.Sheet.Pattern
import QueryFilter.Proofs.Sheet.Raised
import QueryFilter.Proofs.Editor.Restart
import QueryFilter.Proofs.Json.Layout
import QueryFilter.Proofs.Session.Layout
import QueryFilter.Proofs.Text.CommaForm
import QueryFilter.Proofs.Sheet.Selection
import QueryFilter.Proofs.Sheet.Menu
import QueryFilter.Proofs.Sheet.Exchange
import QueryFilter.Proofs.Sheet.Joined
import QueryFilter.Proofs.Editor.Incompleteness
import QueryFilter.Proofs.Editor.Locality
import QueryFilter.Proofs.Session.Failure
