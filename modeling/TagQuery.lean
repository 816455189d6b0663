import TagQuery.Main
import TagQuery.Selector.Cache
import TagQuery.Proofs.Texts
import TagQuery.Proofs.Selector.Grammar
import TagQuery.Proofs.Selector.Lexing
import TagQuery.Proofs.Selector.Acceptance
import TagQuery.Proofs.Selector.Soundness
import TagQuery.Proofs.Selector.Calls
import TagQuery.Proofs.Selector.Parsing
import TagQuery.Proofs.Selector.Rendering
import TagQuery.Proofs.Selector.Printing
import TagQuery.Proofs.Selector.Places
import TagQuery.Proofs.Index
import TagQuery.Proofs.Queries
import TagQuery.Proofs.Selector.Evaluation
import TagQuery.Proofs.Selector.Outcome
import TagQuery.Proofs.Selector.Chains
import TagQuery.Proofs.Filter.Clauses
import TagQuery.Proofs.Filter.Structure
import TagQuery.Proofs.Filter.Conversion
import TagQuery.Proofs.Filter.Fidelity
import TagQuery.Proofs.Selector.Caching
import TagQuery.Proofs.Union
import TagQuery.Proofs.Selector.Agreement
import TagQuery.Proofs.Selector.Nesting
import TagQuery.Proofs.Attempt
import TagQuery.Proofs.Listing
import TagQuery.Proofs.Annotations
import TagQuery.Proofs.Records
import TagQuery.Proofs.Selection.Complement
import TagQuery.Proofs.Selection.Inheritance
import TagQuery.Proofs.Command.Output
import TagQuery.Proofs.Command.TagLists
import TagQuery.Proofs.Command.Precedence
import TagQuery.Proofs.Selector.Viability
import TagQuery.Proofs.Selector.Rules
import TagQuery.Proofs.Selector.Offenders
import TagQuery.Proofs.Selector.Literals
import TagQuery.Proofs.Shape
import TagQuery.Proofs.Selector.Laws
import TagQuery.Proofs.Selector.Monotonicity
import TagQuery.Proofs.Selector.Marks
import TagQuery.Proofs.Occurrences
import TagQuery.Proofs.NameOrder
import TagQuery.Proofs.Members
import TagQuery.Proofs.ValueQueries
import TagQuery.Proofs.Trials
import TagQuery.Proofs.Selector.Accounting
