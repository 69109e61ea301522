import SelectOutline.Text.Ranges
import SelectOutline.Text.Basic
import SelectOutline.Text.Alphabetic
import SelectOutline.Text.Numeric
import SelectOutline.Text.Mark
import SelectOutline.Text.CharClass
import SelectOutline.Text.Uppercase
import SelectOutline.Text.Quoting
import SelectOutline.Keyword
import SelectOutline.Keyword.Vocabulary
import SelectOutline.Keyword.Search
import SelectOutline.Cursor
import SelectOutline.Policy
import SelectOutline.Fault
import SelectOutline.Phase
import SelectOutline.Traced
import SelectOutline.Comparison
import SelectOutline.Condition
import SelectOutline.Criteria
import SelectOutline.Sorting
import SelectOutline.Grouping
import SelectOutline.Limit
import SelectOutline.Join
import SelectOutline.Projection
import SelectOutline.Aggregate
import SelectOutline.Json
import SelectOutline.Outline
import SelectOutline.Outline.Parse
import SelectOutline.Outline.Encoding
import SelectOutline.Proofs.Blanks
import SelectOutline.Proofs.Words
import SelectOutline.Proofs.Literals
import SelectOutline.Proofs.Spelling
import SelectOutline.Proofs.Search
import SelectOutline.Proofs.Reading
import SelectOutline.Proofs.Joins
import SelectOutline.Proofs.JoinTables
import SelectOutline.Proofs.Stages
import SelectOutline.Proofs.Decomposition
import SelectOutline.Proofs.Likeness
import SelectOutline.Proofs.Noninterference
import SelectOutline.Proofs.Grammar
import SelectOutline.Proofs.GrammarText
import SelectOutline.Proofs.Entries
import SelectOutline.Proofs.Completeness
import SelectOutline.Proofs.Uppercase
import SelectOutline.Proofs.WellFormed
import SelectOutline.Proofs.Policies
import SelectOutline.Proofs.SingleJoin
import SelectOutline.Proofs.Standard
import SelectOutline.Proofs.Equivariance
import SelectOutline.Proofs.Pipeline
import SelectOutline.Proofs.RoundTrip
import SelectOutline.Proofs.Positions
import SelectOutline.Proofs.FirstJoin
import SelectOutline.Proofs.WholeText
import SelectOutline.Proofs.AppendedLimit
import SelectOutline.Proofs.Exhaustion
import SelectOutline.Proofs.Phrases
import SelectOutline.Proofs.SingleCondition
import SelectOutline.Proofs.Splitting
import SelectOutline.Proofs.JoinPlaces
import SelectOutline.Proofs.FirstLimit
import SelectOutline.Proofs.Calls
import SelectOutline.Proofs.Restarts
import SelectOutline.Proofs.Matching
