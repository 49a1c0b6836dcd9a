import WeightedSearch.Query.Render
import WeightedSearch.Query.Outline
import WeightedSearch.Query.Position
import WeightedSearch.Query.Parse
import WeightedSearch.Index.Lexicon
import WeightedSearch.Search
import WeightedSearch.Settings.Load
import WeightedSearch.Proofs.Query.RoundTrip
import WeightedSearch.Proofs.Evaluation.Siblings
import WeightedSearch.Proofs.Evaluation.Grouping
import WeightedSearch.Proofs.Evaluation.Reduction
import WeightedSearch.Proofs.Evaluation.Steady
import WeightedSearch.Proofs.Search.Runs
import WeightedSearch.Proofs.Search.Scope
import WeightedSearch.Proofs.Evaluation.Meaning
import WeightedSearch.Proofs.Query.Reading
import WeightedSearch.Proofs.Query.Terms
import WeightedSearch.Proofs.Query.Closing
import WeightedSearch.Proofs.Query.Advance
import WeightedSearch.Proofs.Evaluation.Lookups
import WeightedSearch.Proofs.Search.Blankness
import WeightedSearch.Proofs.Evaluation.Answered
import WeightedSearch.Proofs.Evaluation.Provenance
import WeightedSearch.Proofs.Search.Ranking
import WeightedSearch.Proofs.Evaluation.Excluding
import WeightedSearch.Proofs.Evaluation.Reordering
import WeightedSearch.Proofs.Evaluation.Flattening
import WeightedSearch.Proofs.Index.Memory
import WeightedSearch.Proofs.Query.Scanning
import WeightedSearch.Proofs.Query.Brackets
import WeightedSearch.Proofs.Evaluation.Wrapping
import WeightedSearch.Proofs.Index.Insertions
import WeightedSearch.Proofs.Query.Length
import WeightedSearch.Proofs.Query.Outline
import WeightedSearch.Proofs.Evaluation.Validity
import WeightedSearch.Proofs.Key.Digest
import WeightedSearch.Proofs.Settings.RoundTrip
