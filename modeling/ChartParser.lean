import ChartParser.Derivation.Bracketing
import ChartParser.Derivation.Enumeration
import ChartParser.Derivation.Licensed
import ChartParser.Derivation.Sentential
import ChartParser.Grammar.Dense
import ChartParser.Grammar.History
import ChartParser.Loader.Stream
import ChartParser.Loader.Written
import ChartParser.Main
import ChartParser.Prompt.Dialogue
import ChartParser.Proofs.Chart.Collecting
import ChartParser.Proofs.Chart.Entries
import ChartParser.Proofs.Chart.Filling
import ChartParser.Proofs.Chart.Order
import ChartParser.Proofs.Chart.Place
import ChartParser.Proofs.Chart.Progress
import ChartParser.Proofs.Derivation.Enumeration
import ChartParser.Proofs.Derivation.Leftmost
import ChartParser.Proofs.Derivation.Rewriting
import ChartParser.Proofs.Grammar.Commuting
import ChartParser.Proofs.Grammar.Contents
import ChartParser.Proofs.Grammar.Growth
import ChartParser.Proofs.Grammar.Lookup
import ChartParser.Proofs.Grammar.Registered
import ChartParser.Proofs.Grammar.Relabelling
import ChartParser.Proofs.Loader.Files
import ChartParser.Proofs.Loader.Outcome
import ChartParser.Proofs.Loader.Parts
import ChartParser.Proofs.Loader.Written
import ChartParser.Proofs.Parsing.Accounting
import ChartParser.Proofs.Parsing.Agreement
import ChartParser.Proofs.Parsing.Cells
import ChartParser.Proofs.Parsing.Dense
import ChartParser.Proofs.Parsing.Exactness
import ChartParser.Proofs.Parsing.Growth
import ChartParser.Proofs.Parsing.Language
import ChartParser.Proofs.Parsing.Limit
import ChartParser.Proofs.Parsing.Outcome
import ChartParser.Proofs.Parsing.Registration
import ChartParser.Proofs.Parsing.Relabelling
import ChartParser.Proofs.Parsing.Trace
import ChartParser.Proofs.Program.Prepared
import ChartParser.Proofs.Program.Samples
import ChartParser.Proofs.Program.Sentences
import ChartParser.Proofs.Prompt.Dialogue
import ChartParser.Proofs.Prompt.Report
import ChartParser.Proofs.Sampling.Accounting
import ChartParser.Proofs.Sampling.Choice
import ChartParser.Proofs.Sampling.Drawing
import ChartParser.Proofs.Sampling.Failing
import ChartParser.Proofs.Sampling.Fairness
import ChartParser.Proofs.Sampling.ParsedBack
import ChartParser.Proofs.Sampling.Reaching
import ChartParser.Proofs.Sampling.Relabelling
import ChartParser.Proofs.Sampling.Rounds
import ChartParser.Proofs.Text.Encoding
import ChartParser.Proofs.Text.Words
import ChartParser.Proofs.Tree.Decoding
import ChartParser.Proofs.Tree.Outline
import ChartParser.Tree.Readable
