import TokenAlignment.CommandLine.Workspace
import TokenAlignment.Main
import TokenAlignment.Proofs.Run.Order
import TokenAlignment.Proofs.Syntax.CoverKinds
import TokenAlignment.Proofs.Run.SinkProtocol
import TokenAlignment.Proofs.Text.Slice
import TokenAlignment.Proofs.Document
import TokenAlignment.Proofs.Tokenizer.CharOffsets
import TokenAlignment.Proofs.Tokenizer.Contract
import TokenAlignment.Proofs.Score.Clipped
import TokenAlignment.Proofs.Identifier.Conservation
import TokenAlignment.Proofs.Score.Aligned
import TokenAlignment.Proofs.Identifier.CaseCuts
import TokenAlignment.Proofs.Identifier.Fixpoint
import TokenAlignment.Proofs.Tokenizer.Learning
import TokenAlignment.Proofs.Score.Frequencies
import TokenAlignment.Proofs.Run.Counting
import TokenAlignment.Proofs.Run.CsvStream
import TokenAlignment.Proofs.Run.Division
import TokenAlignment.Proofs.Score.Ranges
import TokenAlignment.Proofs.Run.Baseline
import TokenAlignment.Proofs.Run.Classification
import TokenAlignment.Proofs.Corpus.Jsonl
import TokenAlignment.Proofs.Report.Tables
import TokenAlignment.Proofs.CommandLine.Tables
import TokenAlignment.Proofs.Decimal.Shortest
import TokenAlignment.Proofs.Json.Number
import TokenAlignment.Proofs.Json.RoundTrip
import TokenAlignment.Proofs.Report.Json
import TokenAlignment.Proofs.Score.CommonRefinement
import TokenAlignment.Proofs.Score.TokenSlices
import TokenAlignment.Proofs.Identifier.Spelling
import TokenAlignment.Proofs.Text.CharClasses
import TokenAlignment.Proofs.Identifier.CutReasons
import TokenAlignment.Proofs.Tokenizer.Patterns
import TokenAlignment.Proofs.Identifier.Places
import TokenAlignment.Proofs.Text.Pieces
import TokenAlignment.Proofs.Tokenizer.PieceBorders
import TokenAlignment.Proofs.Syntax.Walks
import TokenAlignment.Proofs.Report.Totals
import TokenAlignment.Proofs.Score.FrequencySummary
import TokenAlignment.Proofs.Report.Faults
import TokenAlignment.Proofs.Text.Chunks
import TokenAlignment.Proofs.Corpus.Discovery
