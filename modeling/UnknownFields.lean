import UnknownFields.Comparison
import UnknownFields.Report
import UnknownFields.Wire.WellFormed
import UnknownFields.CommandLine.Run
import UnknownFields.Main
import UnknownFields.Proofs.Build.Trust
import UnknownFields.Proofs.Verdicts
import UnknownFields.Proofs.Arena.Refinement
import UnknownFields.Proofs.Build.Accounting
import UnknownFields.Proofs.Build.CanonicalTree
import UnknownFields.Proofs.Build.Safety
import UnknownFields.Proofs.Build.Depth
import UnknownFields.Proofs.Ceilings
import UnknownFields.Proofs.Congruence
import UnknownFields.Proofs.Dump
import UnknownFields.Proofs.Sorting
import UnknownFields.Proofs.Build.Shortcut
import UnknownFields.Proofs.SetEquality
import UnknownFields.Proofs.JsonGrammar
import UnknownFields.Proofs.Reports
import UnknownFields.Proofs.CommandLine.Complaints
import UnknownFields.Proofs.CommandLine.Runs
import UnknownFields.Proofs.Wire.Malformations
import UnknownFields.Proofs.Build.Unclosed
import UnknownFields.Proofs.Text.Hex
import UnknownFields.Proofs.CommandLine.Depth
import UnknownFields.Proofs.Wire.Readers
import UnknownFields.Proofs.Arena.Layout
