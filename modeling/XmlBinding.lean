import XmlBinding.CommandLine
import XmlBinding.Document
import XmlBinding.Generic
import XmlBinding.Inspection
import XmlBinding.Main
import XmlBinding.Matcher
import XmlBinding.Proofs.Agreement
import XmlBinding.Proofs.AllOrNothing
import XmlBinding.Proofs.Anchoring
import XmlBinding.Proofs.Arguments
import XmlBinding.Proofs.Balance
import XmlBinding.Proofs.Booleans
import XmlBinding.Proofs.Bottom
import XmlBinding.Proofs.Captured
import XmlBinding.Proofs.Children
import XmlBinding.Proofs.Chunking
import XmlBinding.Proofs.Defaults
import XmlBinding.Proofs.Deferred
import XmlBinding.Proofs.Entities
import XmlBinding.Proofs.Failure
import XmlBinding.Proofs.Finish
import XmlBinding.Proofs.Grammar
import XmlBinding.Proofs.Image
import XmlBinding.Proofs.Indexing
import XmlBinding.Proofs.Interleaving
import XmlBinding.Proofs.Isolation
import XmlBinding.Proofs.Lines
import XmlBinding.Proofs.Lockstep
import XmlBinding.Proofs.LongestSuffix
import XmlBinding.Proofs.Nesting
import XmlBinding.Proofs.Outlines
import XmlBinding.Proofs.Pairing
import XmlBinding.Proofs.Preview
import XmlBinding.Proofs.Printed
import XmlBinding.Proofs.Reuse
import XmlBinding.Proofs.Root
import XmlBinding.Proofs.RoundTrip
import XmlBinding.Proofs.Scoping
import XmlBinding.Proofs.Segmentwise
import XmlBinding.Proofs.Setters
import XmlBinding.Proofs.Slicing
import XmlBinding.Proofs.Summary
import XmlBinding.Proofs.Tables
import XmlBinding.Proofs.Tally
import XmlBinding.Proofs.Trace.Documents
import XmlBinding.Proofs.Universality
import XmlBinding.Proofs.Unwinding
import XmlBinding.Proofs.Variables
import XmlBinding.Report
import XmlBinding.Script.Session
import XmlBinding.Proofs.Conventions
