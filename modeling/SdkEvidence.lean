import SdkEvidence.Main
import SdkEvidence.Proofs.Package.Collisions
import SdkEvidence.Proofs.Package.MergedPackage
import SdkEvidence.Proofs.Evidence.Accumulation
import SdkEvidence.Proofs.FileSystem.Copies
import SdkEvidence.Proofs.Tree.Areas
import SdkEvidence.Proofs.Tree.Presence
import SdkEvidence.Proofs.Analysis.Findings
import SdkEvidence.Proofs.Analysis.Trees
import SdkEvidence.Proofs.FileSystem.Names
import SdkEvidence.Proofs.FileSystem.Room
import SdkEvidence.Proofs.Package.Laying
import SdkEvidence.Proofs.Package.RoundTrip
import SdkEvidence.Proofs.Package.Relocation
import SdkEvidence.Proofs.Analysis.Reconstruct
import SdkEvidence.Proofs.Analysis.Prepared
import SdkEvidence.Proofs.Analysis.Container
import SdkEvidence.Proofs.Analysis.Leavings
import SdkEvidence.Proofs.Analysis.Order
import SdkEvidence.Proofs.Analysis.Evidence
import SdkEvidence.Proofs.Evidence.Channels
import SdkEvidence.Proofs.Evidence.Keyword
import SdkEvidence.Proofs.Evidence.LetterCase
import SdkEvidence.Proofs.Report.RoundTrip
import SdkEvidence.Proofs.Evidence.Occurrences
import SdkEvidence.Proofs.Evidence.CodeSearch
import SdkEvidence.Proofs.Package.Overlay
import SdkEvidence.Proofs.Package.Plan
import SdkEvidence.Proofs.Tree.Positions
import SdkEvidence.Proofs.Text.Spelling
import SdkEvidence.Proofs.Package.SplitName
import SdkEvidence.Proofs.Inventory.NativeLibrary
import SdkEvidence.Proofs.Inventory.Sdk
import SdkEvidence.Proofs.Inventory.Competitor
import SdkEvidence.Proofs.Inventory.LibraryDatabase
import SdkEvidence.Proofs.Manifest.Declarations
import SdkEvidence.Proofs.Manifest.ApktoolFile
import SdkEvidence.Proofs.Manifest.Precedence
import SdkEvidence.Proofs.Metadata.Locale
import SdkEvidence.Proofs.Metadata.Provenance
import SdkEvidence.Proofs.Report.Verdicts
import SdkEvidence.Proofs.Report.LibraryGroups
import SdkEvidence.Proofs.Metadata.Stamp
import SdkEvidence.Proofs.Metadata.CodePackage
import SdkEvidence.Proofs.Report.FileName
import SdkEvidence.Proofs.Report.Size
