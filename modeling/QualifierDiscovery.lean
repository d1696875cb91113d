import QualifierDiscovery.Main
import QualifierDiscovery.Proofs.Acceptance
import QualifierDiscovery.Proofs.Agreement
import QualifierDiscovery.Proofs.ArchiveAgreement
import QualifierDiscovery.Proofs.BundledLoading
import QualifierDiscovery.Proofs.Files.Paths
import QualifierDiscovery.Proofs.Files.Resolution
import QualifierDiscovery.Proofs.Files.Trees
import QualifierDiscovery.Proofs.Files.Walk
import QualifierDiscovery.Proofs.Locating
import QualifierDiscovery.Proofs.Names
import QualifierDiscovery.Proofs.Registry
import QualifierDiscovery.Proofs.SourceTrees
import QualifierDiscovery.Proofs.Text.Order
import QualifierDiscovery.Proofs.Text.Pieces
import QualifierDiscovery.Proofs.ExternalLoading
import QualifierDiscovery.Proofs.FailurePolicies
import QualifierDiscovery.Proofs.Checkers
import QualifierDiscovery.Proofs.CommandLine.CheckerOption
import QualifierDiscovery.Proofs.RegistryHistory
import QualifierDiscovery.Proofs.Synthesis
import QualifierDiscovery.Proofs.BuildFailures
import QualifierDiscovery.Proofs.Json.Scalars
import QualifierDiscovery.Proofs.Json.Values
import QualifierDiscovery.Proofs.Json.Decoders
import QualifierDiscovery.Proofs.Json.Readings
import QualifierDiscovery.Proofs.Manifests
import QualifierDiscovery.Proofs.Files.Writing
import QualifierDiscovery.Proofs.ManifestFiles
import QualifierDiscovery.Proofs.FirstOccurrences
import QualifierDiscovery.Proofs.SearchPaths
import QualifierDiscovery.Proofs.Files.AbsolutePaths
import QualifierDiscovery.Proofs.FirstMatch
import QualifierDiscovery.Proofs.Precedence
import QualifierDiscovery.Proofs.BootEntries
import QualifierDiscovery.Proofs.Files.Reordering
import QualifierDiscovery.Proofs.ListingOrder
import QualifierDiscovery.Proofs.Sessions
import QualifierDiscovery.Proofs.NamedQualifiers
import QualifierDiscovery.Proofs.CommandLine.Output
import QualifierDiscovery.Proofs.RegistryExport
import QualifierDiscovery.Proofs.ManifestLayers
import QualifierDiscovery.Proofs.ExternalListing
import QualifierDiscovery.Proofs.CandidateNames
import QualifierDiscovery.Proofs.Descent
import QualifierDiscovery.Proofs.BundledListing
import QualifierDiscovery.Proofs.Mirrors
import QualifierDiscovery.Proofs.PackageForms
import QualifierDiscovery.Proofs.KitDiscovery
import QualifierDiscovery.Proofs.KitVersions
import QualifierDiscovery.Proofs.EntryPrefixes
import QualifierDiscovery.Proofs.Text.Utf8
import QualifierDiscovery.Proofs.Url.Percent
import QualifierDiscovery.Proofs.Files.Places
import QualifierDiscovery.Proofs.Url.DirectoryUrls
import QualifierDiscovery.Proofs.LocationUrls
import QualifierDiscovery.Proofs.Json.Separated
import QualifierDiscovery.Proofs.Json.Spellings
import QualifierDiscovery.Proofs.Configurations
