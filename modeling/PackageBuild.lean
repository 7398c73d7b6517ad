import PackageBuild.Document.JsonReader
import PackageBuild.Main
import PackageBuild.Proofs.CacheReading
import PackageBuild.Proofs.ConfigurationFaults
import PackageBuild.Proofs.ConfigurationPrecedence
import PackageBuild.Proofs.Discovery
import PackageBuild.Proofs.OptionText
import PackageBuild.Proofs.Packager.Agreement
import PackageBuild.Proofs.Packager.Containment
import PackageBuild.Proofs.Packager.Survival
import PackageBuild.Proofs.PositionIndependence
import PackageBuild.Proofs.SharedLibraries
import PackageBuild.Proofs.VersionPrecedence
import PackageBuild.Proofs.NearestManifest
import PackageBuild.Proofs.Path.Parting
import PackageBuild.Proofs.OverlappingDirectories
import PackageBuild.Proofs.CommandLine.JsonFlag
import PackageBuild.Proofs.CommandLine.MachineOutput
import PackageBuild.Proofs.Fingerprint
import PackageBuild.Proofs.Packager.Refusal
import PackageBuild.Proofs.Packager.Collisions
import PackageBuild.Proofs.DiscoveryOrder
import PackageBuild.Proofs.DistinctVariables
import PackageBuild.Proofs.JobCount
import PackageBuild.Proofs.LibraryNaming
import PackageBuild.Proofs.ExactDecoders
import PackageBuild.Proofs.Reports
import PackageBuild.Proofs.RequirementText
import PackageBuild.Proofs.ManifestAcceptance
import PackageBuild.Proofs.SerialisedForms
import PackageBuild.Proofs.Packager.Interleaving
