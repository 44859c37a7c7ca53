import NamespacePlan.Main
import NamespacePlan.Proofs.AddedSchemas
import NamespacePlan.Proofs.CommandAgreement
import NamespacePlan.Proofs.DescriptorKeys
import NamespacePlan.Proofs.DraftChecks
import NamespacePlan.Proofs.ImportLists
import NamespacePlan.Proofs.JsonRoundTrip
import NamespacePlan.Proofs.MaindocPlaces
import NamespacePlan.Proofs.NestingLimits
import NamespacePlan.Proofs.PascalNames
import NamespacePlan.Proofs.Placeholder
import NamespacePlan.Proofs.Precedence
import NamespacePlan.Proofs.PrefixSegments
import NamespacePlan.Proofs.Rearrangement
import NamespacePlan.Proofs.RootChange
import NamespacePlan.Proofs.RunFailures
import NamespacePlan.Proofs.SchemaIsolation
import NamespacePlan.Proofs.SchemaRoundTrip
import NamespacePlan.Proofs.SettingsEntries
import NamespacePlan.Proofs.SettingsMerge
import NamespacePlan.Proofs.TagLocality
import NamespacePlan.Proofs.YamlRoundTrip
