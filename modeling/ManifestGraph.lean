import ManifestGraph.Graph.Lookup
import ManifestGraph.Main
import ManifestGraph.Proofs.Conversion.Facts
import ManifestGraph.Proofs.Failure.Links
import ManifestGraph.Proofs.Fallback.Places
import ManifestGraph.Proofs.Fallback.RoundTrip
import ManifestGraph.Proofs.Graph.Violations
import ManifestGraph.Proofs.Pip.Findings
import ManifestGraph.Proofs.Pip.Reordering
import ManifestGraph.Proofs.Pip.Ways
import ManifestGraph.Proofs.Pipenv.Requirements
import ManifestGraph.Proofs.Program.Destination
import ManifestGraph.Proofs.Record.Blocks
import ManifestGraph.Proofs.Record.Linewise
import ManifestGraph.Proofs.Resolution.Containment
import ManifestGraph.Proofs.Resolution.FailFast
import ManifestGraph.Proofs.Resolution.Reports
import ManifestGraph.Proofs.Resolution.SingleProject
import ManifestGraph.Proofs.Resolution.Exclusions
import ManifestGraph.Proofs.Discovery.Search
import ManifestGraph.Proofs.Pipenv.Findings
import ManifestGraph.Proofs.Uv.Export
import ManifestGraph.Proofs.Json.Steps
