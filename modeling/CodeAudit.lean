import CodeAudit.Benchmark.Run
import CodeAudit.Main
import CodeAudit.Proofs.Checks.Branches
import CodeAudit.Proofs.Checks.Classes
import CodeAudit.Proofs.Checks.Components
import CodeAudit.Proofs.Checks.Depth
import CodeAudit.Proofs.Checks.ImageUser
import CodeAudit.Proofs.Checks.Parameters
import CodeAudit.Proofs.Checks.RealCode
import CodeAudit.Proofs.Program.Display
import CodeAudit.Proofs.Program.Endings
import CodeAudit.Proofs.Program.Rerun
import CodeAudit.Proofs.Program.Severities
import CodeAudit.Proofs.Program.Verdict
import CodeAudit.Proofs.Report.Labels
import CodeAudit.Proofs.Report.Sections
import CodeAudit.Proofs.Rounds.Plateau
import CodeAudit.Proofs.Scan.Canonical
import CodeAudit.Proofs.Scan.Directives
import CodeAudit.Proofs.Scan.FindingPaths
import CodeAudit.Proofs.Scan.Generated
import CodeAudit.Proofs.Scan.SingleFile
import CodeAudit.Proofs.Settings.Merging
