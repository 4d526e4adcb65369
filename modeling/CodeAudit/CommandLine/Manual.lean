/-!
# The manual

The texts that the program shows when it is asked for help or called wrongly.
-/

namespace CodeAudit.CommandLine

/-- How the program is called. -/
def usage : String := "usage: supersonar [-h] [--version] \x7bscan\x7d ...
"

/-- The manual of the program. -/
def manual : String := usage ++ "
Universal static analysis scanner.

positional arguments:
  \x7bscan\x7d
    scan      Run static analysis scan.

options:
  -h, --help  show this help message and exit
  --version   show program's version number and exit

Quick start:
  supersonar scan .
  supersonar scan . --pretty
  supersonar scan . --format json --out reports/supersonar.json
  supersonar scan . --format sarif --out reports/supersonar.sarif
  supersonar scan . --pretty --progress

Security scanning (backend + frontend + infra):
  supersonar scan . --security-only
  supersonar scan . --security-only --format json --out reports/security-report.json
  supersonar scan . --engine semgrep --semgrep-config p/default
  supersonar scan . --engine hybrid --security-only --semgrep-config p/default

CI/CD quality gates:
  supersonar scan . --security-only --max-high 0 --max-critical 0
  supersonar scan . --fail-on high --max-high 0 --max-critical 0

Coverage and baseline:
  supersonar scan . --coverage-xml coverage.xml --min-coverage 80
  supersonar scan . --baseline-report reports/previous.json --gate-new-only

Rule controls:
  supersonar scan . --enable-rule SS001 --enable-rule SS007
  supersonar scan . --disable-rule SS004

Targeting scope:
  supersonar scan . --exclude node_modules --exclude dist
  supersonar scan . --include-ext .java --include-ext .kt --include-file Dockerfile
  supersonar scan . --include-generated

Config file:
  supersonar scan . --config supersonar.toml

Need full scan flags?
  supersonar scan -h
"

/-- How a scan is called. -/
def scanUsage : String := "usage: supersonar scan [-h] [--config CONFIG] [--exclude EXCLUDE]
                       [--include-ext INCLUDE_EXT]
                       [--include-file INCLUDE_FILE]
                       [--enable-rule ENABLE_RULE]
                       [--disable-rule DISABLE_RULE] [--security-only]
                       [--engine \x7binternal,semgrep,hybrid\x7d]
                       [--semgrep-bin SEMGREP_BIN]
                       [--semgrep-config SEMGREP_CONFIG] [--no-inline-ignore]
                       [--include-generated]
                       [--max-file-size-kb MAX_FILE_SIZE_KB]
                       [--format \x7bjson,sarif,pretty\x7d] [--pretty]
                       [--progress | --no-progress] [--out OUT]
                       [--fail-on \x7blow,medium,high,critical\x7d]
                       [--max-issues MAX_ISSUES]
                       [--max-files-with-issues MAX_FILES_WITH_ISSUES]
                       [--max-low MAX_LOW] [--max-medium MAX_MEDIUM]
                       [--max-high MAX_HIGH] [--max-critical MAX_CRITICAL]
                       [--coverage-xml COVERAGE_XML]
                       [--min-coverage MIN_COVERAGE]
                       [--baseline-report BASELINE_REPORT] [--gate-new-only]
                       [path]
"

/-- The manual of a scan. -/
def scanManual : String := scanUsage ++ "
positional arguments:
  path                  Path to scan.

options:
  -h, --help            show this help message and exit
  --config CONFIG       Path to supersonar TOML config.
  --exclude EXCLUDE     Extra exclude directory names.
  --include-ext INCLUDE_EXT
                        Extension to include (repeatable).
  --include-file INCLUDE_FILE
                        Filename to include (repeatable).
  --enable-rule ENABLE_RULE
                        Only allow specific rule IDs.
  --disable-rule DISABLE_RULE
                        Disable specific rule IDs.
  --security-only       Enable only security-focused rules (reduces
                        quality/style noise).
  --engine \x7binternal,semgrep,hybrid\x7d
                        Scan engine: built-in rules, Semgrep, or both.
  --semgrep-bin SEMGREP_BIN
                        Path or executable name for Semgrep when engine
                        includes semgrep.
  --semgrep-config SEMGREP_CONFIG
                        Semgrep config or ruleset (repeatable), for example
                        p/default.
  --no-inline-ignore    Disable inline suppression comments.
  --include-generated   Include generated/build artifacts (disabled by
                        default).
  --max-file-size-kb MAX_FILE_SIZE_KB
                        Skip files larger than this size in KB.
  --format \x7bjson,sarif,pretty\x7d
                        Report output format.
  --pretty              Shortcut for --format pretty.
  --progress            Show scan progress on stderr (enabled automatically on
                        interactive terminals).
  --no-progress         Disable scan progress output.
  --out OUT             Write report to file. Defaults to stdout.
  --fail-on \x7blow,medium,high,critical\x7d
                        Fail on severity level.
  --max-issues MAX_ISSUES
                        Fail if issue count exceeds this number.
  --max-files-with-issues MAX_FILES_WITH_ISSUES
                        Fail if affected file count exceeds this number.
  --max-low MAX_LOW     Maximum allowed low-severity issues.
  --max-medium MAX_MEDIUM
                        Maximum allowed medium-severity issues.
  --max-high MAX_HIGH   Maximum allowed high-severity issues.
  --max-critical MAX_CRITICAL
                        Maximum allowed critical-severity issues.
  --coverage-xml COVERAGE_XML
                        Path to Cobertura coverage.xml file.
  --min-coverage MIN_COVERAGE
                        Minimum required line coverage percentage (0-100).
  --baseline-report BASELINE_REPORT
                        Path to a previous supersonar JSON report for baseline
                        comparison.
  --gate-new-only       Evaluate quality gates against new issues only when
                        baseline report is set.
"

/-- The name and version of the program. -/
def versionText : String := "supersonar 0.3.9"

end CodeAudit.CommandLine
