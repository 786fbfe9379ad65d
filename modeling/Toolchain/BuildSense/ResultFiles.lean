import Toolchain.Lib.Text

/-!
# BuildSense.ResultFiles — the files that processing makes of a run

Models the names in `buildsense/ingestion/run_processors`.
-/

namespace Toolchain.BuildSense

open Lib

/-- A file that processing makes, with what its name depends on. -/
inductive ResultFile
  | zipkinTrace
  | console (goal workunitId : Text)
  | pytestResults | coverageSummary | aggregateMetrics | pantsOptions | targetsSpecs | platformInfo
  | workUnits

def ResultFile.name : ResultFile → Text
  | .zipkinTrace => "zipkin_trace.json".toList
  | .console goal workunitId => goal ++ '_' :: workunitId ++ "_artifacts.json".toList
  | .pytestResults => "pytest_results.json".toList
  | .coverageSummary => "coverage_summary.json".toList
  | .aggregateMetrics => "aggregate_metrics.json".toList
  | .pantsOptions => "pants_options.json".toList
  | .targetsSpecs => "targets_specs.json".toList
  | .platformInfo => "platform_info.json".toList
  | .workUnits => "artifacts_work_units.json".toList

def pantsLog : Text := "pants_run_log.txt".toList

def finalStats : Text := "final.json".toList

end Toolchain.BuildSense
