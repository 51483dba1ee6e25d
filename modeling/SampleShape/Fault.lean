/-
# Failures of a run

Everything that can stop a file-based run, with the wording that the journal and
the caller see.  YAML is read by something outside the library, which has failures of
its own.
-/

import SampleShape.Inference
import SampleShape.Config
import SampleShape.Json
import SampleShape.Files.Tree

namespace SampleShape

/-- Why a run, or one of its steps, fails. -/
inductive Fault where
  | inference (f : InferenceFault)
  | invalid (r : Report)
  | file (f : FileFault)
  | undecodable (f : Utf8.DecodeFault)
  | unencodable (f : Utf8.EncodeFault)
  | json (f : Json.Fault)
  | notArray (path : Text) (found : Value)
  | configNotFound (path : Text)
  | configFormat (suffix : Text)
  | yaml (f : ForeignFault)
  | yamlUnavailable
  | noConfig
  | notAssignable (v : Value)

namespace Fault

/-- The wording of a failure; of a report, its first line. -/
def message : Fault → Text
  | .inference f => f.message
  | .invalid r => r.headline
  | .file f => f.message
  | .undecodable f => f.message
  | .unencodable f => f.message
  | .json f => f.message
  | .notArray path found =>
    .concat ["Expected a JSON array of samples in ", path, ", got ", found.kindWord]
  | .configNotFound path => .concat ["Config file not found: ", path]
  | .configFormat suffix =>
    .concat ["Unsupported config format: ", suffix, ". Use .json or .yaml"]
  | .yaml f => f.message
  | .yamlUnavailable =>
    "PyYAML required for YAML configs. Install with: pip install typeshape[yaml]"
  | .noConfig => "Either config_path or config_dict must be provided"
  | .notAssignable (.sequence false _) => "list indices must be integers or slices, not str"
  | .notAssignable v =>
    .concat ["'", v.fullKindWord, "' object does not support item assignment"]

end Fault
end SampleShape
