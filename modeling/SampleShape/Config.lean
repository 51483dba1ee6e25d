/-
# Settings

The style of a declaration and the configuration of a run are records that are
given as mappings.  In a configuration only the two paths are required; the faults
of its style are reported at the place of the style.
-/

import SampleShape.Checked
import SampleShape.Shape.Render

namespace SampleShape

namespace Style

/-- The name of this record in reports. -/
def recordName : Text := "RenderOptions"

/-- The style that a mapping describes. -/
def check : Value → Checked Style
  | .mapping entries =>
    let standard : Style := {}
    let typeName := Checked.field entries "type_name" (.ok standard.typeName) Checked.typeName
    let exported := Checked.field entries "export" (.ok standard.exported) Checked.boolean
    let indent := Checked.field entries "indent" (.ok standard.indent) Checked.text
    let separator :=
      Checked.field entries "property_separator" (.ok standard.separator) Checked.text
    let unknownMarker :=
      Checked.field entries "unknown_marker" (.ok standard.unknownMarker) Checked.text
    match typeName, exported, indent, separator, unknownMarker with
    | .ok typeName, .ok exported, .ok indent, .ok separator, .ok unknownMarker =>
      .ok { typeName, exported, indent, separator, unknownMarker }
    | _, _, _, _, _ =>
      .error (typeName.faults ++ exported.faults ++ indent.faults ++ separator.faults ++
        unknownMarker.faults)
  | _ => Checked.fail (.notMapping recordName)

/-- The style that a value describes. -/
def ofValue (v : Value) : Except Report Style := (check v).mapError fun fs => ⟨recordName, fs⟩

/-- The mapping that describes a style. -/
def toValue (s : Style) : Value :=
  .mapping
    [(.text "type_name", .text s.typeName), (.text "export", .boolean s.exported),
     (.text "indent", .text s.indent), (.text "property_separator", .text s.separator),
     (.text "unknown_marker", .text s.unknownMarker)]

end Style

/-- The configuration of a run: where the samples are, where the declaration
goes, how it is written, and the level of the journal. -/
structure Config where
  inputPath : Text
  outputPath : Text
  style : Style := {}
  level : Level := .info

namespace Config

/-- The name of this record in reports. -/
def recordName : Text := "PipelineConfig"

/-- The configuration that a mapping describes; only the two paths are required. -/
def check : Value → Checked Config
  | .mapping entries =>
    let inputPath := Checked.field entries "input_path" (Checked.fail .missing) Checked.text
    let outputPath := Checked.field entries "output_path" (Checked.fail .missing) Checked.text
    let style := Checked.field entries "render" (.ok {}) Style.check
    let level := Checked.field entries "log_level" (.ok .info) Checked.level
    match inputPath, outputPath, style, level with
    | .ok inputPath, .ok outputPath, .ok style, .ok level =>
      .ok { inputPath, outputPath, style, level }
    | _, _, _, _ => .error (inputPath.faults ++ outputPath.faults ++ style.faults ++ level.faults)
  | _ => Checked.fail (.notMapping recordName)

/-- The configuration that a value describes. -/
def ofValue (v : Value) : Except Report Config := (check v).mapError fun fs => ⟨recordName, fs⟩

end Config
end SampleShape
