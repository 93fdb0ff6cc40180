import IntentGraph.Configuration
import IntentGraph.Document.IntentDocument
import IntentGraph.FileFormat
import IntentGraph.Json.Reader
import IntentGraph.Yaml.Printer
import IntentGraph.Yaml.Reader

/-!
# Documents and settings as text

Documents are written and read as JSON or as YAML, settings as YAML. A decoder
works on the source tree of either format.
-/

namespace IntentGraph

/-- Decodes a JSON text. -/
def decodeJsonText {α : Type} (decode : Decoder α)
    (text : String) : Decoded α :=
  let reading := Json.read text
  decodeReading decode reading.tree reading.trailing

/-- Decodes a YAML text. -/
def decodeYamlText {α : Type} (decode : Decoder α)
    (text : String) : Decoded α :=
  decodeReading decode (Yaml.read text) none

/-- Decodes a text of a format. -/
def decodeText {α : Type} (decode : Decoder α) : FileFormat → String → Decoded α
  | .json => decodeJsonText decode
  | .yaml => decodeYamlText decode

namespace IntentDocument

/-- Reads a document from a text of a format. -/
def ofText (format : FileFormat) (text : String) : Decoded IntentDocument :=
  decodeText decode format text

/-- The text of a document in a format. -/
def toText (format : FileFormat) (d : IntentDocument) : String :=
  match format with
  | .json => d.encode.pretty
  | .yaml => Yaml.render d.encode

end IntentDocument

namespace Configuration

/-- Reads settings from a YAML text. -/
def ofText (text : String) : Decoded Configuration := decodeYamlText decode text

/-- The YAML text of settings. -/
def toText (c : Configuration) : String := Yaml.render c.encode

end Configuration

end IntentGraph
