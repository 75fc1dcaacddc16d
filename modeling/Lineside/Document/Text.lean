import Lineside.Document.OfYaml
import Lineside.Error
import Lineside.Yaml.Reader

/-!
Scripts read from text, YAML or JSON, since the former reads the latter.
-/

namespace Lineside

namespace Yaml

/-- Fills a record from a text. An empty text leaves the record as it was. -/
def readInto (field : String → Yaml → α → Option α) (record : α) (bytes : ByteArray) : Outcome α := do
  match ← Outcome.require .malformedYaml (parse bytes) with
  | none => return record
  | some node => Outcome.require .unfitYaml (node.toRecord field record)

end Yaml

namespace Script

def ofDocument (document : Document.Script) : Outcome Script :=
  Outcome.because (.misfit document.name) document.resolve

/-- Reads a script. It is not validated. -/
def parse (bytes : ByteArray) : Outcome Script := do
  let document ← Yaml.readInto Document.Script.yamlField {} bytes
  if document.name = "" then Outcome.fail .namelessScript else ofDocument document

end Script

end Lineside
