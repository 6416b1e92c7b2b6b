import Crosscheck.Settings.Store
import Crosscheck.Yaml.Document

namespace Crosscheck.Settings.Store

/-- Reads a document in place of the former configuration. If something is wrong with it, what
remains of it is kept as it is written. -/
def readYaml (s : Store) (bytes : ByteArray) : Store × Option Yaml.Fault :=
  let r := Yaml.read bytes
  match r.fault with
  | none => (s.withConfig r.fields, none)
  | some f => ({ s with config := r.fields }, some f)

end Crosscheck.Settings.Store
