import Crosscheck.Settings.Load
import Crosscheck.Yaml.Writer

namespace Crosscheck.Settings

def optionalText (key value : String) : Fields := if value = "" then [] else [(key, .text value)]

def toolTree (t : Tool) : Value :=
  .map ([("name", .text t.name), ("path", .text t.path), ("role", .text t.role.name),
    ("output_dir", .text t.outputDir), ("dismiss_window", .bool t.dismissWindow)] ++
    optionalText "window_title" t.windowTitle ++
    [("byproducts", .list (t.byproducts.map .text))])

def tree (c : Config) : Fields :=
  [("root", .text c.root),
    ("corpus", .map [("dir", .text c.corpusDir), ("extension", .text c.corpusExt)]),
    ("artifact", .map [("extension", .text c.artifactExt)]),
    ("timing", .map (c.timing.fields.map fun f => (f.1, .text f.2.render))),
    ("tools", .list (c.tools.map toolTree)),
    ("log", .map (("level", .text c.log.level) :: optionalText "file" c.log.file))]

def dump (c : Config) : String := Yaml.written (tree c)

end Crosscheck.Settings
