import HelperImports.Text.Bytes

/-! The help text. -/

namespace HelperImports

/-- What the tool does. -/
def longDescription : List String :=
  ["vei adds the visual editor attribute helper import to component sources.",
   "",
   "For every PATH that references the helper, vei makes sure the file imports it",
   "from the bindings module and moves that import to a canonical position:",
   "",
   "1. just after the last regular (non-type) import",
   "2. in front of the grouped \"import type \x7b ... \x7d from '../types';\" block",
   "   whenever rule 1 would land inside it",
   "",
   "Files that never mention the helper are left untouched. PATH may also be a",
   "directory, in which case all .ts, .tsx, .js, .jsx, .mjs and .cjs files below",
   "it are processed, skipping node_modules and hidden directories.",
   "",
   "Settings can also come from VEI_HELPER, VEI_BINDINGS_MODULE or a .vei.yaml",
   "file in the working directory."]

/-- How the tool is called. -/
def usage : List String :=
  ["Usage:",
   "  vei [flags] PATH...",
   "",
   "Flags:",
   "      --bindings-module string   Bindings module location, relative to the working directory (default \"utils/stackbitBindings\")",
   "      --check                    Fail if any file would be changed, without writing",
   "      --config string            Path to a config file (default: .vei.yaml in the working directory)",
   "      --dry-run                  Print the changes as a diff instead of writing files",
   "  -h, --help                     help for vei",
   "      --helper string            Helper identifier whose usage requires the import (default \"getVisualEditorAttributes\")",
   "      --verbose                  Log per-file results to stderr",
   "  -v, --version                  Show version information"]

/-- The help text, with the newline that ends it. -/
def helpText : Bytes := bytes ("\n".intercalate (longDescription ++ "" :: usage) ++ "\n")

end HelperImports
