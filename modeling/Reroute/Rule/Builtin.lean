import Reroute.Rule.Basic

/-!
# The builtin rule

The rule that routes every dynamic import call through the page-level polyfill.
-/

namespace Reroute.Rule

def builtinId : Bytes :=
  utf8 "importshim.dynamic-import"

/-- The builtin rule: calls of `import(` go through `window.import(`. -/
def builtin : Rule :=
  complete
    { id := builtinId
      name := utf8 "Dynamic import via global polyfill"
      pattern := utf8 "import("
      replacement := utf8 "window.import("
      structuralId := []
      description :=
        utf8 "Routes every dynamic import call through the page-level polyfill entry point. Matching is textual: occurrences inside string literals and comments are rewritten as well."
      examples :=
        [utf8 "x(); import(\"./a\"); y();", utf8 "import('a'); import('b');",
          utf8 "console.log('import(')"]
      negativeExamples :=
        [utf8 "no dynamic calls here", utf8 "import React from 'react';",
          utf8 "import ('spaced')"]
      references := [utf8 "https://github.com/GoogleChromeLabs/dynamic-import-polyfill"]
      keywords := [utf8 "import("] }

def builtins : List Rule :=
  [builtin]

end Reroute.Rule
