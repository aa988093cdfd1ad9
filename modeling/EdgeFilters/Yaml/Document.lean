import EdgeFilters.Yaml.Builder
import EdgeFilters.Yaml.Lexer

namespace EdgeFilters.Yaml

/-- The document of a text; `none` if there is nothing in it. -/
def Document.read (text : String) : Reading (Option Document) := do
  Document.ofTokens (← tokens text.toList)

end EdgeFilters.Yaml
