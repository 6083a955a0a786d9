import Stencil.Value.Document
import Stencil.Locale

/-!
# `Stencil.Value.Format`: the text of a value

`Value.format` is what an interpolation shows. Doubles follow the locale, lists and maps are
written as JSON, null and enumerators show nothing.
-/

set_option autoImplicit false

namespace Stencil

/-- The text that a value shows. -/
def Value.format (l : Locale) : Value → String
  | .null => ""
  | .bool b => if b then "true" else "false"
  | .int n => toString n.toInt
  | .float x => l.formatFloat x
  | .str s => s
  | .list items => (Value.list items).toJson.render
  | .map entries => (Value.map entries).toJson.render
  | .iter _ => ""

end Stencil
