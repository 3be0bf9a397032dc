import PathExpr.Json.Printer
import PathExpr.Json.Reader

set_option autoImplicit false

namespace PathExpr.Json

/-- What reads and writes documents with numbers of type `N`, and says by `ε` why it cannot. -/
structure Library (N ε : Type) where
  read : String → Except ε (Json N)
  write : Form → Json N → Except ε String
  explain : ε → String

/-- The reader and the printer that the program comes with. -/
def Library.standard : Library Number ReadFault where
  read := parse
  write form document := .ok (document.text form)
  explain := ReadFault.message

end PathExpr.Json
