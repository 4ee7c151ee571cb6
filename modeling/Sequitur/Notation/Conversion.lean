import Sequitur.Notation.Canonical.Layout
import Sequitur.Notation.Canonical.Printer
import Sequitur.Notation.Display.Layout
import Sequitur.Notation.Display.Printer

/-!
# From one notation to the other

People write the display notation; engines keep and report rules in the canonical one.
-/

namespace Sequitur.Notation

/-- The canonical text of a rule given in display notation. -/
def canonicalOfDisplay (text : String) : Except ParseError String :=
  (Display.readRule text).map Canonical.printRule

/-- The display text of a rule given in canonical notation. -/
def displayOfCanonical (text : String) : Except ParseError String :=
  (Canonical.readRule text).map Display.printRule

end Sequitur.Notation
