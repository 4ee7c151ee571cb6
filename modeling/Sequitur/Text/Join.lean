/-!
# Lists in a row

Texts are put in a row with a separating text between neighbours, and so are lists of lines
with separating lines.
-/

namespace Sequitur.Text

/-- Lists one after the other with a separator between neighbours. -/
def joinWith (separator : List α) : List (List α) → List α
  | [] => []
  | [text] => text
  | text :: texts => text ++ separator ++ joinWith separator texts

def listed (texts : List (List Char)) : List Char := joinWith [',', ' '] texts

end Sequitur.Text
