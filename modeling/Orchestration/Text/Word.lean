import Orchestration.Text.Ranges
import Orchestration.Text.WordTable

/-!
# Word characters
-/

namespace Orchestration.Text

/-- Whether a character may stand inside a word. -/
def isWordChar (c : Char) : Bool := inRanges wordRanges c

/-- Whether a character is an ASCII letter, an ASCII digit or `_`. -/
def isNameChar (c : Char) : Bool := c.isAlphanum || c = '_'

end Orchestration.Text
