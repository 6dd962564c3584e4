import SmallScheme.Text.Blank

/-!
# Settings

Two settings are taken from variables of the environment.  A variable holds a flag: one of four
words for yes and four for no, in any letter case and with blanks around it.  Where it holds
anything else, or is not set, the default counts.
-/

namespace SmallScheme

namespace Settings

/-- The words for yes. -/
def yesWords : List String := ["1", "true", "yes", "on"]

/-- The words for no. -/
def noWords : List String := ["0", "false", "no", "off"]

/-- The variable that makes reads of unbound names an error. -/
def strictVariable : String := "EZSCHEME_STRICT_UNBOUND"

/-- The variable that turns tracing on. -/
def traceVariable : String := "EZSCHEME_TRACE"

/-- The flag that a variable holds, if it is set and holds one. -/
def flag? (value : String) : Option Bool :=
  let word := (Text.strip value).map Char.toLower
  if yesWords.contains word then some true
  else if noWords.contains word then some false
  else none

/-- The flag of a variable that may be set. -/
def flag (value : Option String) (default : Bool) : Bool :=
  (value.bind flag?).getD default

theorem flag_none (default : Bool) : flag none default = default := rfl

end Settings

end SmallScheme
