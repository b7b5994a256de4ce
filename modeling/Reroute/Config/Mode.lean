import Reroute.Text.Blank
import Reroute.Text.Lowercase
import Reroute.Text.Quoted

/-!
# Build modes

Builds are made for production or for development.  The words for the modes may be
abbreviated, in any case, and surrounded by white space; no word means production.
-/

namespace Reroute

/-- What a build is made for. -/
inductive Mode where
  | production
  | development
  deriving DecidableEq, Repr, Inhabited

namespace Mode

def label : Mode → Bytes
  | .production => utf8 "production"
  | .development => utf8 "development"

/-- The build is made for development. -/
def isDevelopment : Mode → Bool
  | .production => false
  | .development => true

/-- A word that names no mode. -/
structure Unknown where
  word : Bytes
  deriving DecidableEq, Repr

def Unknown.message (error : Unknown) : Bytes :=
  utf8 "invalid mode: " ++ Quoted.text error.word
    ++ utf8 " (want production or development)"

/-- The mode that a word names. -/
def parse (word : Bytes) : Except Unknown Mode :=
  let folded := (Bytes.trim word).lowercase
  if folded == utf8 "" || folded == utf8 "production" || folded == utf8 "prod" then
    .ok .production
  else if folded == utf8 "development" || folded == utf8 "dev" then .ok .development
  else .error ⟨word⟩

end Mode

end Reroute
