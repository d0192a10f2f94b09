import Formula.Double.Text
import Formula.Token.Symbol

/-!
# Tokens

## Main definitions

* `Token` — a number, a name, a symbol, or one of the two ways reading stops
* `Token.text` — how a token is displayed
* `Token.isStop` — does reading stop at the token?
* `Token.isSymbolIn` — is the token a symbol from a given set?
-/

namespace Formula

/-- What is read next from a text. -/
inductive Token where
  | number (value : Double)
  | name (text : String)
  | symbol (s : Symbol)
  /-- Nothing but blanks is left. -/
  | endOfText
  /-- The next character begins no token. -/
  | unreadable
deriving DecidableEq, Repr

namespace Token

/-- How a token is displayed. -/
def text : Token → String
  | number value => value.text
  | name text => text
  | symbol s => String.singleton s.char
  | endOfText => "<end>"
  | unreadable => "<error>"

/-- Does reading stop at the token? No later token differs from such a one. -/
def isStop : Token → Bool
  | endOfText | unreadable => true
  | _ => false

/-- Is the token a symbol whose character occurs in `set`? -/
def isSymbolIn (set : String) : Token → Bool
  | symbol s => set.toList.contains s.char
  | _ => false

end Token

end Formula
