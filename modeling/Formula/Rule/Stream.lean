import Formula.Reader.Tokens

/-!
# Streams of tokens

Rules read tokens one at a time and may go back to a position they have seen. A reader of a text is
such a stream, with byte offsets as its positions; so is a list of tokens, with list positions.

## Main definitions

* `TokenStream` — reading, and going back to a position
* `TokenList` — a list of tokens read in order, whose last token is given again and again
-/

namespace Formula

/-- What rules need of the thing that they read from. -/
class TokenStream (σ : Type) where
  /-- The next token, and the stream behind it. -/
  next : σ → Token × σ
  /-- The position of the stream. -/
  position : σ → Nat
  /-- The stream at a given position. -/
  seek : σ → Nat → σ
  /-- A bound on the number of tokens before the stop. -/
  remaining : σ → Nat

instance : TokenStream Reader where
  next := Reader.next
  position := Reader.offset
  seek := Reader.seek
  remaining r := r.unread.length

/-- A list of tokens and a position in it. -/
structure TokenList where
  tokens : List Token
  index : Nat
deriving DecidableEq, Repr

namespace TokenList

/-- The next token and the list behind it. The last token is never passed. -/
def next (l : TokenList) : Token × TokenList :=
  match l.tokens.drop l.index with
  | [] => (.endOfText, l)
  | [token] => (token, l)
  | token :: _ => (token, ⟨l.tokens, l.index + 1⟩)

instance : TokenStream TokenList where
  next := next
  position := index
  seek l index := ⟨l.tokens, index⟩
  remaining l := l.tokens.length - l.index

end TokenList

end Formula
