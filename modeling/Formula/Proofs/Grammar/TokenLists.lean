import Formula.Proofs.Grammar.Bounds
import Formula.Proofs.Lexing.Lexes
import Formula.Proofs.Stream.Simulation

/-!
# Parsing a list of tokens

A reader finds its tokens as they are asked for, again and again after it has gone back, and counts
its places in bytes. A list holds all tokens of the line at once and counts them. A byte offset and
an index correspond if the tokens from the offset on are those from the index on, whether or not the
blanks in front of the next token have been read. The rules keep to corresponding places, so a line
is parsed as its tokens are.

## Main definitions

* `Corresponds` — a place in a line and an index in the list of its tokens

## Main results

* `simulation_corresponds` — readers and lists of tokens read and go back in step
* `alike_statement` — the rules give the same from corresponding places
* `parse_eq_parseTokens` — a line is parsed as its tokens are
-/

namespace Formula

/-- The tokens from a place in the line on are those from an index on in all tokens of the line. -/
structure Corresponds (line : String) (r : Reader) (l : TokenList) : Prop where
  text_eq : r.text = line.toList
  tokens_eq : l.tokens = tokens line
  drop_eq : l.tokens.drop l.index = r.tokens

section Correspondence

variable {line : String} {r : Reader} {l : TokenList} {t : Token}

/-- The last token of a reader is a stop. -/
theorem Reader.isStop_of_mem_getLast? (last : t ∈ r.tokens.getLast?) : t.isStop = true := by
  obtain ⟨ts, r', -, stop, all⟩ := r.exists_tokens_eq
  rw [all, List.getLast?_concat] at last
  obtain rfl := Option.some.inj last
  exact stop

/-- A reader has one token at least. -/
theorem Reader.tokens_ne_nil (r : Reader) : r.tokens ≠ [] := by
  cases stop : r.next.1.isStop with
  | true => simp [Reader.tokens_of_isStop stop]
  | false => simp [Reader.tokens_of_not_isStop stop]

/-- Reading a token leads from corresponding places to corresponding places. -/
theorem Corresponds.next (corresponds : Corresponds line r l) :
    r.next.1 = l.next.1 ∧ Corresponds line r.next.2 l.next.2 := by
  obtain ⟨text, all, ahead⟩ := corresponds
  cases stop : r.next.1.isStop with
  | true =>
    -- Both the reader and the list give the stop again from here on.
    rw [Reader.tokens_of_isStop stop] at ahead
    have here : l.next = (r.next.1, l) := by rw [TokenList.next, ahead]
    have again : r.next.2.next.1.isStop = true := by rw [Reader.next_next_of_isStop stop, stop]
    rw [here]
    refine ⟨rfl, text, all, ?_⟩
    rw [ahead, Reader.tokens_of_isStop again, Reader.next_next_of_isStop stop]
  | false =>
    rw [Reader.tokens_of_not_isStop stop] at ahead
    obtain ⟨t, rest, later⟩ := List.exists_cons_of_ne_nil r.next.2.tokens_ne_nil
    rw [later] at ahead
    rw [TokenList.next_of_drop ahead]
    refine ⟨rfl, text, all, ?_⟩
    rw [← List.drop_drop, ahead, later]
    rfl

/-- Readers of a line and its list of tokens read and go back in step. -/
theorem simulation_corresponds (line : String) : Simulation (Corresponds line) where
  next := Corresponds.next
  seek {r r' l l'} corresponds corresponds' := by
    -- In one text, the offset of a place leads back to it, and so does an index in one list.
    have back : r'.seek r.offset = r :=
      Reader.seek_offset (corresponds'.text_eq.trans corresponds.text_eq.symm)
    have same : (⟨l'.tokens, l.index⟩ : TokenList) = l :=
      congrArg (TokenList.mk · l.index) (corresponds'.tokens_eq.trans corresponds.tokens_eq.symm)
    change Corresponds line (r'.seek r.offset) ⟨l'.tokens, l.index⟩
    rwa [back, same]

/-- The list of tokens of a line can be read no further than it goes. -/
theorem Corresponds.bounded (corresponds : Corresponds line r l) : Bounded l := by
  refine TokenList.bounded fun t last => ?_
  rw [corresponds.tokens_eq] at last
  exact Reader.isStop_of_mem_getLast? last

/-- A line and its tokens begin together. -/
theorem corresponds_start (line : String) : Corresponds line (Reader.ofString line) ⟨tokens line, 0⟩
    where
  text_eq := rfl
  tokens_eq := rfl
  drop_eq := rfl

end Correspondence

section Rules

variable {line : String}

/-- Both streams bound the rule of expressions in their own way, and more than enough for either is
enough for both. -/
theorem alike_expression :
    Rule.Alike (Corresponds line) (Rule.expression : Rule Reader Expr) Rule.expression := by
  intro r l corresponds
  let steps := TokenStream.remaining r + TokenStream.remaining l
  have left : Rule.expressionWithin steps steps r = Rule.expression r :=
    expressionWithin_eq_expression r.bounded (by omega) (by omega)
  have right : Rule.expressionWithin steps steps l = Rule.expression l :=
    expressionWithin_eq_expression corresponds.bounded (by omega) (by omega)
  rw [← left, ← right]
  exact Rule.alike_expressionWithin (simulation_corresponds line) steps steps r l corresponds

theorem alike_assignment :
    Rule.Alike (Corresponds line) (Rule.assignment : Rule Reader Statement) Rule.assignment := by
  have simulation := simulation_corresponds line
  exact ((Rule.alike_token simulation _).bind fun _ => (Rule.alike_token simulation _).bind fun _ =>
    alike_expression.bind fun _ => Rule.alike_pure _).attempt simulation

/-- Statements are read alike from corresponding places. -/
theorem alike_statement :
    Rule.Alike (Corresponds line) (Rule.statement : Rule Reader Statement) Rule.statement :=
  alike_assignment.orElse (alike_expression.bind fun _ => Rule.alike_pure _)

theorem alike_atEnd : Rule.Alike (Corresponds line) (Rule.atEnd : Rule Reader Unit) Rule.atEnd :=
  (Rule.alike_token (simulation_corresponds line) _).attempt (simulation_corresponds line)

end Rules

namespace Statement

/-- A line is parsed as its tokens are. -/
theorem parse_eq_parseTokens (strictness : Strictness) (line : String) :
    parse strictness line = parseTokens strictness (tokens line) := by
  have start := corresponds_start line
  obtain ⟨m, m', failed, failed', _⟩ | ⟨a, m, m', given, given', later⟩ :=
    alike_statement.cases start
  · simp [parse, parseTokens, ofStream?, failed, failed']
  · cases strictness with
    | lenient => simp [parse, parseTokens, ofStream?, given, given']
    | strict =>
      -- Behind the statement both streams are at their end, or neither is.
      have ending := (alike_atEnd m m' later).1
      simp [parse, parseTokens, ofStream?, given, given', ending]

/-- **Reading on demand is parsing a list.** Parsed from its text, with blanks and bytes and every
token read as often as it is asked for, a line gives what the rules give on the list of all its
tokens. So lines with equal tokens are parsed alike, strictly and leniently, however they are
spaced. -/
theorem parse_determined_by_tokens :
    (∀ strictness line, parse strictness line = parseTokens strictness (tokens line)) ∧
    ∀ strictness line line', tokens line = tokens line' →
      parse strictness line = parse strictness line' := by
  refine ⟨parse_eq_parseTokens, fun strictness line line' same => ?_⟩
  rw [parse_eq_parseTokens, parse_eq_parseTokens, same]

/-- A line with an open parenthesis, and the same with blanks and more digits: strictly neither is a
statement, and leniently both are what is in front of the last operator. -/
theorem parse_determined_by_tokens_spaced :
    tokens "é=1+2*(x" = tokens " é =\t1.0 + 2. * ( x" ∧
    parse .strict "é=1+2*(x" = parse .strict " é =\t1.0 + 2. * ( x" ∧
    parse .lenient "é=1+2*(x" = parse .lenient " é =\t1.0 + 2. * ( x" ∧
    parseTokens .lenient (tokens " é =\t1.0 + 2. * ( x") = some (.assignment "é"
      (.binary .add (.number (.ofRatio 1 1)) (.number (.ofRatio 2 1)))) := by
  obtain ⟨onDemand, alike⟩ := parse_determined_by_tokens
  have same : tokens "é=1+2*(x" = tokens " é =\t1.0 + 2. * ( x" := by decide +kernel
  refine ⟨same, alike _ _ _ same, alike _ _ _ same, ?_⟩
  rw [← onDemand, ← alike _ _ _ same]
  decide +kernel

end Statement

end Formula
