import Formula.Proofs.Grammar.Counting
import Formula.Proofs.Grammar.Precedence

/-!
# Substitution

The names and numbers of a statement are its words, numbered in the order in which they are written.
A word of a line can be exchanged for an expression in parentheses: the tokens around it stay as they
are, the line is a statement exactly if it was one before, and of its statement nothing but that
word has changed.

## Main definitions

* `Expr.words`, `Statement.words` — the words of an expression and of a statement
* `Expr.replaceWord`, `Statement.replaceWord` — an expression in place of a word
* `WordAt` — a word of a line, with what is read before it

## Main results

* `Phrase.Derives.replaceWord` — an operand among tokens is exchanged in the expression as well
* `parse_replaceWord` — parsing commutes with substitution
-/

namespace Formula

open Statement

/-- The name or the number that a token is, as an expression. -/
def Token.word? : Token → Option Expr
  | name text => some (.name text)
  | number value => some (.number value)
  | _ => none

@[simp] theorem Token.word?_name (text : String) : (name text).word? = some (.name text) := rfl

@[simp] theorem Token.word?_number (value : Double) :
    (number value).word? = some (.number value) := rfl

@[simp] theorem Token.word?_symbol (s : Symbol) : (symbol s).word? = none := rfl

namespace Expr

/-- The names and numbers of an expression, from left to right. -/
def words : Expr → List Expr
  | name text => [name text]
  | number value => [number value]
  | binary _ left right => left.words ++ right.words

/-- The expression with another one in place of its word with the given number. -/
def replaceWord (e : Expr) (k : Nat) (new : Expr) : Expr :=
  match e with
  | name _ | number _ => if k = 0 then new else e
  | binary op left right =>
    if k < left.words.length then binary op (left.replaceWord k new) right
    else binary op left (right.replaceWord (k - left.words.length) new)

end Expr

namespace Statement

/-- The names and numbers of a statement, as they are written: first of all the name that is
assigned to, if there is one. -/
def words : Statement → List Expr
  | expression e => e.words
  | assignment target e => .name target :: e.words

/-- The statement with an expression in place of its word with the given number. Nothing but a name
can be assigned to, so the target stays. -/
def replaceWord : Statement → Nat → Expr → Statement
  | expression e, k, new => expression (e.replaceWord k new)
  | assignment target e, 0, _ => assignment target e
  | assignment target e, k + 1, new => assignment target (e.replaceWord k new)

end Statement

section Words

variable {p : Phrase} {ts before after other : List Token} {t : Token} {e word new : Expr}
variable {ops : List Operation} {statement : Statement} {k : Nat}

theorem Expr.words_foldl_apply (ops : List Operation) (e : Expr) :
    (ops.foldl Operation.apply e).words = e.words ++ ops.flatMap (·.right.words) := by
  induction ops generalizing e with
  | nil => simp
  | cons o ops ih => simp [ih, Operation.apply, words]

/-- The words of operations are those of their operands. -/
theorem filterMap_word?_written
    (operands : ∀ o ∈ ops, o.tokens.filterMap Token.word? = o.right.words) :
    (ops.flatMap Operation.written).filterMap Token.word? = ops.flatMap (·.right.words) := by
  induction ops with
  | nil => rfl
  | cons o ops ih =>
    obtain ⟨first, others⟩ := List.forall_mem_cons.mp operands
    simp [Operation.written, List.filterMap_cons, first, ih others]

/-- The words of an expression are the names and numbers among its tokens, in the same order. -/
theorem Phrase.Derives.words_eq (derives : p.Derives ts e) :
    e.words = ts.filterMap Token.word? := by
  induction derives with
  | name _ | number _ => rfl
  | parenthesized _ ih => simp [List.filterMap_cons, ih]
  | chain _ _ _ ihFirst ihOps =>
    rw [Expr.words_foldl_apply, List.filterMap_append, ihFirst,
      filterMap_word?_written fun o member => (ihOps o member).symm]

/-- The words of a statement are the names and numbers among its tokens, in the same order. -/
theorem DerivesStatement.words_eq (derives : DerivesStatement ts statement) :
    statement.words = ts.filterMap Token.word? := by
  cases derives with
  | assignment target derives => simp [words, List.filterMap_cons, derives.words_eq]
  | expression derives => exact derives.words_eq

/-! ### Words in chains -/

theorem Expr.replaceWord_binary_left {op : Operator} {left right : Expr}
    (inside : k < left.words.length) :
    (binary op left right).replaceWord k new = binary op (left.replaceWord k new) right := by
  rw [replaceWord, if_pos inside]

theorem Expr.replaceWord_binary_right (op : Operator) (left right : Expr) (k : Nat) (new : Expr) :
    (binary op left right).replaceWord (left.words.length + k) new =
      binary op left (right.replaceWord k new) := by
  rw [replaceWord, if_neg (Nat.not_lt.mpr (Nat.le_add_right _ k)), Nat.add_sub_cancel_left]

/-- A word of the first operand is replaced there. -/
theorem Expr.replaceWord_foldl_of_lt (inside : k < e.words.length) (ops : List Operation) :
    (ops.foldl Operation.apply e).replaceWord k new =
      ops.foldl Operation.apply (e.replaceWord k new) := by
  induction ops generalizing e with
  | nil => rfl
  | cons o ops ih =>
    have longer : k < (Operation.apply e o).words.length := by
      simp only [Operation.apply, words, List.length_append]
      omega
    rw [List.foldl_cons, ih longer, Operation.apply, replaceWord_binary_left inside]
    rfl

/-- A word of an operation is replaced there. -/
theorem Expr.replaceWord_foldl_append {o : Operation} (inside : k < o.right.words.length)
    (first last : List Operation) :
    ((first ++ o :: last).foldl Operation.apply e).replaceWord
        ((first.foldl Operation.apply e).words.length + k) new =
      last.foldl Operation.apply
        (binary o.op (first.foldl Operation.apply e) (o.right.replaceWord k new)) := by
  rw [List.foldl_append, List.foldl_cons, replaceWord_foldl_of_lt, Operation.apply,
    replaceWord_binary_right]
  simp only [Operation.apply, words, List.length_append]
  omega

/-! ### Words among tokens -/

/-- A word among the tokens of operations is one of an operand. -/
theorem exists_operation_of_word (isWord : t.word? = some word)
    (tokens : ops.flatMap Operation.written = before ++ t :: after) :
    ∃ (first : List Operation) (o : Operation) (last : List Operation) (front back : List Token),
      ops = first ++ o :: last ∧ o.tokens = front ++ t :: back ∧
      before = first.flatMap Operation.written ++ .symbol (.operator o.op) :: front ∧
      after = back ++ last.flatMap Operation.written := by
  induction ops generalizing before with
  | nil => simp at tokens
  | cons o ops ih =>
    rw [List.flatMap_cons] at tokens
    rcases append_eq_append_cons tokens with ⟨back, inside, rfl⟩ | ⟨more, rfl, behind⟩
    · -- The operator in front of the operand is no word.
      cases before with
      | nil =>
        obtain ⟨rfl, _⟩ := List.cons.inj inside
        cases isWord
      | cons sign front =>
        obtain ⟨rfl, operand⟩ := List.cons.inj inside
        exact ⟨[], o, ops, front, back, rfl, operand, rfl, rfl⟩
    · obtain ⟨first, o', last, front, back, rfl, operand, rfl, rfl⟩ := ih behind
      exact ⟨o :: first, o', last, front, back, rfl, operand, by simp, rfl⟩

/-- A word between two symbols has one of them before it and the other behind it. -/
theorem exists_inside_of_word {s s' : Symbol} (isWord : t.word? = some word)
    (tokens : .symbol s :: ts ++ [.symbol s'] = before ++ t :: after) :
    ∃ front back, ts = front ++ t :: back ∧ before = .symbol s :: front ∧
      after = back ++ [.symbol s'] := by
  rcases append_eq_append_cons tokens with ⟨back, inside, rfl⟩ | ⟨more, _, behind⟩
  · cases before with
    | nil =>
      obtain ⟨rfl, _⟩ := List.cons.inj inside
      cases isWord
    | cons sign front =>
      obtain ⟨rfl, rfl⟩ := List.cons.inj inside
      exact ⟨front, back, rfl, rfl, rfl⟩
  · cases more with
    | nil =>
      obtain ⟨rfl, _⟩ := List.cons.inj behind
      cases isWord
    | cons sign more => simp at behind

/-- **An operand in place of a word.** Where an operand takes the place of a word among the tokens
of a phrase, its expression takes the place of that word in the expression. -/
theorem Phrase.Derives.replaceWord (derives : p.Derives (before ++ t :: after) e)
    (isWord : t.word? = some word) (derivesNew : Phrase.operand.Derives other new) :
    p.Derives (before ++ (other ++ after))
      (e.replaceWord (before.filterMap Token.word?).length new) := by
  generalize tokens : before ++ t :: after = ts at derives
  induction derives generalizing before after with
  | name _ | number _ =>
    -- The word is all there is.
    rcases List.append_eq_singleton_iff.mp tokens with ⟨rfl, single⟩ | ⟨_, none⟩
    · obtain ⟨_, rfl⟩ := List.cons.inj single
      simpa [Expr.replaceWord] using derivesNew
    · exact absurd none (List.cons_ne_nil _ _)
  | parenthesized _ ih =>
    obtain ⟨front, back, rfl, rfl, rfl⟩ := exists_inside_of_word isWord tokens.symm
    have inside := (ih rfl).parenthesized
    simpa [List.filterMap_cons] using inside
  | @chain l first e ops derivesFirst levels derivesOps ihFirst ihOps =>
    rcases append_eq_append_cons tokens.symm with ⟨back, rfl, rfl⟩ | ⟨front, rfl, behind⟩
    · have inside : (before.filterMap Token.word?).length < e.words.length := by
        simp [derivesFirst.words_eq, isWord]
      rw [Expr.replaceWord_foldl_of_lt inside]
      have whole := Derives.chain (ihFirst rfl) levels derivesOps
      simpa using whole
    · obtain ⟨opsBefore, o, opsAfter, front, back, rfl, operand, rfl, rfl⟩ :=
        exists_operation_of_word isWord behind
      rw [List.forall_mem_append, List.forall_mem_cons] at levels derivesOps
      have inside : (front.filterMap Token.word?).length < o.right.words.length := by
        simp [derivesOps.2.1.words_eq, operand, isWord]
      -- The words before the operation are those of the chain before it.
      have before := filterMap_word?_written fun o member => (derivesOps.1 o member).words_eq.symm
      have number : ((first ++ (opsBefore.flatMap Operation.written ++
          .symbol (.operator o.op) :: front)).filterMap Token.word?).length =
          (opsBefore.foldl Operation.apply e).words.length +
            (front.filterMap Token.word?).length := by
        simp [List.filterMap_cons, Expr.words_foldl_apply, derivesFirst.words_eq, before,
          Nat.add_assoc]
      rw [number, Expr.replaceWord_foldl_append inside]
      let exchanged : Operation := ⟨o.op, front ++ (other ++ back),
        o.right.replaceWord (front.filterMap Token.word?).length new⟩
      have derivesExchanged : l.operands.Derives exchanged.tokens exchanged.right :=
        ihOps o (by simp) operand.symm
      have whole := @Derives.chain l first e (opsBefore ++ exchanged :: opsAfter) derivesFirst
        (List.forall_mem_append.mpr ⟨levels.1, List.forall_mem_cons.mpr levels.2⟩)
        (List.forall_mem_append.mpr ⟨derivesOps.1,
          List.forall_mem_cons.mpr ⟨derivesExchanged, derivesOps.2.2⟩⟩)
      simpa [Operation.written, Operation.apply, exchanged] using whole

/-- A word is an operand by itself. -/
theorem derives_of_word? (isWord : t.word? = some word) : Phrase.operand.Derives [t] word := by
  cases t with
  | name text =>
    obtain rfl := Option.some.inj isWord
    exact .name text
  | number value =>
    obtain rfl := Option.some.inj isWord
    exact .number value
  | symbol _ | endOfText | unreadable => cases isWord

/-- An operand takes the place of a word in a statement, unless something is assigned to the word. -/
theorem DerivesStatement.replaceWord (derives : DerivesStatement (before ++ t :: after) statement)
    (isWord : t.word? = some word) (derivesNew : Phrase.operand.Derives other new)
    (notTarget : ¬(before = [] ∧ (∃ name, word = .name name) ∧
      after.head? = some (.symbol .equals))) :
    DerivesStatement (before ++ (other ++ after))
      (statement.replaceWord (before.filterMap Token.word?).length new) := by
  generalize tokens : before ++ t :: after = ts at derives
  cases derives with
  | assignment target derives =>
    -- The word is neither the target nor the equals sign.
    rcases before with _ | ⟨name, _ | ⟨sign, before⟩⟩
    · obtain ⟨rfl, rfl⟩ := List.cons.inj tokens
      exact absurd ⟨rfl, ⟨target, (Option.some.inj isWord).symm⟩, rfl⟩ notTarget
    · obtain ⟨rfl, _⟩ := List.cons.inj (List.cons.inj tokens).2
      cases isWord
    · simp only [List.cons_append, List.cons.injEq] at tokens
      obtain ⟨rfl, rfl, rfl⟩ := tokens
      have value := derives.replaceWord isWord derivesNew
      simpa [List.filterMap_cons, Statement.replaceWord] using assignment target value
  | expression derives =>
    subst tokens
    exact .expression (derives.replaceWord isWord derivesNew)

/-- Where parentheses that stand for a word are part of a statement, the word is as well. -/
theorem DerivesStatement.exists_of_replaced {inside : List Token}
    (derives : DerivesStatement (before ++ (.symbol .openParen :: inside ++ after)) statement)
    (isWord : t.word? = some word)
    (derivesNew : Phrase.operand.Derives (.symbol .openParen :: inside) new) :
    ∃ a, DerivesStatement (before ++ t :: after) a := by
  have exchange (before : List Token) {e : Expr}
      (derives : Phrase.expression.Derives (before ++ (.symbol .openParen :: inside ++ after)) e) :
      ∃ e, Phrase.expression.Derives (before ++ t :: after) e :=
    (exists_derives_exchange (derives_of_word? isWord) derivesNew).mpr ⟨e, derives⟩
  generalize tokens : before ++ (.symbol .openParen :: inside ++ after) = ts at derives
  cases derives with
  | assignment target derives =>
    -- An assignment does not begin with a parenthesis, nor does it have one for an equals sign.
    rcases before with _ | ⟨name, _ | ⟨sign, before⟩⟩
    · cases (List.cons.inj tokens).1
    · cases (List.cons.inj (List.cons.inj tokens).2).1
    · simp only [List.cons_append, List.cons.injEq] at tokens
      obtain ⟨rfl, rfl, rfl⟩ := tokens
      obtain ⟨e, value⟩ := exchange before derives
      exact ⟨_, .assignment target value⟩
  | expression derives =>
    subst tokens
    obtain ⟨e, value⟩ := exchange before derives
    exact ⟨_, .expression value⟩

/-- Tokens write a statement with parentheses in place of a word exactly if they do with the word,
unless something is assigned to it. -/
theorem exists_derivesStatement_replaced_iff {inside : List Token} (isWord : t.word? = some word)
    (derivesNew : Phrase.operand.Derives (.symbol .openParen :: inside) new)
    (notTarget : ¬(before = [] ∧ (∃ name, word = .name name) ∧
      after.head? = some (.symbol .equals))) :
    (∃ a, DerivesStatement (before ++ (.symbol .openParen :: inside ++ after)) a) ↔
      ∃ a, DerivesStatement (before ++ t :: after) a := by
  constructor
  · rintro ⟨a, derives⟩
    exact derives.exists_of_replaced isWord derivesNew
  · rintro ⟨a, derives⟩
    exact ⟨_, derives.replaceWord isWord derivesNew notTarget⟩

end Words

/-! ### Lines -/

/-- Reading `u ++ z ++ v` from its start gives the tokens `before` and leads to the end of `u`, and
the next token is the word that is written by `z`, all of it, so that `v` is left. -/
structure WordAt (u z v : String) (before : List Token) (word : Expr) : Prop where
  exists_reader : ∃ r, Reads (Reader.ofString (u ++ z ++ v)) before r ∧
    r.unread.dropWhile isBlank = z.toList ++ v.toList ∧ r.next.1.word? = some word ∧
    r.next.2.unread = v.toList

section Lines

variable {u z v line : String} {before ts : List Token} {word value : Expr} {t : Token}

/-- The word of a line is one of its tokens. -/
theorem WordAt.exists_tokens (occurs : WordAt u z v before word) :
    ∃ t, t.word? = some word ∧ tokens (u ++ z ++ v) = before ++ t :: tokens v := by
  obtain ⟨r, reads, _, isWord, left⟩ := occurs.exists_reader
  have goesOn : r.next.1.isStop = false := by
    cases t : r.next.1 <;> simp_all [Token.word?, Token.isStop]
  refine ⟨r.next.1, isWord, ?_⟩
  have behind : r.next.2.tokens = tokens v := Reader.tokens_eq_of_unread left
  rw [tokens, reads.tokens_eq, Reader.tokens_of_not_isStop goesOn, behind]

/-- In front of the word the line is split as it would be in front of any separator. -/
theorem WordAt.exists_apart (occurs : WordAt u z v before word) :
    ∃ front blanks, u.toList = front ++ blanks ∧ (∀ c ∈ blanks, isBlank c = true) ∧
      LexesApart front before := by
  obtain ⟨r, reads, there, _, _⟩ := occurs.exists_reader
  obtain ⟨front, text, apart⟩ := (reads_iff_lexes.mp reads).2.exists_apart
  refine ⟨front, r.unread.takeWhile isBlank, ?_, fun _ => List.mem_takeWhile_imp, apart⟩
  -- What is not read yet begins with the blanks in front of the word.
  have unread : r.unread = r.unread.takeWhile isBlank ++ (z.toList ++ v.toList) := by
    rw [← there, List.takeWhile_append_dropWhile]
  have whole : (u.toList ++ (z.toList ++ v.toList)) =
      (front ++ r.unread.takeWhile isBlank) ++ (z.toList ++ v.toList) := by
    rw [List.append_assoc, ← unread, ← text]
    simp [Reader.ofString]
  exact List.append_cancel_right whole

/-- The line with an expression in parentheses in place of the word has its tokens in place of the
word. -/
theorem WordAt.exists_tokens_replaced (occurs : WordAt u z v before word)
    (parsed : parse .strict line = some (.expression value)) :
    ∃ inside : List Token, Phrase.operand.Derives (.symbol .openParen :: inside) value ∧
      tokens (u ++ "(" ++ line ++ ")" ++ v) =
        before ++ (.symbol .openParen :: inside ++ tokens v) := by
  obtain ⟨ts, derives, lexes⟩ := exists_parenthesized_of_parse parsed
  obtain ⟨front, blanks, text, blank, apart⟩ := occurs.exists_apart
  have operand := derives.parenthesized
  rw [List.cons_append] at operand
  refine ⟨_, operand, ?_⟩
  have separated : ∀ c ∈ (blanks ++ '(' :: (line.toList ++ ')' :: v.toList)).head?,
      separates c = true := fun _ => separates_of_mem_head? blank (by decide)
  have whole := (apart _ separated).append ((lexes v.toList).blanks blank)
  have pieces : (u ++ "(" ++ line ++ ")" ++ v).toList =
      front ++ (blanks ++ '(' :: (line.toList ++ ')' :: v.toList)) := by
    simp [text]
  rw [← pieces] at whole
  rw [whole.tokens_eq, String.ofList_toList, List.append_assoc]
  simp

/-- A line has a statement strictly if its tokens before the stop write it and the stop is the end of
the text. -/
theorem parse_strict_eq_some_iff_of_tokens {stop : Token} {a : Statement}
    (all : tokens line = ts ++ [stop]) :
    parse .strict line = some a ↔ stop = .endOfText ∧ DerivesStatement ts a := by
  rw [parse_strict_eq_some_iff, all]
  constructor
  · rintro ⟨us, same, derives⟩
    obtain ⟨rfl, ending⟩ := List.append_inj' same rfl
    exact ⟨List.singleton_inj.mp ending, derives⟩
  · rintro ⟨rfl, derives⟩
    exact ⟨ts, rfl, derives⟩

theorem isSome_parse_strict_iff_of_tokens {stop : Token} (all : tokens line = ts ++ [stop]) :
    (parse .strict line).isSome = true ↔ stop = .endOfText ∧ ∃ a, DerivesStatement ts a := by
  simp [Option.isSome_iff_exists, parse_strict_eq_some_iff_of_tokens all]

/-- **Parsing commutes with substitution.** A word of a line that nothing is assigned to can be
exchanged for an expression in parentheses: the line is strictly a statement exactly if it was one
before. The words of a statement are those of its line, and the one that is exchanged is the only
place where the two statements differ. -/
theorem parse_replaceWord (occurs : WordAt u z v before word)
    (notTarget : ¬(before = [] ∧ (∃ name, word = .name name) ∧
      (tokens (u ++ z ++ v))[1]? = some (.symbol .equals)))
    (parsed : parse .strict line = some (.expression value)) :
    ((parse .strict (u ++ "(" ++ line ++ ")" ++ v)).isSome ↔
      (parse .strict (u ++ z ++ v)).isSome) ∧
    ∀ a, parse .strict (u ++ z ++ v) = some a →
      a.words = (tokens (u ++ z ++ v)).filterMap Token.word? ∧
      a.words[(before.filterMap Token.word?).length]? = some word ∧
      parse .strict (u ++ "(" ++ line ++ ")" ++ v) =
        some (a.replaceWord (before.filterMap Token.word?).length value) := by
  obtain ⟨t, isWord, all⟩ := occurs.exists_tokens
  obtain ⟨inside, derivesNew, allNew⟩ := occurs.exists_tokens_replaced parsed
  obtain ⟨after, last, -, -, behind⟩ := (Reader.ofString v).exists_tokens_eq
  rw [← tokens] at behind
  have whole : tokens (u ++ z ++ v) = before ++ t :: after ++ [last.next.1] := by
    simp [all, behind]
  have wholeNew : tokens (u ++ "(" ++ line ++ ")" ++ v) =
      before ++ (.symbol .openParen :: inside ++ after) ++ [last.next.1] := by
    simp [allNew, behind]
  -- An assignment to the word has the equals sign as its second token.
  have notTarget' : ¬(before = [] ∧ (∃ name, word = .name name) ∧
      after.head? = some (.symbol .equals)) := by
    rintro ⟨rfl, name, equals⟩
    refine notTarget ⟨rfl, name, ?_⟩
    cases after <;> simp_all
  refine ⟨?_, fun a given => ?_⟩
  · rw [isSome_parse_strict_iff_of_tokens whole, isSome_parse_strict_iff_of_tokens wholeNew,
      exists_derivesStatement_replaced_iff isWord derivesNew notTarget']
  · obtain ⟨ending, derives⟩ := (parse_strict_eq_some_iff_of_tokens whole).mp given
    refine ⟨?_, ?_, (parse_strict_eq_some_iff_of_tokens wholeNew).mpr
      ⟨ending, derives.replaceWord isWord derivesNew notTarget'⟩⟩
    · rw [whole, derives.words_eq, ending]
      simp [List.filterMap_cons, Token.word?]
    · rw [derives.words_eq]
      simp [isWord]

/-- A difference takes the place of the base of a power, and it stays the base. Behind a number with
nothing between them it is as wrong as the name was. -/
theorem parse_replaceWord_base :
    let difference : Expr := .binary .subtract (.name "x") (.name "y")
    let two : Expr := .number (numeralValue ['2'] [])
    parse .strict "a=2*(x -y\t)^c" = some (.assignment "a"
      (.binary .multiply two (.binary .power difference (.name "c")))) ∧
    parse .strict "2(x -y\t)" = none := by
  intro difference two
  have parsed : parse .strict "x -y\t" = some (.expression difference) := by decide +kernel
  have base : WordAt "a=2*" "b" "^c" [.name "a", .symbol .equals, .number (numeralValue ['2'] []),
      .symbol (.operator .multiply)] (.name "b") :=
    ⟨⟨_, "b^c".toList, by decide⟩, .cons rfl rfl (.cons rfl rfl (.cons rfl rfl
      (.cons rfl rfl (.nil _)))), by decide +kernel⟩
  have behind : WordAt "2" "b" "" [.number (numeralValue ['2'] [])] (.name "b") :=
    ⟨⟨_, ['b'], by decide⟩, .cons rfl rfl (.nil _), by decide +kernel⟩
  have accepted := (parse_replaceWord base (by simp) parsed).2
    (.assignment "a" (.binary .multiply two (.binary .power (.name "b") (.name "c"))))
    (by decide +kernel)
  have rejected := (parse_replaceWord behind (by simp) parsed).1
  refine ⟨accepted.2.2, ?_⟩
  rw [← Option.not_isSome_iff_eq_none]
  exact rejected.not.mpr (by decide +kernel)

end Lines

end Formula
