import Formula.Proofs.Grammar.Derivation
import Formula.Proofs.Stream.Failure

/-!
# The rules and the grammar

A rule follows a phrase if it reads nothing but token lists of the phrase, leaves no trace when it
fails, and misses nothing: a token list of the phrase is read to its end when no operator of the
phrase comes behind it, and otherwise as far at least.

Each way of building a rule keeps this, so the rules of arithmetic follow their phrases. The bound
on the length of token lists is the one that makes the rules total.

## Main definitions

* `Phrase.goesOn` — can a token continue a phrase that is complete?
* `Follows` — a rule follows a phrase, on token lists up to a length

## Main results

* `follows_operand`, `follows_level` — operands and levels follow their phrases
* `follows_expressionWithin` — so do expressions
-/

namespace Formula

/-- Is the level one of those whose operators stand in the phrase outside of parentheses? -/
def Phrase.hasLevel : Phrase → Level → Bool
  | .operand, _ => false
  | .chain .power, l => l = .power
  | .chain .product, l => l = .power ∨ l = .product
  | .chain .sum, _ => true

/-- Can the token continue the phrase where it is complete? -/
def Phrase.goesOn (p : Phrase) : Token → Bool
  | .symbol (.operator op) => p.hasLevel op.level
  | _ => false

theorem Phrase.hasLevel_chain (l l' : Level) :
    (Phrase.chain l).hasLevel l' = (decide (l' = l) || l.operands.hasLevel l') := by
  cases l <;> cases l' <;> rfl

theorem Phrase.hasLevel_operands_self (l : Level) : l.operands.hasLevel l = false := by
  cases l <;> rfl

theorem Phrase.goesOn_operands {l : Level} {t : Token}
    (complete : (Phrase.chain l).goesOn t = false) : l.operands.goesOn t = false := by
  rcases t with _ | _ | (op | _ | _ | _) | _ | _ <;> try rfl
  simp only [goesOn, hasLevel_chain, Bool.or_eq_false_iff] at complete
  exact complete.2

/-! ### When a rule gives a result -/

namespace Rule

section Results

variable {σ : Type} [TokenStream σ] {s s' : σ} {e : Expr} {inner tighter : Rule σ Expr}

theorem name_eq_some_iff :
    name s = (some e, s') ↔ ∃ text, TokenStream.next s = (.name text, s') ∧ e = .name text := by
  simp only [name, attempt_eq_some_iff, bind_eq_some_iff, token_eq_some_iff,
    Token.name?_eq_some_iff, pure_apply, Prod.mk.injEq, Option.some.injEq]
  constructor
  · rintro ⟨text, m, ⟨t, next, rfl⟩, rfl, rfl⟩
    exact ⟨text, next, rfl⟩
  · rintro ⟨text, next, rfl⟩
    exact ⟨text, s', ⟨_, next, rfl⟩, rfl, rfl⟩

theorem number_eq_some_iff :
    number s = (some e, s') ↔
      ∃ value, TokenStream.next s = (.number value, s') ∧ e = .number value := by
  simp only [number, attempt_eq_some_iff, bind_eq_some_iff, token_eq_some_iff,
    Token.number?_eq_some_iff, pure_apply, Prod.mk.injEq, Option.some.injEq]
  constructor
  · rintro ⟨value, m, ⟨t, next, rfl⟩, rfl, rfl⟩
    exact ⟨value, next, rfl⟩
  · rintro ⟨value, next, rfl⟩
    exact ⟨value, s', ⟨_, next, rfl⟩, rfl, rfl⟩

theorem parenthesized_eq_some_iff :
    parenthesized inner s = (some e, s') ↔
      ∃ m m', TokenStream.next s = (.symbol .openParen, m) ∧ inner m = (some e, m') ∧
        TokenStream.next m' = (.symbol .closeParen, s') := by
  simp only [parenthesized, attempt_eq_some_iff, bind_eq_some_iff, token_eq_some_iff,
    Token.exactly?_eq_some_iff, pure_apply, Prod.mk.injEq, Option.some.injEq]
  constructor
  · rintro ⟨_, m, ⟨_, opening, rfl⟩, _, m', given, _, _, ⟨_, closing, rfl⟩, rfl, rfl⟩
    exact ⟨m, m', opening, given, closing⟩
  · rintro ⟨m, m', opening, given, closing⟩
    exact ⟨(), m, ⟨_, opening, rfl⟩, e, m', given, (), s', ⟨_, closing, rfl⟩, rfl, rfl⟩

theorem operation_eq_some_iff {l : Level} {op : Operator} :
    operation l tighter s = (some (op, e), s') ↔
      ∃ m, TokenStream.next s = (.symbol (.operator op), m) ∧ op.level = l ∧
        tighter m = (some e, s') := by
  simp only [operation, attempt_eq_some_iff, bind_eq_some_iff, token_eq_some_iff,
    Token.operatorAt?_eq_some_iff, pure_apply, Prod.mk.injEq, Option.some.injEq]
  constructor
  · rintro ⟨_, m, ⟨_, next, rfl, same⟩, _, _, given, ⟨rfl, rfl⟩, rfl⟩
    exact ⟨m, next, same, given⟩
  · rintro ⟨m, next, same, given⟩
    exact ⟨op, m, ⟨_, next, rfl, same⟩, e, s', given, ⟨rfl, rfl⟩, rfl⟩

theorem level_eq_some_iff {l : Level} {steps : Nat} :
    level l steps tighter s = (some e, s') ↔
      ∃ first m chain, tighter s = (some first, m) ∧
        many (operation l tighter) steps m = (chain, s') ∧ e = foldChain first chain := by
  simp only [level, bind_eq_some_iff, attempt_eq_some_iff]
  constructor
  · rintro ⟨first, m, given, result⟩
    -- Running the operations cannot fail, so binding it is no more than a substitution.
    change (some (foldChain first (many (operation l tighter) steps m).1), _) = _ at result
    obtain ⟨folded, rfl⟩ := Prod.mk.inj result
    exact ⟨first, m, _, given, rfl, (Option.some.inj folded).symm⟩
  · rintro ⟨first, m, chain, given, run, rfl⟩
    refine ⟨first, m, given, ?_⟩
    change (some (foldChain first (many (operation l tighter) steps m).1),
      (many (operation l tighter) steps m).2) = _
    rw [run]

end Results

end Rule

section Follows

variable {σ : Type} [TokenStream σ] [RewindableStream σ]

/-- A rule follows a phrase on token lists of up to `bound` tokens. -/
structure Follows (p : Phrase) (bound : Nat) (rule : Rule σ Expr) : Prop where
  /-- A failure leaves no trace. -/
  neutral : rule.Neutral
  /-- What is read is a token list of the phrase. -/
  sound {s s' : σ} {e : Expr} : rule s = (some e, s') → ∃ ts, Reads s ts s' ∧ p.Derives ts e
  /-- A token list of the phrase is read exactly if nothing behind it can continue it. -/
  complete {s s' : σ} {ts : List Token} {e : Expr} : p.Derives ts e → ts.length ≤ bound →
    Reads s ts s' → p.goesOn (TokenStream.next s').1 = false → rule s = (some e, s')
  /-- A token list of the phrase is read to its end at least. -/
  reach {s s' : σ} {ts : List Token} {e : Expr} : p.Derives ts e → ts.length ≤ bound →
    Reads s ts s' → ∃ e' more s'', rule s = (some e', s'') ∧ Reads s' more s''

variable {p : Phrase} {bound : Nat} {rule inner tighter : Rule σ Expr} {l : Level}
variable {s s' : σ} {e : Expr}

theorem Follows.stays (follows : Follows p bound rule) : rule.Stays :=
  follows.neutral.stays fun given => (follows.sound given).imp fun _ => And.left

/-! ### Operands -/

theorem neutral_name : (Rule.name : Rule σ Expr).Neutral :=
  ((Rule.stays_token _).bind fun _ => Rule.stays_pure _).neutral_attempt

theorem neutral_number : (Rule.number : Rule σ Expr).Neutral :=
  ((Rule.stays_token _).bind fun _ => Rule.stays_pure _).neutral_attempt

/-- Reading a rule between two tokens does not leave the text if the rule does not. -/
theorem stays_between (stays : inner.Stays) (opening closing : Token → Option Unit) :
    Rule.Stays (do
      Rule.token opening
      let e ← inner
      Rule.token closing
      return e : Rule σ Expr) :=
  (Rule.stays_token _).bind fun _ => stays.bind fun _ =>
    (Rule.stays_token _).bind fun _ => Rule.stays_pure _

theorem neutral_parenthesized (stays : inner.Stays) : (Rule.parenthesized inner).Neutral :=
  (stays_between stays _ _).neutral_attempt

/-- An operand is a name, a number or an expression in parentheses. No token begins two of these,
so their order does not matter. -/
theorem operand_eq_some_iff :
    Rule.operand inner s = (some e, s') ↔
      Rule.name s = (some e, s') ∨ Rule.number s = (some e, s') ∨
        Rule.parenthesized inner s = (some e, s') := by
  rw [Rule.operand, (neutral_name.orElse neutral_number).orElse_eq_some_iff,
    neutral_name.orElse_eq_some_iff]
  constructor
  · rintro ((given | ⟨_, given⟩) | ⟨_, given⟩)
    · exact Or.inl given
    · exact Or.inr (Or.inl given)
    · exact Or.inr (Or.inr given)
  · rintro (given | given | given)
    · exact Or.inl (Or.inl given)
    · obtain ⟨value, next, rfl⟩ := Rule.number_eq_some_iff.mp given
      have noName := neutral_name.eq_none (s := s) fun e m => by simp [Rule.name_eq_some_iff, next]
      exact Or.inl (Or.inr ⟨noName, given⟩)
    · obtain ⟨m, m', next, _, _⟩ := Rule.parenthesized_eq_some_iff.mp given
      refine Or.inr ⟨(neutral_name.orElse neutral_number).eq_none fun e m => ?_, given⟩
      simp [neutral_name.orElse_eq_some_iff, Rule.name_eq_some_iff, Rule.number_eq_some_iff, next]

/-- A token list of an operand is read exactly, whatever comes behind it. -/
theorem operand_eq_some (follows : Follows .expression bound inner) {ts : List Token}
    (derives : Phrase.operand.Derives ts e) (short : ts.length ≤ bound + 2)
    (reads : Reads s ts s') : Rule.operand inner s = (some e, s') := by
  rw [operand_eq_some_iff]
  cases derives with
  | name text =>
    obtain ⟨m, next, _, rest⟩ := reads_cons_iff.mp reads
    obtain rfl := reads_nil_iff.mp rest
    exact Or.inl (Rule.name_eq_some_iff.mpr ⟨text, next, rfl⟩)
  | number value =>
    obtain ⟨m, next, _, rest⟩ := reads_cons_iff.mp reads
    obtain rfl := reads_nil_iff.mp rest
    exact Or.inr (Or.inl (Rule.number_eq_some_iff.mpr ⟨value, next, rfl⟩))
  | @parenthesized ts _ derives =>
    obtain ⟨m, opening, _, rest⟩ := reads_cons_iff.mp reads
    obtain ⟨m', inside, rest⟩ := rest.split
    obtain ⟨_, closing, _, rest⟩ := reads_cons_iff.mp rest
    obtain rfl := reads_nil_iff.mp rest
    have shorter : ts.length ≤ bound := by
      simp only [List.cons_append, List.length_cons, List.length_append, List.length_nil] at short
      omega
    -- The closing parenthesis continues no expression.
    have given : inner m = (some e, m') :=
      follows.complete derives shorter inside (by rw [closing]; rfl)
    exact Or.inr (Or.inr (Rule.parenthesized_eq_some_iff.mpr ⟨m, m', opening, given, closing⟩))

/-- Operands follow their phrase, two tokens further than the expressions in their parentheses. -/
theorem follows_operand (follows : Follows .expression bound inner) :
    Follows .operand (bound + 2) (Rule.operand inner) where
  neutral := (neutral_name.orElse neutral_number).orElse (neutral_parenthesized follows.stays)
  sound given := by
    rcases operand_eq_some_iff.mp given with given | given | given
    · obtain ⟨text, next, rfl⟩ := Rule.name_eq_some_iff.mp given
      exact ⟨_, .single next rfl, .name text⟩
    · obtain ⟨value, next, rfl⟩ := Rule.number_eq_some_iff.mp given
      exact ⟨_, .single next rfl, .number value⟩
    · obtain ⟨m, m', opening, given, closing⟩ := Rule.parenthesized_eq_some_iff.mp given
      obtain ⟨ts, reads, derives⟩ := follows.sound given
      exact ⟨_, .cons opening rfl (reads.append (.single closing rfl)), .parenthesized derives⟩
  complete derives short reads _ := operand_eq_some follows derives short reads
  reach {s s' ts e} derives short reads :=
    ⟨e, [], s', operand_eq_some follows derives short reads, .nil s'⟩

/-! ### Levels -/

/-- Is this an operation of the level? -/
def Operation.Fits (l : Level) (o : Operation) : Prop :=
  o.op.level = l ∧ l.operands.Derives o.tokens o.right

/-- What a rule gives for an operation. -/
def Operation.pair (o : Operation) : Operator × Expr := (o.op, o.right)

theorem foldChain_map_pair (first : Expr) (ops : List Operation) :
    Rule.foldChain first (ops.map Operation.pair) = ops.foldl Operation.apply first :=
  List.foldl_map

theorem neutral_operation (stays : tighter.Stays) : (Rule.operation l tighter).Neutral :=
  ((Rule.stays_token _).bind fun _ => stays.bind fun _ => Rule.stays_pure _).neutral_attempt

omit [RewindableStream σ] in
/-- An operator of the level cannot continue an operand of the level. -/
theorem goesOn_operands_of_reads {o : Operation} {rest : List Token} (fits : o.Fits l)
    (reads : Reads s (o.written ++ rest) s') :
    l.operands.goesOn (TokenStream.next s).1 = false := by
  obtain ⟨m, next, _, _⟩ := reads_cons_iff.mp reads
  rw [next, ← fits.1]
  exact Phrase.hasLevel_operands_self _

variable {limit : Nat} {ops : List Operation}

omit [RewindableStream σ] in
/-- What comes before operations of the level is not continued as an operand of the level. -/
theorem goesOn_operands_of_operations (fits : ∀ o ∈ ops, o.Fits l)
    (reads : Reads s (ops.flatMap Operation.written) s')
    (complete : (Phrase.chain l).goesOn (TokenStream.next s').1 = false) :
    l.operands.goesOn (TokenStream.next s).1 = false := by
  cases ops with
  | nil =>
    obtain rfl := reads_nil_iff.mp reads
    exact Phrase.goesOn_operands complete
  | cons o ops => exact goesOn_operands_of_reads (fits o List.mem_cons_self) reads

/-- What is read operation by operation are operations of the level. -/
theorem many_operation_sound (follows : Follows l.operands bound tighter)
    {chain : List (Operator × Expr)}
    (run : Rule.many (Rule.operation l tighter) limit s = (chain, s')) :
    ∃ ops : List Operation, (∀ o ∈ ops, o.Fits l) ∧ chain = ops.map Operation.pair ∧
      Reads s (ops.flatMap Operation.written) s' := by
  induction limit generalizing s chain with
  | zero =>
    obtain ⟨rfl, rfl⟩ := Prod.mk.inj run
    exact ⟨[], by simp, rfl, .nil s⟩
  | succ limit ih =>
    rcases h : Rule.operation l tighter s with ⟨_ | ⟨op, e⟩, m'⟩
    · -- A failed operation leaves the place where it began, and the run ends there.
      rw [Rule.many_succ_of_none h] at run
      obtain ⟨rfl, rfl⟩ := Prod.mk.inj run
      rw [neutral_operation follows.stays s m' h]
      exact ⟨[], by simp, rfl, .nil s⟩
    · rw [Rule.many_succ_of_some h] at run
      obtain ⟨rfl, rfl⟩ := Prod.mk.inj run
      obtain ⟨m, next, same, given⟩ := Rule.operation_eq_some_iff.mp h
      obtain ⟨ts, reads, derives⟩ := follows.sound given
      obtain ⟨ops, fits, chain, later⟩ := ih rfl
      refine ⟨⟨op, ts, e⟩ :: ops, ?_, by rw [chain]; rfl, ?_⟩
      · exact List.forall_mem_cons.mpr ⟨⟨same, derives⟩, fits⟩
      · exact .cons next rfl (reads.append later)

/-- Behind a place where nothing continues the level there is no operation. -/
theorem operation_eq_none (stays : tighter.Stays)
    (complete : (Phrase.chain l).goesOn (TokenStream.next s).1 = false) :
    Rule.operation l tighter s = (none, s) := by
  refine (neutral_operation stays).eq_none fun (op, e) m given => ?_
  obtain ⟨m, next, same, _⟩ := Rule.operation_eq_some_iff.mp given
  rw [next] at complete
  simp [Phrase.goesOn, Phrase.hasLevel_chain, same] at complete

omit [RewindableStream σ] in
/-- An operation is read exactly if nothing behind it can continue its operand. -/
theorem operation_eq_some (follows : Follows l.operands bound tighter) {o : Operation}
    (fits : o.Fits l) (short : o.written.length ≤ bound) (reads : Reads s o.written s')
    (complete : l.operands.goesOn (TokenStream.next s').1 = false) :
    Rule.operation l tighter s = (some o.pair, s') := by
  obtain ⟨m, next, _, inside⟩ := reads_cons_iff.mp reads
  refine Rule.operation_eq_some_iff.mpr ⟨m, next, fits.1, ?_⟩
  exact follows.complete fits.2 (Nat.le_of_succ_le short) inside complete

/-- Operations are read exactly if nothing behind them can continue their level. -/
theorem many_operation_complete (follows : Follows l.operands bound tighter)
    (fits : ∀ o ∈ ops, o.Fits l) (few : ops.length ≤ limit)
    (short : (ops.flatMap Operation.written).length ≤ bound)
    (reads : Reads s (ops.flatMap Operation.written) s')
    (complete : (Phrase.chain l).goesOn (TokenStream.next s').1 = false) :
    Rule.many (Rule.operation l tighter) limit s = (ops.map Operation.pair, s') := by
  induction ops generalizing s limit with
  | nil =>
    obtain rfl := reads_nil_iff.mp reads
    -- Either the limit is reached or the next operation fails.
    cases limit with
    | zero => rfl
    | succ limit => exact Rule.many_succ_of_none (operation_eq_none follows.stays complete) limit
  | cons o ops ih =>
    obtain ⟨fitsFirst, fitsRest⟩ := List.forall_mem_cons.mp fits
    obtain ⟨limit, rfl⟩ := Nat.exists_eq_succ_of_ne_zero (Nat.ne_zero_of_lt few)
    have few := Nat.le_of_succ_le_succ few
    simp only [List.flatMap_cons, List.length_append] at reads short
    obtain ⟨m, first, rest⟩ := reads.split
    have before := goesOn_operands_of_operations fitsRest rest complete
    have given := operation_eq_some follows fitsFirst (by omega) first before
    rw [Rule.many_succ_of_some given, ih fitsRest few (by omega) rest, List.map_cons]

/-- Operations are read to their end at least. -/
theorem many_operation_reach (follows : Follows l.operands bound tighter)
    (fits : ∀ o ∈ ops, o.Fits l) (few : ops.length ≤ limit)
    (short : (ops.flatMap Operation.written).length ≤ bound)
    (reads : Reads s (ops.flatMap Operation.written) s') :
    ∃ chain more s'', Rule.many (Rule.operation l tighter) limit s = (chain, s'') ∧
      Reads s' more s'' := by
  induction ops generalizing s limit with
  | nil =>
    obtain rfl := reads_nil_iff.mp reads
    obtain ⟨ops, _, _, later⟩ := many_operation_sound follows
      (rfl : Rule.many (Rule.operation l tighter) limit s = (_, _))
    exact ⟨_, _, _, rfl, later⟩
  | cons o ops ih =>
    obtain ⟨fitsFirst, fitsRest⟩ := List.forall_mem_cons.mp fits
    obtain ⟨limit, rfl⟩ := Nat.exists_eq_succ_of_ne_zero (Nat.ne_zero_of_lt few)
    have few := Nat.le_of_succ_le_succ few
    simp only [List.flatMap_cons, List.length_append] at reads short
    obtain ⟨m, first, rest⟩ := reads.split
    cases ops with
    | nil =>
      -- Only the last operand may be read further than it is written.
      obtain rfl := reads_nil_iff.mp rest
      obtain ⟨m', next, _, inside⟩ := reads_cons_iff.mp first
      have shorter : o.tokens.length ≤ bound := by
        simp only [Operation.written, List.length_cons] at short
        omega
      obtain ⟨e, more, s'', given, further⟩ := follows.reach fitsFirst.2 shorter inside
      have given := Rule.operation_eq_some_iff.mpr ⟨m', next, fitsFirst.1, given⟩
      obtain ⟨_, _, _, later⟩ := many_operation_sound follows
        (rfl : Rule.many (Rule.operation l tighter) limit s'' = (_, _))
      exact ⟨_, _, _, Rule.many_succ_of_some given _, further.append later⟩
    | cons o' ops =>
      have before := goesOn_operands_of_reads (fitsRest o' List.mem_cons_self) rest
      have given := operation_eq_some follows fitsFirst (by omega) first before
      obtain ⟨chain, more, s'', run, further⟩ := ih fitsRest few (by omega) rest
      exact ⟨_, more, s'', by rw [Rule.many_succ_of_some given, run], further⟩

theorem length_le_length_flatMap_written (ops : List Operation) :
    ops.length ≤ (ops.flatMap Operation.written).length := by
  induction ops with
  | nil => exact Nat.le_refl _
  | cons o ops ih =>
    simp only [List.flatMap_cons, List.length_append, List.length_cons, Operation.written]
    omega

theorem neutral_level (stays : tighter.Stays) (steps : Nat) :
    (Rule.level l steps tighter).Neutral := by
  intro s s' failed
  rcases h : tighter.attempt s with ⟨_ | e, m⟩
  · simp only [Rule.level, bind, h] at failed
    rw [← (Prod.mk.inj failed).2]
    exact stays.neutral_attempt s m h
  · -- Behind an operand nothing can fail.
    have given : Rule.level l steps tighter s = (some _, _) := Rule.level_eq_some_iff.mpr
      ⟨e, m, _, Rule.attempt_eq_some_iff.mp h, rfl, rfl⟩
    rw [given] at failed
    simp at failed

/-- A level follows its chain if its operands follow their phrase, and it may read as many
operations as a token list within the bound can hold. -/
theorem follows_level {steps : Nat} (follows : Follows l.operands bound tighter)
    (enough : bound ≤ steps) : Follows (.chain l) bound (Rule.level l steps tighter) where
  neutral := neutral_level follows.stays steps
  sound given := by
    obtain ⟨first, m, chain, operand, run, rfl⟩ := Rule.level_eq_some_iff.mp given
    obtain ⟨ts, reads, derives⟩ := follows.sound operand
    obtain ⟨ops, fits, rfl, later⟩ := many_operation_sound follows run
    rw [foldChain_map_pair]
    exact ⟨_, reads.append later,
      .chain derives (fun o ho => (fits o ho).1) (fun o ho => (fits o ho).2)⟩
  complete {s s' ts e} derives short reads complete := by
    cases derives with
    | @chain _ first e ops derivesFirst levels operands =>
      obtain ⟨m, inFirst, inOps⟩ := reads.split
      rw [List.length_append] at short
      have fits : ∀ o ∈ ops, o.Fits l := fun o ho => ⟨levels o ho, operands o ho⟩
      have few := length_le_length_flatMap_written ops
      have before := goesOn_operands_of_operations fits inOps complete
      have given := follows.complete derivesFirst (by omega) inFirst before
      have run := many_operation_complete follows fits (Nat.le_trans few (by omega : _ ≤ steps))
        (by omega) inOps complete
      exact Rule.level_eq_some_iff.mpr ⟨e, m, _, given, run, (foldChain_map_pair e ops).symm⟩
  reach {s s' ts e} derives short reads := by
    cases derives with
    | @chain _ first e ops derivesFirst levels operands =>
      obtain ⟨m, inFirst, inOps⟩ := reads.split
      rw [List.length_append] at short
      have fits : ∀ o ∈ ops, o.Fits l := fun o ho => ⟨levels o ho, operands o ho⟩
      have few := length_le_length_flatMap_written ops
      cases ops with
      | nil =>
        -- A lone operand may be read further than it is written, and operations may follow it.
        obtain rfl := reads_nil_iff.mp inOps
        obtain ⟨e', more, m', given, further⟩ := follows.reach derivesFirst (by omega) inFirst
        obtain ⟨_, _, _, later⟩ := many_operation_sound follows
          (rfl : Rule.many (Rule.operation l tighter) steps m' = (_, _))
        exact ⟨_, _, _, Rule.level_eq_some_iff.mpr ⟨e', m', _, given, rfl, rfl⟩,
          further.append later⟩
      | cons o ops =>
        -- The operator behind the first operand keeps it to its written length.
        have before := goesOn_operands_of_reads (fits o List.mem_cons_self) inOps
        have given := follows.complete derivesFirst (by omega) inFirst before
        obtain ⟨chain, more, s'', run, further⟩ :=
          many_operation_reach follows fits (Nat.le_trans few (by omega : _ ≤ steps)) (by omega)
            inOps
        exact ⟨_, more, s'', Rule.level_eq_some_iff.mpr ⟨e, m, chain, given, run, rfl⟩, further⟩

omit [RewindableStream σ] in
theorem Follows.mono {bound' : Nat} (follows : Follows p bound rule) (smaller : bound' ≤ bound) :
    Follows p bound' rule where
  neutral := follows.neutral
  sound := follows.sound
  complete derives short := follows.complete derives (Nat.le_trans short smaller)
  reach derives short := follows.reach derives (Nat.le_trans short smaller)

/-- Expressions follow their phrase. Each parenthesis takes two tokens of the bound. -/
theorem follows_expressionWithin {steps depth : Nat} (enoughSteps : bound ≤ steps)
    (enoughDepth : bound ≤ 2 * depth) :
    Follows .expression bound (Rule.expressionWithin steps depth : Rule σ Expr) := by
  induction depth generalizing bound with
  | zero =>
    -- Without depth the bound leaves no room for a single token.
    have nothing {ts : List Token} {e : Expr} (derives : Phrase.expression.Derives ts e)
        (short : ts.length ≤ bound) : False := by
      have := derives.length_pos
      omega
    refine ⟨fun s s' failed => (Prod.mk.inj failed).2.symm, fun given => ?_,
      fun derives short => (nothing derives short).elim,
      fun derives short => (nothing derives short).elim⟩
    cases (Prod.mk.inj given).1
  | succ depth ih =>
    have inner : Follows .expression (bound - 2)
        (Rule.expressionWithin steps depth : Rule σ Expr) :=
      ih (by omega) (by omega)
    have operand := (follows_operand inner).mono (by omega : bound ≤ bound - 2 + 2)
    have power : Follows (.chain .power) bound _ := follows_level operand enoughSteps
    have product : Follows (.chain .product) bound _ := follows_level power enoughSteps
    exact follows_level product enoughSteps

end Follows

end Formula
