import Formula.Rule.Stream

/-!
# Reading tokens from a stream

What a rule consumes is a list of tokens, and where it leaves the stream is the place behind them.
Both are said by one relation, which holds between a stream, the tokens read from it, and the
stream behind them. The tokens and the place determine each other, so two readings from one place
can be compared by their lengths.

## Main definitions

* `Reads` — the tokens read between two places of a stream
* `RewindableStream` — going back to an earlier place gives the stream that was there
* `Bounded` — no more tokens can be read than the stream says remain

## Main results

* `Reads.extend` — two readings from one place agree as far as both go
* `Reader.tokens_eq_append_iff` — all tokens of a reader are a reading and the stop behind it
* `Reader.bounded` — the characters that are left bound the tokens that are left
-/

namespace Formula

section Reading

variable {σ : Type} [TokenStream σ] {s m s' s'' : σ} {t : Token} {ts us : List Token}

/-- Reading the tokens `ts` leads from one place of a stream to another. No stop is among them. -/
inductive Reads : σ → List Token → σ → Prop
  | nil (s : σ) : Reads s [] s
  | cons {s m s' : σ} {t : Token} {ts : List Token} :
      TokenStream.next s = (t, m) → t.isStop = false → Reads m ts s' → Reads s (t :: ts) s'

theorem Reads.single (next : TokenStream.next s = (t, m)) (goesOn : t.isStop = false) :
    Reads s [t] m :=
  .cons next goesOn (.nil m)

/-- One reading after another is a reading. -/
theorem Reads.append (first : Reads s ts m) (second : Reads m us s') : Reads s (ts ++ us) s' := by
  induction first with
  | nil _ => exact second
  | cons next goesOn _ ih => exact .cons next goesOn (ih second)

/-- A reading can be cut anywhere. -/
theorem Reads.split (reads : Reads s (ts ++ us) s') : ∃ m, Reads s ts m ∧ Reads m us s' := by
  induction ts generalizing s with
  | nil => exact ⟨s, .nil s, reads⟩
  | cons t ts ih =>
    cases reads with
    | cons next goesOn rest =>
      obtain ⟨m, first, second⟩ := ih rest
      exact ⟨m, .cons next goesOn first, second⟩

theorem reads_nil_iff : Reads s [] s' ↔ s = s' := by
  constructor
  · intro reads
    cases reads
    rfl
  · rintro rfl
    exact .nil s

theorem reads_cons_iff :
    Reads s (t :: ts) s' ↔ ∃ m, TokenStream.next s = (t, m) ∧ t.isStop = false ∧ Reads m ts s' := by
  constructor
  · intro reads
    cases reads with
    | cons next goesOn rest => exact ⟨_, next, goesOn, rest⟩
  · rintro ⟨m, next, goesOn, rest⟩
    exact .cons next goesOn rest

/-- No stop is ever read over. -/
theorem Reads.isStop_eq_false (reads : Reads s ts s') (member : t ∈ ts) : t.isStop = false := by
  induction reads with
  | nil _ => cases member
  | cons _ goesOn _ ih =>
    rcases List.mem_cons.mp member with rfl | later
    · exact goesOn
    · exact ih later

/-- A longer reading from the same place goes on where the shorter one ends. -/
theorem Reads.extend (short : Reads s ts m) (long : Reads s us s')
    (shorter : ts.length ≤ us.length) : ∃ more, us = ts ++ more ∧ Reads m more s' := by
  induction short generalizing us with
  | nil _ => exact ⟨us, rfl, long⟩
  | cons next _ _ ih =>
    cases long with
    | nil => simp at shorter
    | cons next' _ rest =>
      -- A place has one next token and one place behind it, so both readings begin alike.
      obtain ⟨rfl, rfl⟩ := Prod.mk.inj (next.symm.trans next')
      obtain ⟨more, rfl, reads⟩ := ih rest (Nat.le_of_succ_le_succ shorter)
      exact ⟨more, rfl, reads⟩

/-- No more tokens can be read than the stream says remain, from here or from any place behind. -/
def Bounded (s : σ) : Prop :=
  ∀ {ts us : List Token} {m s' : σ}, Reads s ts m → Reads m us s' →
    us.length ≤ TokenStream.remaining m

theorem Bounded.later (bounded : Bounded s) (reads : Reads s ts m) : Bounded m :=
  fun first second => bounded (reads.append first) second

end Reading

/-- A stream that can be taken back to where it was, from any other place in the same text. -/
class RewindableStream (σ : Type) [TokenStream σ] where
  /-- Are two streams places in one text? -/
  SameText : σ → σ → Prop
  equivalence : Equivalence SameText
  sameText_next (s : σ) : SameText s (TokenStream.next s).2
  sameText_seek (s : σ) (position : Nat) : SameText s (TokenStream.seek s position)
  seek_position {s s' : σ} : SameText s s' → TokenStream.seek s' (TokenStream.position s) = s

section Rewinding

variable {σ : Type} [TokenStream σ] [RewindableStream σ] {s s' : σ} {ts : List Token}

/-- Reading does not leave the text. -/
theorem Reads.sameText (reads : Reads s ts s') : RewindableStream.SameText s s' := by
  induction reads with
  | nil s => exact RewindableStream.equivalence.refl s
  | @cons s m _ t _ next _ _ ih =>
    have step := RewindableStream.sameText_next s
    rw [next] at step
    exact RewindableStream.equivalence.trans step ih

end Rewinding

/-! ### Readers -/

instance : RewindableStream Reader where
  SameText r r' := r.text = r'.text
  equivalence := ⟨fun _ => rfl, Eq.symm, Eq.trans⟩
  sameText_next r := r.text_next.symm
  sameText_seek r offset := (r.text_seek offset).symm
  seek_position same := Reader.seek_offset same.symm

section Readers

variable {r r' : Reader} {t : Token} {ts : List Token}

/-- The next token of a reader as a stream, and the reader behind it. -/
theorem Reader.next_eq_iff : TokenStream.next r = (t, r') ↔ r.next.1 = t ∧ r.next.2 = r' :=
  Prod.ext_iff

/-- At a stop there is nothing but the stop. -/
theorem Reader.tokens_of_isStop (stop : r.next.1.isStop = true) : r.tokens = [r.next.1] := by
  rw [Reader.tokens, TokenRun.drain, if_neg (by simp), dif_pos stop]

/-- Away from a stop the next token comes first. -/
theorem Reader.tokens_of_not_isStop (goesOn : r.next.1.isStop = false) :
    r.tokens = r.next.1 :: r.next.2.tokens := by
  rw [Reader.tokens, TokenRun.drain, if_neg (by simp), dif_neg (by simp [goesOn])]
  rfl

/-- What is read comes before what is left. -/
theorem Reads.tokens_eq (reads : Reads r ts r') : r.tokens = ts ++ r'.tokens := by
  induction reads with
  | nil _ => rfl
  | @cons r m _ t ts next goesOn _ ih =>
    obtain ⟨rfl, rfl⟩ := Reader.next_eq_iff.mp next
    rw [Reader.tokens_of_not_isStop goesOn, ih, List.cons_append]

/-- A reader comes to a stop. -/
theorem Reader.exists_reads_stop (r : Reader) :
    ∃ ts r', Reads r ts r' ∧ r'.next.1.isStop = true := by
  cases stop : r.next.1.isStop with
  | true => exact ⟨[], r, .nil r, stop⟩
  | false =>
    -- Every token takes a character, so a stop comes before the characters run out.
    have shorter := length_scan_lt stop
    obtain ⟨ts, r', reads, stop'⟩ := exists_reads_stop r.next.2
    exact ⟨r.next.1 :: ts, r', .cons rfl stop reads, stop'⟩
termination_by r.unread.length
decreasing_by exact shorter

/-- All tokens of a reader are what can be read before the stop, and the stop. -/
theorem Reader.tokens_eq_append_iff (stop : t.isStop = true) :
    r.tokens = ts ++ [t] ↔ ∃ r', Reads r ts r' ∧ r'.next.1 = t := by
  constructor
  · intro tokens
    obtain ⟨us, r', reads, stop'⟩ := r.exists_reads_stop
    rw [reads.tokens_eq, Reader.tokens_of_isStop stop'] at tokens
    obtain ⟨rfl, last⟩ := List.append_inj' tokens rfl
    exact ⟨r', reads, List.singleton_inj.mp last⟩
  · rintro ⟨r', reads, rfl⟩
    rw [reads.tokens_eq, Reader.tokens_of_isStop stop]

/-- The tokens of a reader are some that lead to a stop, and the stop. -/
theorem Reader.exists_tokens_eq (r : Reader) :
    ∃ ts r', Reads r ts r' ∧ r'.next.1.isStop = true ∧ r.tokens = ts ++ [r'.next.1] := by
  obtain ⟨ts, r', reads, stop⟩ := r.exists_reads_stop
  exact ⟨ts, r', reads, stop, (Reader.tokens_eq_append_iff stop).mpr ⟨r', reads, rfl⟩⟩

/-- Every token that is read takes a character at least. -/
theorem Reads.length_le (reads : Reads r ts r') :
    ts.length + r'.unread.length ≤ r.unread.length := by
  induction reads with
  | nil _ => simp
  | @cons r m _ t ts next goesOn _ ih =>
    obtain ⟨rfl, rfl⟩ := Reader.next_eq_iff.mp next
    have shorter : r.next.2.unread.length < r.unread.length := length_scan_lt goesOn
    simp only [List.length_cons]
    omega

theorem Reader.bounded (r : Reader) : Bounded r := by
  intro _ us m s' _ reads
  have h := Reads.length_le reads
  change us.length ≤ m.unread.length
  omega

end Readers

/-! ### Lists of tokens -/

instance : RewindableStream TokenList where
  SameText l l' := l.tokens = l'.tokens
  equivalence := ⟨fun _ => rfl, Eq.symm, Eq.trans⟩
  sameText_next l := by
    change l.tokens = l.next.2.tokens
    unfold TokenList.next
    split <;> rfl
  sameText_seek _ _ := rfl
  seek_position {l l'} same := by
    obtain ⟨tokens, index⟩ := l
    exact congrArg (TokenList.mk · index) same.symm

namespace TokenList

/-- A token that is not the last one is passed. -/
theorem next_of_drop {l : TokenList} {t t' : Token} {rest : List Token}
    (here : l.tokens.drop l.index = t :: t' :: rest) : l.next = (t, ⟨l.tokens, l.index + 1⟩) := by
  rw [next, here]

/-- The tokens before the last one are read in order. -/
theorem reads_of_drop {tokens ts rest : List Token} {index : Nat} {t : Token}
    (goesOn : ∀ t ∈ ts, t.isStop = false) (here : tokens.drop index = ts ++ t :: rest) :
    Reads (TokenList.mk tokens index) ts ⟨tokens, index + ts.length⟩ := by
  induction ts generalizing index with
  | nil => exact .nil _
  | cons t' ts ih =>
    obtain ⟨goesOnFirst, goesOnRest⟩ := List.forall_mem_cons.mp goesOn
    have later : tokens.drop (index + 1) = ts ++ t :: rest := by
      rw [← List.drop_drop, here]
      rfl
    -- Behind `t'` there is another of the tokens, or `t` at least, so `t'` is not the last one.
    have next : (TokenList.mk tokens index).next = (t', ⟨tokens, index + 1⟩) := by
      cases ts with
      | nil => exact next_of_drop here
      | cons t'' ts => exact next_of_drop here
    have reads := Reads.cons next goesOnFirst (ih goesOnRest later)
    rwa [Nat.add_assoc, Nat.add_comm 1] at reads

/-- If the last token is a stop, then what is read is not the last token. -/
theorem next_eq_of_not_isStop {l l' : TokenList} {t : Token}
    (stop : ∀ t ∈ l.tokens.getLast?, t.isStop = true) (next : l.next = (t, l'))
    (goesOn : t.isStop = false) : l' = ⟨l.tokens, l.index + 1⟩ ∧ l.index < l.tokens.length := by
  have inside : l.tokens.drop l.index ≠ [] → l.index < l.tokens.length := by
    intro some
    exact Nat.lt_of_not_le fun beyond => some (List.drop_eq_nil_of_le beyond)
  unfold TokenList.next at next
  -- Behind the end there is a stop, and so there is at the last token.
  split at next
  · next here =>
    rw [← (Prod.mk.inj next).1] at goesOn
    cases goesOn
  · next last here =>
    have isLast : l.tokens.getLast? = some last := by
      have h := List.getLast?_drop (l := l.tokens) (i := l.index)
      rwa [here, if_neg (Nat.not_le_of_lt (inside (by simp [here]))), eq_comm] at h
    rw [← (Prod.mk.inj next).1, stop last isLast] at goesOn
    cases goesOn
  · next here =>
    exact ⟨(Prod.mk.inj next).2.symm, inside (by simp [here])⟩

theorem length_le_of_reads {l l' : TokenList} {ts : List Token} (reads : Reads l ts l')
    (stop : ∀ t ∈ l.tokens.getLast?, t.isStop = true) :
    l'.tokens = l.tokens ∧ ts.length ≤ l.tokens.length - l.index := by
  induction reads with
  | nil l => exact ⟨rfl, Nat.zero_le _⟩
  | cons next goesOn _ ih =>
    obtain ⟨rfl, inside⟩ := next_eq_of_not_isStop stop next goesOn
    obtain ⟨same, short⟩ := ih stop
    refine ⟨same, ?_⟩
    simp only [List.length_cons] at short ⊢
    omega

/-- If the last token is a stop, then no more can be read than there is in the list. -/
theorem bounded {l : TokenList} (stop : ∀ t ∈ l.tokens.getLast?, t.isStop = true) : Bounded l := by
  intro _ us m s' first second
  have same := (length_le_of_reads first stop).1
  exact (length_le_of_reads second (by rwa [same])).2

end TokenList

end Formula
