import Formula.Proofs.Grammar.TokenLists
import Formula.Proofs.Lexing.Apart
import Formula.Proofs.Lexing.Decomposition
import Mathlib.Data.List.Basic

/-!
# Separators

Where a blank or a symbol follows a text that is read to its end, the tokens of both parts stand one
behind the other. If a text is not read to its end, then nothing that follows is read either. So
blanks can be put anywhere between two tokens, and a line stays what it is.

## Main definitions

* `IsTokenBoundary` — does a text fall into two parts outside its tokens?

## Main results

* `tokens_append_blanks_append`, `tokens_append_symbol_append` — separators keep the tokens on both
  sides
* `tokens_append_of_unreadable` — nothing is read behind an unreadable character
* `tokens_of_separated` — all of it, and what it means for parsing
-/

namespace Formula

/-- Does the second part of a text begin between two tokens of the whole? In front of it there are
some tokens, and possibly blanks. -/
def IsTokenBoundary (x y : String) : Prop :=
  ∃ (ts : List Token) (blanks : List Char), (∀ c ∈ blanks, isBlank c = true) ∧
    Lexes (x ++ y).toList ts (blanks ++ y.toList)

section Blanks

variable {blanks cs : List Char} {w b : String} {r r' : Reader}

theorem scan_append_of_isBlank (blank : ∀ c ∈ blanks, isBlank c = true) :
    scan (blanks ++ cs) = scan cs := by
  rw [scan, List.dropWhile_append_of_pos blank, scan]

/-- All tokens of a reader are decided by what it reads next. -/
theorem Reader.tokens_eq_of_scan (same : scan r.unread = scan r'.unread) :
    r.tokens = r'.tokens := by
  have token : r.next.1 = r'.next.1 := by simp only [next, same]
  have unread : r.next.2.unread = r'.next.2.unread := by simp only [next, same]
  cases stop : r.next.1.isStop with
  | true =>
    have stop' : r'.next.1.isStop = true := by rw [← token, stop]
    rw [tokens_of_isStop stop, tokens_of_isStop stop', token]
  | false =>
    have stop' : r'.next.1.isStop = false := by rw [← token, stop]
    rw [tokens_of_not_isStop stop, tokens_of_not_isStop stop', token, tokens_eq_of_unread unread]

/-- Blanks in front of a text have no meaning. -/
theorem tokens_append_of_isBlank (blank : ∀ c ∈ w.toList, isBlank c = true) (b : String) :
    tokens (w ++ b) = tokens b := by
  apply Reader.tokens_eq_of_scan
  simp only [Reader.ofString, String.toList_append]
  exact scan_append_of_isBlank blank

/-- A symbol in front of a text is the first token. -/
theorem tokens_symbol_append (s : Symbol) (b : String) :
    tokens (String.singleton s.char ++ b) = .symbol s :: tokens b := by
  have lexes : Lexes (String.singleton s.char ++ b).toList [.symbol s] b.toList := by
    simpa using (Lexes.nil b.toList).symbol s
  rw [lexes.tokens_eq, String.ofList_toList]
  rfl

end Blanks

/-! ### Two parts -/

section Parts

variable {a b x y w : String} {ts : List Token} {cs rest blanks tail : List Char}
variable {pieces : List Piece}

/-- In front of a separator, or of nothing, a text that is read to its end keeps its tokens. -/
theorem tokens_append_of_separates (all : tokens a = ts ++ [.endOfText])
    (separated : ∀ c ∈ b.toList.head?, separates c = true) : tokens (a ++ b) = ts ++ tokens b := by
  obtain ⟨rest, lexes, blank⟩ := tokens_eq_append_endOfText_iff.mp all
  obtain ⟨front, text, apart⟩ := lexes.exists_apart
  have behind : ∀ c ∈ (rest ++ b.toList).head?, separates c = true := by
    intro c member
    cases rest with
    | nil => exact separated c member
    | cons d rest => exact separates_of_mem_head?_append (List.cons_ne_nil d rest) blank c member
  have lexes' : Lexes (a ++ b).toList ts (rest ++ b.toList) := by
    rw [String.toList_append, text, List.append_assoc]
    exact apart _ behind
  have blank' : ∀ c ∈ (String.ofList rest).toList, isBlank c = true := by simpa using blank
  rw [lexes'.tokens_eq, String.ofList_append, String.ofList_toList,
    tokens_append_of_isBlank blank']

/-- Blanks keep the tokens on both sides. -/
theorem tokens_append_blanks_append (all : tokens a = ts ++ [.endOfText]) (nonempty : w ≠ "")
    (blank : ∀ c ∈ w.toList, isBlank c = true) (b : String) :
    tokens (a ++ w ++ b) = ts ++ tokens b := by
  have some : w.toList ≠ [] := String.toList_eq_nil_iff.not.mpr nonempty
  have separated := @separates_of_mem_head?_append _ b.toList some blank
  rw [← String.toList_append] at separated
  rw [String.append_assoc, tokens_append_of_separates all separated, tokens_append_of_isBlank blank]

/-- A symbol keeps the tokens on both sides, and stands between them. -/
theorem tokens_append_symbol_append (all : tokens a = ts ++ [.endOfText]) (s : Symbol)
    (b : String) :
    tokens (a ++ String.singleton s.char ++ b) = ts ++ .symbol s :: tokens b := by
  rw [String.append_assoc, tokens_append_of_separates all _, tokens_symbol_append]
  intro c member
  obtain rfl : s.char = c := by simpa using member
  exact separates_iff.mpr (Or.inr ⟨s, rfl⟩)

/-- Behind a rest that begins no token, more can follow. -/
theorem Decomposes.append (decomposes : Decomposes cs pieces blanks rest) (some : rest ≠ [])
    (tail : List Char) : Decomposes (cs ++ tail) pieces blanks (rest ++ tail) := by
  induction decomposes with
  | @stop blanks rest run none =>
    rw [List.append_assoc]
    refine .stop ⟨run.1, ?_⟩ ?_
    · rw [List.head?_append_of_ne_nil _ some]
      exact run.2
    · rw [List.head?_append_of_ne_nil _ some]
      exact none
  | @piece p cs pieces blanks rest run lexeme stop later ih =>
    -- The rest is part of what follows the lexeme, so that is not empty.
    have someLater : cs ≠ [] := by
      rw [later.text_eq]
      simp [some]
    rw [List.append_assoc]
    refine .piece ⟨run.1, lexeme.isBlank_head⟩ lexeme ?_ (ih some)
    rw [List.head?_append_of_ne_nil _ someLater]
    exact stop

/-- Nothing is read behind an unreadable character. -/
theorem tokens_append_of_unreadable (all : tokens a = ts ++ [.unreadable]) (b : String) :
    tokens (a ++ b) = tokens a := by
  obtain ⟨pieces, blanks, rest, decomposes⟩ := exists_decomposes a.toList
  have some : rest ≠ [] := by
    rintro rfl
    have last := all.symm.trans decomposes.tokens_eq
    have stop := (List.append_inj' last rfl).2
    simp [Token.stopBefore] at stop
  have longer := decomposes.append some b.toList
  rw [← String.toList_append] at longer
  rw [longer.tokens_eq, decomposes.tokens_eq]
  simp [Token.stopBefore, some]

/-- Blanks between two tokens have no meaning. -/
theorem IsTokenBoundary.tokens_eq (boundary : IsTokenBoundary x y)
    (blank : ∀ c ∈ w.toList, isBlank c = true) : tokens (x ++ w ++ y) = tokens (x ++ y) := by
  obtain ⟨ts, blanks, before, lexes⟩ := boundary
  obtain rfl | nonempty := eq_or_ne w ""
  · rw [String.append_empty]
  obtain ⟨front, text, apart⟩ := lexes.exists_apart
  have first : x.toList = front ++ blanks := by simpa [← List.append_assoc] using text
  -- With blanks in between, the tokens in front of them are the same.
  have lexes' : Lexes (x ++ w ++ y).toList ts (blanks ++ (w ++ y).toList) := by
    have pieces : (x ++ w ++ y).toList = front ++ (blanks ++ (w ++ y).toList) := by simp [first]
    have some : blanks ++ w.toList ≠ [] := by simp [nonempty]
    have separated := @separates_of_mem_head?_append _ y.toList some
      (List.forall_mem_append.mpr ⟨before, blank⟩)
    rw [List.append_assoc, ← String.toList_append] at separated
    rw [pieces]
    exact apart _ separated
  have blank' : ∀ c ∈ (String.ofList blanks).toList, isBlank c = true := by simpa using before
  rw [lexes'.tokens_eq, lexes.tokens_eq, String.ofList_append, String.ofList_append,
    tokens_append_of_isBlank blank', tokens_append_of_isBlank blank', String.ofList_toList,
    String.ofList_toList, tokens_append_of_isBlank blank]

/-- **Texts are put together at separators.** Reading a text ends in one of two ways. If it comes to
the end of the text, then behind some blanks the tokens of another text follow its own, and behind a
symbol they follow the symbol. If it comes to an unreadable character, nothing that is put behind
the text is read. So blanks between two tokens of a line change nothing: neither the tokens, nor
what is parsed, strictly or leniently. -/
theorem tokens_of_separated :
    (∀ a, ∃ ts, tokens a = ts ++ [.endOfText] ∨ tokens a = ts ++ [.unreadable]) ∧
    (∀ a w b ts, w ≠ "" → (∀ c ∈ w.toList, isBlank c = true) →
      (tokens a = ts ++ [.endOfText] → tokens (a ++ w ++ b) = ts ++ tokens b) ∧
      (tokens a = ts ++ [.unreadable] → tokens (a ++ w ++ b) = tokens a)) ∧
    (∀ c ∈ "+-*/^()=".toList, ∃ s : Symbol, s.char = c ∧ ∀ a b ts,
      (tokens a = ts ++ [.endOfText] →
        tokens (a ++ String.singleton c ++ b) = ts ++ .symbol s :: tokens b) ∧
      (tokens a = ts ++ [.unreadable] → tokens (a ++ String.singleton c ++ b) = tokens a)) ∧
    ∀ x y w, IsTokenBoundary x y → (∀ c ∈ w.toList, isBlank c = true) →
      tokens (x ++ w ++ y) = tokens (x ++ y) ∧
      ∀ strictness, Statement.parse strictness (x ++ w ++ y) =
        Statement.parse strictness (x ++ y) := by
  refine ⟨fun a => ?_, fun a w b ts nonempty blank => ⟨fun all => ?_, fun all => ?_⟩,
    fun c member => ?_, fun x y w boundary blank => ?_⟩
  · obtain ⟨pieces, blanks, rest, decomposes⟩ := exists_decomposes a.toList
    refine ⟨pieces.map Piece.token, ?_⟩
    rw [decomposes.tokens_eq, Token.stopBefore]
    split
    · exact Or.inl rfl
    · exact Or.inr rfl
  · exact tokens_append_blanks_append all nonempty blank b
  · rw [String.append_assoc, tokens_append_of_unreadable all]
  · have symbols : ("+-*/^()=".toList.all fun c => (Symbol.ofChar? c).isSome) = true := by decide
    obtain ⟨s, of⟩ := Option.isSome_iff_exists.mp (List.all_eq_true.mp symbols c member)
    obtain rfl := Symbol.ofChar?_eq_some_iff.mp of
    refine ⟨s, rfl, fun a b ts => ⟨fun all => tokens_append_symbol_append all s b, fun all => ?_⟩⟩
    rw [String.append_assoc, tokens_append_of_unreadable all]
  · have same := boundary.tokens_eq blank
    refine ⟨same, fun strictness => ?_⟩
    rw [Statement.parse_eq_parseTokens, Statement.parse_eq_parseTokens, same]

/-- No digit from behind a blank belongs to a number that ends with a point, none from behind an
operator to a name, and nothing is read behind a percent sign. -/
theorem tokens_of_separated_point :
    let one : Token := .number (.ofRatio 1 1)
    let five : Token := .number (.ofRatio 5 1)
    tokens "1." = [one, .endOfText] ∧ tokens ("1." ++ " \t" ++ "5") = [one, five, .endOfText] ∧
    tokens "a1" = [.name "a1", .endOfText] ∧
    tokens ("a1" ++ "^" ++ "5") = [.name "a1", .symbol (.operator .power), five, .endOfText] ∧
    tokens "x%" = [.name "x", .unreadable] ∧ tokens ("x%" ++ "\n" ++ "5") = tokens "x%" ∧
    tokens ("x%" ++ "=" ++ "5") = tokens "x%" ∧
    IsTokenBoundary "a=" "5" ∧ tokens ("a=" ++ "\n " ++ "5") = tokens "a=5" ∧
    Statement.parse .strict ("a=" ++ "\n " ++ "5") = Statement.parse .strict "a=5" := by
  intro one five
  obtain ⟨-, blanks, symbols, boundaries⟩ := tokens_of_separated
  have number : tokens "1." = [one] ++ [.endOfText] := by decide +kernel
  have name : tokens "a1" = [.name "a1"] ++ [.endOfText] := by decide +kernel
  have percent : tokens "x%" = [.name "x"] ++ [.unreadable] := by decide +kernel
  have behind : tokens "5" = [five, .endOfText] := by decide +kernel
  have boundary : IsTokenBoundary "a=" "5" := by
    have lexeme : Lexeme ['a'] (.name "a") := .name (by decide) (by simp)
    have lexes := ((Lexes.nil ['5']).symbol .equals).front lexeme (by simp; decide)
    exact ⟨_, [], by simp, lexes⟩
  have first := (blanks "1." " \t" "5" _ (by decide) (by simp [isBlank])).1 number
  have third := (blanks "x%" "\n" "5" _ (by decide) (by simp [isBlank])).2 percent
  obtain ⟨power, writesPower, second⟩ := symbols '^' (by decide)
  obtain rfl : power = .operator .power := Symbol.char_inj.mp writesPower
  obtain ⟨sign, -, fourth⟩ := symbols '=' (by decide)
  obtain ⟨same, parsed⟩ := boundaries "a=" "5" "\n " boundary (by simp [isBlank])
  refine ⟨number, ?_, name, ?_, percent, third, (fourth "x%" "5" _).2 percent, boundary, same,
    parsed .strict⟩
  · rw [first, behind]
    rfl
  · have whole := (second "a1" "5" _).1 name
    rw [behind] at whole
    exact whole

end Parts

end Formula
