import Mathlib.Data.List.Infix
import Formula.Proofs.Grammar.Strict
import Formula.Proofs.Lexing.Cutting

/-!
# Lenient parsing

A lenient line may go on behind its statement. The statement found is then that of the longest piece
at the front of the line that is strictly a statement. Such a piece can end anywhere, also inside a
number or a name; where the line goes on its last token changes, but not the kind of that token, and
so the rules reach at least as far in the line as in the piece.

## Main definitions

* `LongestStatement` — the longest strict statement at the front of a line

## Main results

* `exists_longestStatement` — what lenient parsing finds
* `parse_lenient_iff_longestStatement` — lenient parsing is strict parsing of the longest piece
-/

namespace Formula

open Statement

/-- The piece at the front of a line is strictly a statement, and no longer one is. -/
structure LongestStatement (line front : String) : Prop where
  isPrefix : front.toList <+: line.toList
  accepted : (parse .strict front).isSome
  longest : ∀ other : String, other.toList <+: line.toList → (parse .strict other).isSome →
    other.length ≤ front.length

section Lenient

variable {line front : String} {statement : Statement}

theorem parse_lenient_eq_some_iff :
    parse .lenient line = some statement ↔
      ∃ r, Rule.statement (Reader.ofString line) = (some statement, r) := by
  rw [parse, ofStream?]
  rcases Rule.statement (Reader.ofString line) with ⟨_ | found, r⟩ <;> simp

/-- There is only one longest statement at the front of a line. -/
theorem LongestStatement.unique {other : String} (first : LongestStatement line front)
    (second : LongestStatement line other) : front = other := by
  have same : front.toList.length = other.toList.length := by
    rw [String.length_toList, String.length_toList]
    exact Nat.le_antisymm (second.longest front first.isPrefix first.accepted)
      (first.longest other second.isPrefix second.accepted)
  have shorter := List.prefix_of_prefix_length_le first.isPrefix second.isPrefix
    (Nat.le_of_eq same)
  exact String.toList_inj.mp (shorter.eq_of_length same)

/-- The tokens of a strict statement at the front of a line have the kinds of tokens of the line. -/
theorem exists_reads_of_front {tail : List Char} (accepted : parse .strict front = some statement)
    (text : line.toList = front.toList ++ tail) :
    ∃ ts r statement', Reads (Reader.ofString line) ts r ∧ DerivesStatement ts statement' ∧
      r.unread.dropWhile isBlank <:+ tail := by
  obtain ⟨ts, all, derives⟩ := parse_strict_eq_some_iff.mp accepted
  obtain ⟨rest, lexes, blank⟩ := tokens_eq_append_endOfText_iff.mp all
  obtain ⟨us, rest', longer, kinds, suffix⟩ := lexes.exists_longer blank tail
  obtain ⟨statement', derives'⟩ := derives.of_kinds kinds
  rw [← text] at longer
  exact ⟨us, ⟨line.toList, rest', longer.suffix⟩, statement',
    reads_iff_lexes.mpr ⟨rfl, longer⟩, derives', suffix⟩

/-- A line with a strict statement at its front is leniently a statement. -/
theorem isSome_parse_lenient_of_front (isPrefix : front.toList <+: line.toList)
    (accepted : (parse .strict front).isSome) : (parse .lenient line).isSome := by
  obtain ⟨statement, given⟩ := Option.isSome_iff_exists.mp accepted
  obtain ⟨tail, text⟩ := isPrefix
  obtain ⟨ts, r, _, reads, derives, _⟩ := exists_reads_of_front given text.symm
  obtain ⟨found, _, r', foundThere, _⟩ :=
    statement_reach (Reader.ofString line).bounded derives reads
  rw [parse_lenient_eq_some_iff.mpr ⟨r', foundThere⟩]
  rfl

/-- What lenient parsing finds is the longest strict statement at the front of the line. -/
theorem exists_longestStatement (given : parse .lenient line = some statement) :
    ∃ front, LongestStatement line front ∧ parse .strict front = some statement := by
  obtain ⟨r, found⟩ := parse_lenient_eq_some_iff.mp given
  obtain ⟨ts, reads, derives⟩ := statement_sound found
  obtain ⟨front, text, exchange⟩ := (reads_iff_lexes.mp reads).2.exists_front
  change line.toList = front ++ r.unread at text
  -- The blanks behind the statement belong to the longest piece.
  have blanks := exchange (r.unread.takeWhile isBlank) fun c member => by
    rw [List.head?_takeWhile] at member
    exact (Option.mem_filter_iff.mp member).1
  have accepted : parse .strict (String.ofList (front ++ r.unread.takeWhile isBlank)) =
      some statement :=
    parse_strict_eq_some_iff.mpr ⟨ts, tokens_eq_append_endOfText_iff.mpr
      ⟨_, by rwa [String.toList_ofList], fun _ => List.mem_takeWhile_imp⟩, derives⟩
  have pieces : line.toList =
      front ++ r.unread.takeWhile isBlank ++ r.unread.dropWhile isBlank := by
    rw [text, List.append_assoc, List.takeWhile_append_dropWhile]
  refine ⟨_, ⟨?_, by rw [accepted]; rfl, ?_⟩, accepted⟩
  · rw [String.toList_ofList, pieces]
    exact List.prefix_append _ _
  · -- The rules reach as far in the line as any other piece does.
    intro other isPrefix acceptedOther
    obtain ⟨_, givenOther⟩ := Option.isSome_iff_exists.mp acceptedOther
    obtain ⟨tail, textOther⟩ := isPrefix
    obtain ⟨us, r', _, readsOther, derivesOther, suffix⟩ :=
      exists_reads_of_front givenOther textOther.symm
    obtain ⟨_, more, r'', foundThere, further⟩ :=
      statement_reach (Reader.ofString line).bounded derivesOther readsOther
    rw [found] at foundThere
    obtain rfl := (Prod.mk.inj foundThere).2
    have left := ((reads_iff_lexes.mp further).2.dropWhile_isBlank_suffix.trans suffix).length_le
    have total := congrArg List.length (pieces.symm.trans textOther.symm)
    rw [← String.length_toList, ← String.length_toList, String.toList_ofList]
    simp only [List.length_append] at total ⊢
    omega

/-- **Lenient parsing is strict parsing of the longest acceptable piece.** A line without a strict
statement at its front has no lenient statement. Any other has a longest such piece, and its lenient
statement is the strict one of that piece; it is that of the whole line if the line has one. -/
theorem parse_lenient_iff_longestStatement :
    (∀ line, (∀ front : String, front.toList <+: line.toList → parse .strict front = none) →
      parse .lenient line = none) ∧
    (∀ line, (∃ front : String, front.toList <+: line.toList ∧ (parse .strict front).isSome) →
      ∃ front, LongestStatement line front) ∧
    (∀ line front, LongestStatement line front → parse .lenient line = parse .strict front) ∧
    ∀ line statement, parse .strict line = some statement →
      parse .lenient line = some statement := by
  have ofLongest (line front : String) (longest : LongestStatement line front) :
      parse .lenient line = parse .strict front := by
    have isSome := isSome_parse_lenient_of_front longest.isPrefix longest.accepted
    obtain ⟨statement, given⟩ := Option.isSome_iff_exists.mp isSome
    obtain ⟨other, longestOther, accepted⟩ := exists_longestStatement given
    rw [given, ← accepted, longest.unique longestOther]
  refine ⟨fun line rejected => ?_, fun line ⟨front, isPrefix, accepted⟩ => ?_, ofLongest,
    fun line statement given => ?_⟩
  · rw [Option.eq_none_iff_forall_ne_some]
    intro statement given
    obtain ⟨front, longest, _⟩ := exists_longestStatement given
    have accepted := longest.accepted
    rw [rejected front longest.isPrefix] at accepted
    cases accepted
  · have isSome := isSome_parse_lenient_of_front isPrefix accepted
    obtain ⟨statement, given⟩ := Option.isSome_iff_exists.mp isSome
    exact (exists_longestStatement given).imp fun _ => And.left
  · have whole : LongestStatement line line :=
      ⟨List.prefix_rfl, by rw [given]; rfl, fun other isPrefix _ => by
        simpa only [String.length_toList] using isPrefix.length_le⟩
    rw [ofLongest line line whole, given]

/-- A parenthesis that was never opened ends a line, and so does a number that follows a name. -/
theorem parse_lenient_iff_longestStatement_juxtaposed :
    parse .lenient ")" = none ∧
    LongestStatement "a = b + c 2" "a = b + c " ∧
    (∃ front, LongestStatement "a = b + c 2" front) ∧
    parse .lenient "a = b + c 2" = parse .strict "a = b + c " ∧
    parse .lenient "a = b + c " =
      some (.assignment "a" (.binary .add (.name "b") (.name "c"))) := by
  obtain ⟨rejects, exists_longest, ofLongest, whole⟩ := parse_lenient_iff_longestStatement
  have longest : LongestStatement "a = b + c 2" "a = b + c " := by
    refine ⟨by decide +kernel, by decide +kernel, fun other isPrefix accepted => ?_⟩
    have all : ∀ cs ∈ "a = b + c 2".toList.inits,
        (parse .strict (String.ofList cs)).isSome → cs.length ≤ 10 := by decide +kernel
    have short := all other.toList ((List.mem_inits _ _).mpr isPrefix)
    rw [String.ofList_toList, String.length_toList] at short
    exact short accepted
  refine ⟨rejects ")" fun front isPrefix => ?_, longest,
    exists_longest _ ⟨_, longest.isPrefix, longest.accepted⟩, ofLongest _ _ longest,
    whole _ _ (by decide +kernel)⟩
  have all : ∀ cs ∈ ")".toList.inits, parse .strict (String.ofList cs) = none := by decide +kernel
  have rejected := all front.toList ((List.mem_inits _ _).mpr isPrefix)
  rwa [String.ofList_toList] at rejected

end Lenient

end Formula
