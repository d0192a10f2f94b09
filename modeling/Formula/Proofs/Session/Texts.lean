import Formula.Proofs.Session.Faults
import Mathlib.Data.List.Basic

/-!
# Sessions on texts

The bytes of a line feed and of a carriage return stand for these characters alone, wherever they
are in the encoding of a text. So the lines of an encoded text are those of the text, encoded, all
of them can be read, and a session answers every one.

## Main definitions

* `TextSplit` — the complete lines of a text, and the piece behind them
* `textContents` — the lines that a text has to give, complete or not
* `Session.output` — what a session writes for a text

## Main results

* `TextSplit.lineSplit` — a text is split where its bytes are
* `run_of_textSplit` — a session writes its transcript of the lines of a text
* `TextSplit.append`, `TextSplit.withReturns`, `TextSplit.feed` — texts that are put together,
  or changed at the ends of their lines
-/

namespace Formula

/-- Lines that end with a line feed, and a piece without one behind them. -/
structure TextSplit (text : String) (lines : List String) (last : String) : Prop where
  toList_eq : text.toList = (lines.flatMap fun line => line.toList ++ ['\n']) ++ last.toList
  forall_notMem : ∀ line ∈ lines, '\n' ∉ line.toList
  last_notMem : '\n' ∉ last.toList

/-- A line without a carriage return at its end. -/
def trimReturn (line : String) : String :=
  if line.toList.getLast? = some '\r' then String.ofList line.toList.dropLast else line

/-- The lines of a text that is split. A carriage return in front of a line feed belongs to the end
of the line, and the piece behind the last line feed is a line if it is not empty. -/
def textContents (lines : List String) (last : String) : List String :=
  lines.map trimReturn ++ if last = "" then [] else [last]

/-- The text with a carriage return in front of every line feed. -/
def withReturns (text : String) : String :=
  String.ofList (text.toList.flatMap fun c => if c = '\n' then ['\r', '\n'] else [c])

/-- What a session writes for a text, into a sink that takes everything. -/
def Session.output (session : Session) (text : String) : List UInt8 :=
  (session.run ⟨utf8Encode text, none⟩ {}).output

/-! ### Bytes below 128 -/

section Bytes

variable {b : UInt8} {c : Char} {text : String}

/-- A byte below 128 occurs in the encoding of no character but the one it stands for. -/
theorem mem_utf8EncodeChar_iff (ascii : b.toNat < 128) :
    b ∈ String.utf8EncodeChar c ↔ c.toNat = b.toNat := by
  have byte (n : Nat) : b = UInt8.ofNat n ↔ n % 256 = b.toNat := by
    rw [← UInt8.toNat_inj, UInt8.toNat_ofNat', eq_comm]
  have value : c.val.toNat = c.toNat := rfl
  unfold String.utf8EncodeChar
  simp only [value]
  -- All bytes of the longer encodings are 128 at least.
  split
  · simp only [List.mem_singleton, byte]
    omega
  · split
    · simp only [List.mem_cons, List.not_mem_nil, byte, or_false]
      omega
    · split
      · simp only [List.mem_cons, List.not_mem_nil, byte, or_false]
        omega
      · simp only [List.mem_cons, List.not_mem_nil, byte, or_false]
        omega

/-- The byte of a line feed occurs only where the text has one. -/
theorem newline_mem_utf8Encode_iff : 0x0A ∈ utf8Encode text ↔ '\n' ∈ text.toList := by
  have newline (c : Char) : 0x0A ∈ String.utf8EncodeChar c ↔ c = '\n' := by
    rw [mem_utf8EncodeChar_iff (by decide), ← Char.toNat_inj]
    rfl
  simp [utf8Encode, List.mem_flatMap, newline]

theorem trimReturn_append (line : String) : trimReturn (line ++ "\r") = line := by
  simp [trimReturn]

theorem trimReturn_of_getLast?_ne (noReturn : text.toList.getLast? ≠ some '\r') :
    trimReturn text = text := if_neg noReturn

/-- The last byte of a text is a carriage return if its last character is. -/
theorem dropReturn_utf8Encode (text : String) :
    dropReturn (utf8Encode text) = utf8Encode (trimReturn text) := by
  rcases List.eq_nil_or_concat text.toList with empty | ⟨cs, c, whole⟩
  · simp [dropReturn, trimReturn, utf8Encode, empty]
  · have bytes : utf8Encode text = cs.flatMap String.utf8EncodeChar ++ String.utf8EncodeChar c := by
      simp [utf8Encode, whole]
    by_cases isReturn : c = '\r'
    · subst isReturn
      have single : String.utf8EncodeChar '\r' = [0x0D] := by decide
      rw [single] at bytes
      simp only [dropReturn, bytes, List.getLast?_concat, if_true, List.dropLast_concat, trimReturn,
        whole, List.concat_eq_append]
      simp [utf8Encode]
    · have other : (String.utf8EncodeChar c).getLast? ≠ some 0x0D := by
        intro last
        have member := List.mem_of_getLast? last
        rw [mem_utf8EncodeChar_iff (by decide)] at member
        exact isReturn (Char.toNat_inj.mp member)
      have last : (utf8Encode text).getLast? ≠ some 0x0D := by
        rwa [bytes, List.getLast?_append_of_ne_nil _ String.utf8EncodeChar_ne_nil]
      rw [dropReturn, if_neg last, trimReturn_of_getLast?_ne]
      simpa [whole] using isReturn

end Bytes

section Splits

variable {session : Session} {sink : Sink} {text x y last : String} {lines : List String}
variable {more : List String} {rest : String}

/-- A text is split where its bytes are split. -/
theorem TextSplit.lineSplit (split : TextSplit text lines last) :
    LineSplit (utf8Encode text) (lines.map utf8Encode) (utf8Encode last) := by
  have notMem {line : String} (free : '\n' ∉ line.toList) : 0x0A ∉ utf8Encode line :=
    fun member => free (newline_mem_utf8Encode_iff.mp member)
  refine ⟨?_, ?_, notMem split.last_notMem⟩
  · have single : String.utf8EncodeChar '\n' = [0x0A] := by decide
    rw [utf8Encode, split.toList_eq]
    simp [List.flatMap_append, List.flatMap_assoc, List.flatMap_map, single, utf8Encode]
  · exact List.forall_mem_map.mpr fun line member => notMem (split.forall_notMem line member)

theorem utf8Encode_injective : Function.Injective utf8Encode := by
  intro x y same
  have decoded := utf8Decode?_utf8Encode x
  rw [same, utf8Decode?_utf8Encode] at decoded
  exact (Option.some.inj decoded).symm

/-- A text is split in one way. -/
theorem existsUnique_textSplit (text : String) :
    ∃ lines last, TextSplit text lines last ∧
      ∀ lines' last', TextSplit text lines' last' → lines' = lines ∧ last' = last := by
  obtain ⟨pieces, last, toList_eq, notMem, lastNotMem⟩ := exists_cut_behind '\n' text.toList
  have split : TextSplit text (pieces.map String.ofList) (String.ofList last) := by
    refine ⟨?_, ?_, ?_⟩
    · simpa [List.flatMap_map] using toList_eq
    · simpa using notMem
    · simpa using lastNotMem
  refine ⟨_, _, split, fun lines' last' split' => ?_⟩
  -- The bytes of the text are split in one way.
  obtain ⟨_, _, _, unique⟩ := existsUnique_lineSplit (utf8Encode text)
  obtain ⟨sameLines, sameLast⟩ := unique _ _ split.lineSplit
  obtain ⟨sameLines', sameLast'⟩ := unique _ _ split'.lineSplit
  exact ⟨utf8Encode_injective.list_map (sameLines'.trans sameLines.symm),
    utf8Encode_injective (sameLast'.trans sameLast.symm)⟩

/-- A text is determined by its lines. -/
theorem TextSplit.text_unique (split : TextSplit x lines last) (split' : TextSplit y lines last) :
    x = y :=
  String.toList_inj.mp (split.toList_eq.trans split'.toList_eq.symm)

/-- What bytes of a text have to give are the lines of the text. -/
theorem contents_utf8Encode (text : String) (lines : List String) (last : String) :
    Source.contents ⟨utf8Encode text, none⟩ (lines.map utf8Encode) (utf8Encode last) =
      (textContents lines last).map utf8Encode := by
  have empty : utf8Encode last = [] ↔ last = "" :=
    utf8Encode_injective.eq_iff (b := "")
  simp only [Source.contents, textContents, List.map_append, List.map_map, true_and, ne_eq, empty]
  congr 1
  · exact List.map_congr_left fun line _ => dropReturn_utf8Encode line
  · by_cases h : last = "" <;> simp [h]

/-- All encoded texts can be read. -/
theorem legible_utf8Encode (texts : List String) :
    Legible none (texts.map utf8Encode) texts none := by
  induction texts with
  | nil => exact .nil
  | cons text texts ih => exact .cons (utf8Decode?_utf8Encode text) ih

/-- All lines of a text can be read. -/
theorem legible_contents (text : String) (lines : List String) (last : String) :
    Legible (Source.mk (utf8Encode text) none).fault
      (Source.contents ⟨utf8Encode text, none⟩ (lines.map utf8Encode) (utf8Encode last))
      (textContents lines last) none := by
  rw [contents_utf8Encode]
  exact legible_utf8Encode _

/-- A session writes its transcript of the lines of a text, if there is room. -/
theorem run_of_textSplit (split : TextSplit text lines last)
    (fits : ∀ limit ∈ sink.limit,
      (session.transcript (textContents lines last)).length ≤ limit.room) :
    session.run ⟨utf8Encode text, none⟩ sink =
      ⟨sink.output ++ session.transcript (textContents lines last),
        sink.flushFault.map .flushing⟩ :=
  run_of_fits split.lineSplit (legible_contents text lines last) fits

theorem Session.output_eq (split : TextSplit text lines last) :
    session.output text = session.transcript (textContents lines last) := by
  rw [output, run_of_textSplit split (by simp)]
  simp [Sink.output]

/-! ### Changing texts -/

/-- Behind complete lines other lines begin. -/
theorem TextSplit.append (first : TextSplit x lines "") (second : TextSplit y more rest) :
    TextSplit (x ++ y) (lines ++ more) rest where
  toList_eq := by simp [first.toList_eq, second.toList_eq]
  forall_notMem := List.forall_mem_append.mpr ⟨first.forall_notMem, second.forall_notMem⟩
  last_notMem := second.last_notMem

theorem textContents_append (lines more : List String) (last : String) :
    textContents (lines ++ more) last = textContents lines "" ++ textContents more last := by
  simp [textContents]

/-- The piece behind the last line feed ends where the text does. -/
theorem TextSplit.getLast?_eq (split : TextSplit text lines last) (some : last ≠ "") :
    text.toList.getLast? = last.toList.getLast? := by
  rw [split.toList_eq, List.getLast?_append_of_ne_nil]
  exact fun empty => some (String.toList_eq_nil_iff.mp empty)

/-- A text has nothing behind its complete lines if it is empty or ends with a line feed. -/
theorem TextSplit.last_eq_empty_iff (split : TextSplit text lines last) :
    last = "" ↔ text = "" ∨ text.toList.getLast? = some '\n' := by
  constructor
  · rintro rfl
    have pieces := split.toList_eq
    rcases List.eq_nil_or_concat lines with rfl | ⟨front, line, rfl⟩
    · exact Or.inl (String.toList_eq_nil_iff.mp (by simpa using pieces))
    · exact Or.inr (by simp [pieces])
  · intro complete
    by_contra some
    have ending := split.getLast?_eq some
    rcases complete with rfl | newline
    · exact some (String.toList_eq_nil_iff.mp (List.getLast?_eq_none_iff.mp ending.symm))
    · rw [newline] at ending
      exact split.last_notMem (List.mem_of_getLast? ending.symm)

/-- A line feed completes the last line. -/
theorem TextSplit.feed (split : TextSplit text lines last) :
    TextSplit (text ++ "\n") (lines ++ [last]) "" where
  toList_eq := by simp [split.toList_eq]
  forall_notMem := List.forall_mem_append.mpr
    ⟨split.forall_notMem, by simpa using split.last_notMem⟩
  last_notMem := by simp

/-- With carriage returns in front of the line feeds each complete line ends with one. -/
theorem TextSplit.withReturns (split : TextSplit text lines last) :
    TextSplit (withReturns text) (lines.map (· ++ "\r")) last where
  toList_eq := by
    have others {cs : List Char} (free : '\n' ∉ cs) :
        cs.flatMap (fun c => if c = '\n' then ['\r', '\n'] else [c]) = cs := by
      conv_rhs => rw [← List.flatMap_singleton' cs]
      refine List.flatMap_congr fun c member => if_neg ?_
      rintro rfl
      exact free member
    rw [Formula.withReturns, String.toList_ofList, split.toList_eq, List.flatMap_append,
      others split.last_notMem, List.flatMap_assoc, List.flatMap_map]
    congr 1
    refine List.flatMap_congr fun line member => ?_
    rw [List.flatMap_append, others (split.forall_notMem line member)]
    simp
  forall_notMem := by
    simpa using split.forall_notMem
  last_notMem := split.last_notMem

end Splits

end Formula
