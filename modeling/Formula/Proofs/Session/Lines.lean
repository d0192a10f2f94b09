import Formula.Session.Source

/-!
# The lines of a source

What the lines of some bytes are is said without reading them: each complete line ends at a line
feed, and what is behind the last line feed is a piece of its own. The texts that can be read are
those before the first line that is not UTF-8.

## Main definitions

* `LineSplit` — the complete lines of some bytes, and the piece behind them
* `Source.contents` — the lines a source has to give, complete or not
* `Legible` — the texts that can be read, and why no more can be

## Main results

* `existsUnique_lineSplit`, `existsUnique_legible` — there is one way to split and to read
* `Source.readings_eq` — the readings of a source come from its contents and its fault
-/

namespace Formula

/-- Lines that end with a line feed, and a piece without one behind them. -/
structure LineSplit (bytes : List UInt8) (lines : List (List UInt8)) (last : List UInt8) :
    Prop where
  bytes_eq : bytes = lines.flatMap (· ++ [0x0A]) ++ last
  forall_notMem : ∀ line ∈ lines, 0x0A ∉ line
  last_notMem : 0x0A ∉ last

/-- The lines of a source that is split. A carriage return in front of a line feed belongs to the
end of the line. The piece behind the last line feed is a line if it is not empty, but it is lost
where the source has a fault. -/
def Source.contents (source : Source) (lines : List (List UInt8)) (last : List UInt8) :
    List (List UInt8) :=
  lines.map dropReturn ++ if source.fault = none ∧ last ≠ [] then [last] else []

/-- The texts of the lines in front of the first one that is not UTF-8, and why no more are read:
that line, or else the fault behind all lines, if there is one. -/
inductive Legible (fault : Option String) : List (List UInt8) → List String → Option String → Prop
  | nil : Legible fault [] [] fault
  | invalid {line : List UInt8} {rest : List (List UInt8)} :
      utf8Decode? line = none → Legible fault (line :: rest) [] (some invalidText)
  | cons {line : List UInt8} {rest : List (List UInt8)} {text : String} {texts : List String}
      {cause : Option String} :
      utf8Decode? line = some text → Legible fault rest texts cause →
      Legible fault (line :: rest) (text :: texts) cause

section Lines

variable {bytes last : List UInt8} {lines : List (List UInt8)}

/-- Splitting at every line feed gives the lines and the piece behind them. -/
theorem LineSplit.splitOn_eq (split : LineSplit bytes lines last) :
    bytes.splitOn 0x0A = lines ++ [last] := by
  obtain ⟨rfl, notMem, lastNotMem⟩ := split
  induction lines with
  | nil => exact List.splitOn_eq_singleton lastNotMem
  | cons line lines ih =>
    obtain ⟨notMemFirst, notMemRest⟩ := List.forall_mem_cons.mp notMem
    rw [List.flatMap_cons, List.append_assoc, List.append_assoc, List.singleton_append,
      List.splitOn_append_cons_self_of_not_mem notMemFirst, ih notMemRest, List.cons_append]

/-- Any list can be cut behind each occurrence of an element. -/
theorem exists_cut_behind {α : Type} [DecidableEq α] (x : α) (l : List α) :
    ∃ (pieces : List (List α)) (last : List α), l = pieces.flatMap (· ++ [x]) ++ last ∧
      (∀ piece ∈ pieces, x ∉ piece) ∧ x ∉ last := by
  induction l with
  | nil => exact ⟨[], [], rfl, by simp, by simp⟩
  | cons y l ih =>
    obtain ⟨pieces, last, rfl, notMem, lastNotMem⟩ := ih
    by_cases cut : y = x
    · refine ⟨[] :: pieces, last, ?_, ?_, lastNotMem⟩
      · simp [cut]
      · simpa using notMem
    · -- Any other element belongs to the first piece, or to the last one if there is no other.
      cases pieces with
      | nil =>
        refine ⟨[], y :: last, rfl, by simp, ?_⟩
        simpa [Ne.symm cut] using lastNotMem
      | cons piece pieces =>
        obtain ⟨notMemFirst, notMemRest⟩ := List.forall_mem_cons.mp notMem
        refine ⟨(y :: piece) :: pieces, last, rfl, ?_, lastNotMem⟩
        refine List.forall_mem_cons.mpr ⟨?_, notMemRest⟩
        simpa [Ne.symm cut] using notMemFirst

theorem exists_lineSplit (bytes : List UInt8) : ∃ lines last, LineSplit bytes lines last := by
  obtain ⟨lines, last, bytes_eq, notMem, lastNotMem⟩ := exists_cut_behind 0x0A bytes
  exact ⟨lines, last, bytes_eq, notMem, lastNotMem⟩

/-- Bytes are split into lines in one way. -/
theorem existsUnique_lineSplit (bytes : List UInt8) :
    ∃ lines last, LineSplit bytes lines last ∧
      ∀ lines' last', LineSplit bytes lines' last' → lines' = lines ∧ last' = last := by
  obtain ⟨lines, last, split⟩ := exists_lineSplit bytes
  refine ⟨lines, last, split, fun lines' last' split' => ?_⟩
  have same : lines' ++ [last'] = lines ++ [last] := split'.splitOn_eq.symm.trans split.splitOn_eq
  obtain ⟨sameLines, sameLast⟩ := List.append_inj' same rfl
  exact ⟨sameLines, List.singleton_inj.mp sameLast⟩

/-- The texts of a source come from its lines, and a fault comes after them. -/
theorem Source.readings_eq {source : Source} (split : LineSplit source.bytes lines last) :
    source.readings =
      (source.contents lines last).map readLine ++ source.fault.toList.map .error := by
  have pieces : source.lines = (lines, last) := by
    simp [Source.lines, split.splitOn_eq]
  rw [Source.readings, Source.ending, pieces, Source.contents]
  -- A fault takes the place of the last piece.
  cases source.fault with
  | some cause => simp
  | none =>
    cases last with
    | nil => simp
    | cons b last => simp

-- A carriage return belongs to the end of a line only in front of a line feed.
example : (Source.readings ⟨[0x61, 0x0D, 0x0A, 0x62, 0x0D], none⟩).map Except.toOption =
    [some "a", some "b\r"] := by decide +kernel

/-- What can be read of some lines is determined. -/
theorem existsUnique_legible (fault : Option String) (contents : List (List UInt8)) :
    ∃ texts cause, Legible fault contents texts cause ∧
      ∀ texts' cause', Legible fault contents texts' cause' → texts' = texts ∧ cause' = cause := by
  induction contents with
  | nil =>
    refine ⟨[], fault, .nil, fun texts' cause' legible => ?_⟩
    cases legible
    exact ⟨rfl, rfl⟩
  | cons line contents ih =>
    cases decoded : utf8Decode? line with
    | none =>
      refine ⟨[], some invalidText, .invalid decoded, fun texts' cause' legible => ?_⟩
      cases legible with
      | invalid _ => exact ⟨rfl, rfl⟩
      | cons valid _ => simp [decoded] at valid
    | some text =>
      obtain ⟨texts, cause, legible, unique⟩ := ih
      refine ⟨text :: texts, cause, .cons decoded legible, fun texts' cause' legible' => ?_⟩
      cases legible' with
      | invalid invalid => simp [decoded] at invalid
      | cons valid later =>
        obtain ⟨rfl, rfl⟩ := unique _ _ later
        exact ⟨by rw [Option.some.inj (valid.symm.trans decoded)], rfl⟩

end Lines

end Formula
