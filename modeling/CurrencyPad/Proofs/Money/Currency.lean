import CurrencyPad.Money.Currency
import CurrencyPad.Proofs.Text.Plain

/-!
# Codes in normal form

A code in normal form is left as it is when it is brought into normal form
again.  Upper case is made of capitals, which are their own upper case and are
no blanks, and of characters that have no other upper case.
-/

namespace CurrencyPad

namespace Text

/-- A visible character that is its own upper case. -/
structure IsCapital (c : Char) : Prop where
  own : upperChar c = [c]
  visible : isBlank c = false

/-- Whether the code points from a first to a last one, in equal steps, are not
among the letters of a run: they lie before or after it, or between every two of
its letters. -/
def areApart (first last step : Nat) (run : CaseRun) : Bool :=
  Nat.blt last run.first || Nat.blt run.last first ||
    ((Nat.beq step 2 || Nat.beq first last) && Nat.beq run.step 2 &&
      !Nat.beq (first % 2) (run.first % 2))

/-- Whether the code points from a first to a last one, in equal steps, are
characters of which no table of letters and blanks knows. -/
def areCapitals (first last step : Nat) : Bool :=
  (Nat.blt last 0xD800 || (Nat.blt 0xDFFF first && Nat.blt last 0x110000)) &&
    (upperCaseExpansions.all fun entry =>
      Nat.blt last entry.1 || Nat.blt entry.1 first) &&
    upperCaseRuns.all (areApart first last step) &&
    blankRanges.all fun range =>
      Nat.blt last range.1 || Nat.blt range.2 first

section

variable {first last step code : Nat}

private theorem contains_eq_false {run : CaseRun}
    (apart : areApart first last step run = true)
    (within : first ≤ code ∧ code ≤ last)
    (stepped : (code - first) % step = 0) :
    run.contains code = false := by
  simp only [areApart, Bool.or_eq_true, Bool.and_eq_true, Nat.blt_eq,
    Bool.not_eq_true', Nat.beq_eq] at apart
  rw [Bool.eq_false_iff]
  intro inside
  simp only [CaseRun.contains, Bool.and_eq_true, decide_eq_true_eq,
    beq_iff_eq] at inside
  obtain ⟨⟨lower, upper⟩, letter⟩ := inside
  rcases apart with (before | after) | ⟨⟨steps, runSteps⟩, parity⟩
  · omega
  · omega
  · have differs := Nat.ne_of_beq_eq_false parity
    rw [runSteps] at letter
    rcases steps with two | single
    · rw [two] at stepped
      omega
    · omega

theorem isCapital_of_areCapitals
    (capitals : areCapitals first last step = true)
    (within : first ≤ code ∧ code ≤ last)
    (stepped : (code - first) % step = 0) : IsCapital (Char.ofNat code) := by
  simp only [areCapitals, Bool.and_eq_true, Bool.or_eq_true,
    List.all_eq_true, Nat.blt_eq] at capitals
  obtain ⟨⟨⟨valid, expansions⟩, runs⟩, blanks⟩ := capitals
  have isValid : code.isValidChar := by
    unfold Nat.isValidChar
    omega
  have isChar : (Char.ofNat code).toNat = code := by
    rw [Char.ofNat, dif_pos isValid]
    rfl
  constructor
  · have noExpansion :
        upperCaseExpansions.find? (·.1 == code) = none := by
      rw [List.find?_eq_none]
      intro entry member same
      have apart := expansions entry member
      rw [beq_iff_eq] at same
      omega
    have noRun : upperCaseRuns.find? (·.contains code) = none := by
      rw [List.find?_eq_none]
      intro run member
      rw [contains_eq_false (runs run member) within stepped]
      exact Bool.false_ne_true
    simp only [upperChar, isChar, noExpansion, noRun]
  · rw [isBlank, inRanges, List.any_eq_false]
    intro range member inside
    have apart := blanks range member
    simp only [inRange, isChar, Bool.and_eq_true, decide_eq_true_eq]
      at inside
    omega

end

-- The letters of a run lie in equal steps, so two runs are compared by their ends
-- and never letter by letter.
private theorem areCapitals_expansions :
    (upperCaseExpansions.all fun entry =>
      !entry.2.isEmpty && entry.2.all fun code => areCapitals code code 1) =
        true := by
  decide +kernel

private theorem areCapitals_runs :
    (upperCaseRuns.all fun run =>
      decide (0 ≤ run.first + run.offset) &&
        areCapitals (run.first + run.offset).toNat
          (run.last + run.offset).toNat run.step) = true := by
  decide +kernel

/-- A character is its own upper case or has an upper case of capitals. -/
theorem upperChar_cases (c : Char) :
    upperChar c = [c] ∨
      (upperChar c ≠ [] ∧ ∀ d ∈ upperChar c, IsCapital d) := by
  unfold upperChar
  split
  case h_1 point codes found =>
    right
    have all := List.all_eq_true.mp areCapitals_expansions _
      (List.mem_of_find?_eq_some found)
    simp only [Bool.and_eq_true, List.all_eq_true] at all
    refine ⟨by simpa using all.1, ?_⟩
    intro d member
    obtain ⟨code, listed, rfl⟩ := List.mem_map.mp member
    exact isCapital_of_areCapitals (all.2 code listed)
      ⟨Nat.le_refl code, Nat.le_refl code⟩ (Nat.mod_one _)
  · split
    case h_1 run found =>
      right
      have all := List.all_eq_true.mp areCapitals_runs run
        (List.mem_of_find?_eq_some found)
      have letter : run.contains c.toNat = true := by
        simpa using List.find?_some found
      simp only [CaseRun.contains, Bool.and_eq_true, decide_eq_true_eq,
        beq_iff_eq] at all letter
      obtain ⟨nonneg, capitals⟩ := all
      obtain ⟨⟨lower, upper⟩, stepped⟩ := letter
      refine ⟨List.cons_ne_nil _ _, fun d member => ?_⟩
      rw [List.mem_singleton.mp member]
      refine isCapital_of_areCapitals capitals (by omega) ?_
      have same : (c.toNat + run.offset).toNat -
          (run.first + run.offset).toNat = c.toNat - run.first := by
        omega
      rw [same]
      exact stepped
    · exact .inl rfl

theorem upperChar_of_mem_upperChar {c d : Char} (member : d ∈ upperChar c) :
    upperChar d = [d] := by
  rcases upperChar_cases c with own | ⟨_, capitals⟩
  · rw [own] at member
    rw [List.mem_singleton.mp member]
    exact own
  · exact (capitals d member).own

theorem isBlank_of_mem_upperChar {c d : Char} (visible : isBlank c = false)
    (member : d ∈ upperChar c) : isBlank d = false := by
  rcases upperChar_cases c with own | ⟨_, capitals⟩
  · rw [own] at member
    rw [List.mem_singleton.mp member]
    exact visible
  · exact (capitals d member).visible

theorem upperChar_ne_nil (c : Char) : upperChar c ≠ [] := by
  rcases upperChar_cases c with own | ⟨nonempty, _⟩
  · rw [own]
    exact List.cons_ne_nil c []
  · exact nonempty

theorem upperCase_upperCase (text : Text) :
    upperCase (upperCase text) = upperCase text := by
  have own : ∀ d ∈ upperCase text, upperChar d = [d] := by
    intro d member
    obtain ⟨c, _, upper⟩ := List.mem_flatMap.mp member
    exact upperChar_of_mem_upperChar upper
  generalize upperCase text = upper at own
  induction upper with
  | nil =>
      rfl
  | cons d rest inductionHypothesis =>
      rw [List.forall_mem_cons] at own
      have later := inductionHypothesis own.2
      unfold upperCase at later ⊢
      rw [List.flatMap_cons, own.1, later]
      rfl

private theorem isBlank_head?_dropWhile (text : Text) :
    ∀ c ∈ (text.dropWhile isBlank).head?, isBlank c = false := by
  intro c first
  have stops := List.head?_dropWhile_not isBlank text
  rw [first] at stops
  exact stops

/-- A text does not begin or end with a blank when it is stripped. -/
theorem isBlank_ends_strip (text : Text) :
    (∀ c ∈ (strip text).head?, isBlank c = false) ∧
      ∀ c ∈ (strip text).getLast?, isBlank c = false := by
  unfold strip dropTrailing
  constructor
  · obtain ⟨rest, parts⟩ := List.reverse_prefix.mpr
      (List.dropWhile_suffix (l := (text.dropWhile isBlank).reverse) isBlank)
    rw [List.reverse_reverse] at parts
    intro c first
    refine isBlank_head?_dropWhile text c ?_
    rw [← parts, List.head?_append, Option.mem_def.mp first]
    rfl
  · rw [List.getLast?_reverse]
    exact isBlank_head?_dropWhile _

theorem isBlank_ends_upperCase {text : Text}
    (first : ∀ c ∈ text.head?, isBlank c = false)
    (last : ∀ c ∈ text.getLast?, isBlank c = false) :
    (∀ c ∈ (upperCase text).head?, isBlank c = false) ∧
      ∀ c ∈ (upperCase text).getLast?, isBlank c = false := by
  unfold upperCase
  constructor
  · cases text with
    | nil =>
        exact nofun
    | cons c rest =>
        intro d isFirst
        rw [List.flatMap_cons, List.head?_append_of_ne_nil _
          (upperChar_ne_nil c)] at isFirst
        exact isBlank_of_mem_upperChar (first c rfl)
          (List.mem_of_mem_head? isFirst)
  · rcases List.eq_nil_or_concat text with rfl | ⟨init, c, rfl⟩
    · exact nofun
    · intro d isLast
      rw [List.concat_eq_append] at last isLast
      rw [List.flatMap_append, List.flatMap_singleton,
        List.getLast?_append_of_ne_nil _ (upperChar_ne_nil c)] at isLast
      exact isBlank_of_mem_upperChar (last c (by simp))
        (List.mem_of_getLast? isLast)

end Text

namespace Currency

def IsNormal (code : Text) : Prop :=
  normalize code = code

/-- A code is brought into normal form once and for all. -/
theorem isNormal_normalize (code : Text) : IsNormal (normalize code) := by
  obtain ⟨first, last⟩ := Text.isBlank_ends_strip code
  obtain ⟨upperFirst, upperLast⟩ := Text.isBlank_ends_upperCase first last
  unfold IsNormal normalize
  rw [Text.strip_eq_self upperFirst upperLast, Text.upperCase_upperCase]

end Currency

end CurrencyPad
