import CurrencyPad.Pad.Keys
import CurrencyPad.Proofs.Engine.Session
import CurrencyPad.Proofs.Expression.Keyed

/-!
# Expressions on the keys

An expression can be typed on the pad as it stands.  Its blanks are no keys,
every other character is the key of its normal character, and the amount that
the pad shows in the end is the value of the expression.
-/

namespace CurrencyPad

namespace Text

/-- A character in one of some runs is in no run apart from all of them. -/
theorem inRanges_eq_false_of_apart {ranges others : List (Nat × Nat)}
    (apart :
      (ranges.all fun range => others.all fun other =>
        range.2 < other.1 || other.2 < range.1) = true)
    {c : Char} (inside : inRanges ranges c = true) :
    inRanges others c = false := by
  rw [inRanges, List.any_eq_true] at inside
  obtain ⟨range, member, within⟩ := inside
  rw [inRanges, List.any_eq_false]
  intro other otherMember otherWithin
  have separate := List.all_eq_true.mp
    (List.all_eq_true.mp apart range member) other otherMember
  simp only [inRange, Bool.and_eq_true, Bool.or_eq_true, decide_eq_true_eq]
    at within otherWithin separate
  omega

theorem isDigit_eq_false_of_isBlank {c : Char} (blank : isBlank c = true) :
    isDigit c = false := by
  have noDecimal : inRanges decimalDigitRanges c = false :=
    inRanges_eq_false_of_apart (by decide +kernel) blank
  have noSpecial : inRanges specialDigitRanges c = false :=
    inRanges_eq_false_of_apart (by decide +kernel) blank
  rw [isDigit, noDecimal, noSpecial]
  rfl

end Text

theorem Operator.ofChar?_eq_none_of_isBlank {c : Char}
    (blank : Text.isBlank c = true) : ofChar? c = none := by
  cases spelled : ofChar? c with
  | none =>
      rfl
  | some operator =>
      have visible : (!Text.isBlank c) = true :=
        of_ofChar? (fun d => !Text.isBlank d) (by decide) spelled
      rw [blank] at visible
      cases visible

open Expression (normalChar normalize typeNormal)

namespace Keys

theorem ofChar_of_isBlank {c : Char} (blank : Text.isBlank c = true) :
    ofChar c = .ok [] := by
  have different : ∀ d : Char, Text.isBlank d = false → c ≠ d := by
    rintro d visible rfl
    rw [blank] at visible
    cases visible
  have noDigit : ¬ Text.isDigit c = true := by
    rw [Text.isDigit_eq_false_of_isBlank blank]
    exact Bool.false_ne_true
  have noSeparator : ¬ (c = '.' ∨ c = ',') :=
    not_or.mpr ⟨different '.' (by decide), different ',' (by decide)⟩
  have noClear : ¬ (c = 'C' ∨ c = 'c') :=
    not_or.mpr ⟨different 'C' (by decide), different 'c' (by decide)⟩
  rw [ofChar, dif_neg noDigit, if_neg noSeparator,
    Operator.ofChar?_eq_none_of_isBlank blank]
  dsimp only
  rw [if_neg (different '=' (by decide)), if_neg noClear,
    if_neg (different '<' (by decide)), if_pos blank]

theorem ofChar_of_isDigit {c : Char} (digit : Text.isDigit c = true) :
    ofChar c = .ok [.digit ⟨c, digit⟩] :=
  dif_pos digit

theorem ofChar_of_ofChar? {c : Char} {operator : Operator}
    (spells : Operator.ofChar? c = some operator) :
    ofChar c = .ok [.operator operator] := by
  have noKey :
      (!Text.isDigit c && (c != '.' && c != ',')) = true :=
    Operator.of_ofChar?
      (fun d => !Text.isDigit d && (d != '.' && d != ',')) (by decide) spells
  simp only [Bool.and_eq_true, Bool.not_eq_true', bne_iff_ne, ne_eq]
    at noKey
  obtain ⟨noDigit, noPoint, noComma⟩ := noKey
  rw [ofChar, dif_neg (by rw [noDigit]; exact Bool.false_ne_true),
    if_neg (not_or.mpr ⟨noPoint, noComma⟩), spells]

end Keys

/-- An entry in which a key is appended to the expression and no error is
shown. -/
structure Entry.IsPlain (entry : Entry) : Prop where
  kept : entry.overrideInitial = false
  errorless : entry.showError = false

/-- An event that types a normal character. -/
def Event.Types (c : Char) (event : Event) : Prop :=
  ∀ (rates : Snapshot) (entry : Entry), entry.IsPlain →
    entry.step Config.default rates event =
      entry.typed (typeNormal entry.expression c)

/-- The characters of which numerals and operators consist. -/
def Expression.IsNormal (c : Char) : Prop :=
  Text.isAsciiDigit c = true ∨ c = '.' ∨
    ∃ operator : Operator, c = operator.canonical

namespace Event

theorem types_digit {c : Char} (digit : Text.isAsciiDigit c = true) :
    (Event.digit ⟨c, Text.isDigit_of_isAsciiDigit digit⟩).Types c := by
  rintro rates ⟨text, code, shown, override⟩ ⟨kept, errorless⟩
  cases kept
  cases errorless
  rw [Expression.typeNormal_digit digit]
  rfl

theorem types_separator : Event.separator.Types '.' :=
  fun _ _ _ => rfl

theorem types_operator (operator : Operator) :
    (Event.operator operator).Types operator.canonical := by
  intro rates entry _
  rw [Expression.typeNormal_canonical]
  rfl

end Event

namespace Keys

/-- A character that has a normal one is the key that types it. -/
theorem exists_ofChar {c normal : Char}
    (isNormal : normalChar Locale.default c = some normal)
    (known : Expression.IsNormal normal) :
    ∃ event, ofChar c = .ok [event] ∧ event.Types normal := by
  unfold normalChar at isNormal
  split_ifs at isNormal with blank grouping point
  · rw [point]
    cases isNormal
    exact ⟨.separator, rfl, Event.types_separator⟩
  · split at isNormal
    case h_1 operator spells =>
      cases isNormal
      exact ⟨.operator operator, ofChar_of_ofChar? spells,
        Event.types_operator operator⟩
    case h_2 noOperator =>
      cases isNormal
      rcases known with digit | isPoint | ⟨operator, rfl⟩
      · exact ⟨_, ofChar_of_isDigit _, Event.types_digit digit⟩
      · exact absurd isPoint point
      · cases operator <;> cases noOperator

/-- A row of keys without a comma types its normal form. -/
theorem exists_ofRow {text : Text} (ungrouped : ',' ∉ text)
    (known : ∀ c ∈ normalize Locale.default text, Expression.IsNormal c) :
    ∃ events, ofRow text = .ok events ∧
      ∀ (rates : Snapshot) (entry : Entry), entry.IsPlain →
        events.foldl (Entry.step Config.default rates) entry =
          entry.typed
            ((normalize Locale.default text).foldl typeNormal
              entry.expression) := by
  induction text with
  | nil =>
      refine ⟨[], rfl, ?_⟩
      rintro rates ⟨text, code, shown, override⟩ ⟨kept, _⟩
      cases kept
      rfl
  | cons c rest inductionHypothesis =>
      rw [List.mem_cons, not_or] at ungrouped
      cases isNormal : normalChar Locale.default c with
      | none =>
          have same : normalize Locale.default (c :: rest) =
              normalize Locale.default rest :=
            List.filterMap_cons_none isNormal
          -- Apart from blanks only the comma has no normal character.
          have blank : Text.isBlank c = true := by
            unfold normalChar at isNormal
            split_ifs at isNormal with blank grouping
            · exact blank
            · exact absurd (Option.some.inj grouping) ungrouped.1
            · split at isNormal <;> cases isNormal
          rw [same] at known ⊢
          obtain ⟨events, areKeys, typed⟩ :=
            inductionHypothesis ungrouped.2 known
          refine ⟨events, ?_, typed⟩
          rw [ofRow, ofChar_of_isBlank blank, areKeys]
          rfl
      | some normal =>
          have split : normalize Locale.default (c :: rest) =
              normal :: normalize Locale.default rest :=
            List.filterMap_cons_some isNormal
          rw [split, List.forall_mem_cons] at known
          obtain ⟨event, isKey, types⟩ := exists_ofChar isNormal known.1
          obtain ⟨events, areKeys, typed⟩ :=
            inductionHypothesis ungrouped.2 known.2
          refine ⟨event :: events, ?_, ?_⟩
          · rw [ofRow, isKey, areKeys]
            rfl
          · intro rates entry plain
            have next : (entry.typed
                (typeNormal entry.expression normal)).IsPlain :=
              ⟨rfl, plain.errorless⟩
            rw [List.foldl_cons, types rates entry plain,
              typed rates _ next, split]
            rfl

/-- An expression without a comma can be typed as it stands. -/
theorem exists_ofTexts {text : Text} (ungrouped : ',' ∉ text)
    {tree : Expression.Tree}
    (isRead : Expression.read Locale.default text = .ok tree) :
    ∃ events, ofTexts [text] = .ok events ∧
      ∀ (rates : Snapshot) (entry : Entry), entry.IsPlain →
        events.foldl (Entry.step Config.default rates) entry =
          entry.typed
            ((normalize Locale.default text).foldl typeNormal
              entry.expression) := by
  obtain ⟨row, valid, written, _⟩ :=
    Expression.readNormal_eq_ok_iff_row.mp isRead
  have known : ∀ c ∈ normalize Locale.default text,
      Expression.IsNormal c := by
    rw [← written]
    exact row.forall_mem_write valid (fun _ digit => .inl digit)
      (.inr (.inl rfl)) (fun operator => .inr (.inr ⟨operator, rfl⟩))
  obtain ⟨events, areKeys, typed⟩ := exists_ofRow ungrouped known
  have noCode : ofText text = ofRow text := by
    unfold ofText
    split
    case h_1 code =>
      have first : normalize Locale.default ('@' :: code) =
          '@' :: normalize Locale.default code :=
        List.filterMap_cons_some (by decide)
      rw [first, List.forall_mem_cons] at known
      rcases known.1 with digit | point | ⟨operator, same⟩
      · have noDigit : ¬ Text.isAsciiDigit '@' = true := by decide
        exact absurd digit noDigit
      · cases point
      · cases operator <;> cases same
    · rfl
  refine ⟨events, ?_, typed⟩
  have alone : ofTexts [text] = (ofRow text).bind fun events =>
      .ok (events ++ []) := by
    rw [← noCode]
    rfl
  rw [alone, areKeys]
  exact congrArg Except.ok (List.append_nil events)

end Keys

namespace Engine

/-- An expression without a comma is typed on a pad that starts with nothing,
with its blanks and with any spelling of its operators.  The amount that is
shown then is the value of the expression, and none is shown if the expression
has no value. -/
theorem replay_keys_shows_value
    (rates : Snapshot) (base : Text) {initial : Money}
    (isZero : (initial.amount.value == 0) = true) {text : Text}
    (ungrouped : ',' ∉ text) {tree : Expression.Tree}
    (isRead : Expression.read Locale.default text = .ok tree) :
    ∃ events display,
      Keys.ofTexts [text] = .ok events ∧
        (replay Config.default rates base initial events).published =
          some display ∧
        display.amount =
          (Expression.value? Locale.default text).map
            (Money.of · initial.currency) := by
  obtain ⟨events, areKeys, typed⟩ :=
    Keys.exists_ofTexts ungrouped isRead
  obtain ⟨startIdle, startEntry, _⟩ :=
    start_new_idle Config.default rates (Text.upperCase base)
  obtain ⟨idle, entered, _⟩ :=
    Idle.handleAll (.initial (some initial) :: events) startIdle 0
  have filled :
      Entry.step Config.default rates .blank (.initial (some initial)) =
        ⟨[], initial.currency, false, false⟩ :=
    if_pos isZero
  rw [startEntry, List.foldl_cons, filled,
    typed rates _ ⟨rfl, rfl⟩] at entered
  refine ⟨events, _, areKeys, idle.showing.current.shown, ?_⟩
  rw [dueDisplay, idle.configured, idle.sources, entered]
  exact congrArg (Option.map (Money.of · initial.currency))
    (Expression.value?_typed isRead)

/-- Blanks, a minus sign that is no hyphen and numerals that begin or end in a
point. -/
theorem replay_keys_quarter :
    let text := " \u2212.5 ×2.÷ 4".toList
    let initial := Money.of .zero "eur".toList
    (initial.amount.value == 0) = true ∧ ',' ∉ text ∧
      (∃ tree, Expression.read Locale.default text = .ok tree) ∧
      ∃ events display,
        Keys.ofTexts [text] = .ok events ∧
          (replay Config.default (.ofRows none []) [] initial
              events).published = some display ∧
          display.amount.map (·.amount.value) = some (-0.25) := by
  intro text initial
  have isZero : (initial.amount.value == 0) = true := by decide +kernel
  have ungrouped : ',' ∉ text := by decide
  have isRead : Expression.read Locale.default text =
      .ok (.negate (.binary .divide (.binary .times
        (.operand ".5".toList) (.operand "2.".toList))
          (.operand "4".toList))) := by
    decide +kernel
  have value :
      (Expression.value? Locale.default text).map (·.value) =
        some (-0.25) := by
    decide +kernel
  obtain ⟨events, display, areKeys, shown, amount⟩ :=
    replay_keys_shows_value (.ofRows none []) [] isZero ungrouped isRead
  have same : display.amount.map (·.amount.value) =
      (Expression.value? Locale.default text).map (·.value) := by
    rw [amount, Option.map_map]
    rfl
  exact ⟨isZero, ungrouped, ⟨_, isRead⟩, events, display, areKeys, shown,
    same.trans value⟩

end Engine

end CurrencyPad
