import CurrencyPad.Exchange.Conversion
import CurrencyPad.Proofs.Text.Table

/-!
# Available conversions

Between two currencies there is a factor exactly where usable quotes join them,
directly or over the pivot, in whichever direction they are quoted.  Entries of
the table that are not usable do not matter.
-/

namespace CurrencyPad.Snapshot

/-- The table has a usable quote between two codes: a positive finite number. -/
structure Quotes (snapshot : Snapshot) (source target : Text) (rate : Float) :
    Prop where
  listed : ∃ row, snapshot.rows.get? source = some row ∧
    row.get? target = some rate
  finite : rate.isFinite = true
  positive : 0 < rate

/-- There is a usable quote in one direction at least. -/
def AreLinked (snapshot : Snapshot) (source target : Text) : Prop :=
  ∃ rate, snapshot.Quotes source target rate ∨
    snapshot.Quotes target source rate

/-- The codes are the same, or linked, or both linked to a pivot that is
neither of them. -/
def AreConvertible (snapshot : Snapshot) (source target : Text) : Prop :=
  source = target ∨ snapshot.AreLinked source target ∨
    ∃ pivot, snapshot.pivot = some pivot ∧ pivot ≠ source ∧ pivot ≠ target ∧
      snapshot.AreLinked source pivot ∧ snapshot.AreLinked pivot target

/-- The pivots are the same and so are the usable quotes. -/
structure AgreesWith (snapshot other : Snapshot) : Prop where
  pivot : snapshot.pivot = other.pivot
  quotes : ∀ source target rate,
    snapshot.Quotes source target rate ↔ other.Quotes source target rate

variable {snapshot other : Snapshot} {source target : Text} {rate : Float}

theorem usable_iff : usable rate = true ↔ rate.isFinite = true ∧ 0 < rate := by
  unfold usable
  rw [Bool.and_eq_true, decide_eq_true_eq]

theorem quote?_eq_some_iff :
    snapshot.quote? source target = some rate ↔
      snapshot.Quotes source target rate := by
  unfold quote?
  simp only [Option.bind_eq_bind, Option.bind_eq_some_iff,
    Option.ite_none_right_eq_some, Option.some.injEq]
  constructor
  · rintro ⟨row, isRow, _, isRate, isUsable, rfl⟩
    obtain ⟨finite, positive⟩ := usable_iff.mp isUsable
    exact ⟨⟨row, isRow, isRate⟩, finite, positive⟩
  · rintro ⟨⟨row, isRow, isRate⟩, finite, positive⟩
    exact ⟨row, isRow, rate, isRate, usable_iff.mpr ⟨finite, positive⟩, rfl⟩

theorem quote?_eq_of_agreesWith (agrees : snapshot.AgreesWith other)
    (source target : Text) :
    snapshot.quote? source target = other.quote? source target := by
  refine Option.ext fun rate => ?_
  rw [quote?_eq_some_iff, quote?_eq_some_iff]
  exact agrees.quotes source target rate

theorem areLinked_iff :
    snapshot.AreLinked source target ↔
      (snapshot.quote? source target).isSome = true ∨
        (snapshot.quote? target source).isSome = true := by
  simp only [Option.isSome_iff_exists, quote?_eq_some_iff]
  exact exists_or

theorem areLinked_comm :
    snapshot.AreLinked source target ↔ snapshot.AreLinked target source := by
  rw [areLinked_iff, areLinked_iff]
  exact or_comm

/-- Over the pivot the way back has the same steps. -/
theorem areConvertible_comm :
    snapshot.AreConvertible source target ↔
      snapshot.AreConvertible target source := by
  have turned : ∀ {source target : Text},
      snapshot.AreConvertible source target →
        snapshot.AreConvertible target source := by
    rintro source target
      (same | linked | ⟨pivot, isPivot, apart, otherApart, first, second⟩)
    · exact .inl same.symm
    · exact .inr (.inl (areLinked_comm.mp linked))
    · exact .inr (.inr ⟨pivot, isPivot, otherApart, apart,
        areLinked_comm.mp second, areLinked_comm.mp first⟩)
  exact ⟨turned, turned⟩

theorem isSome_directFactor?_iff :
    (snapshot.directFactor? source target).isSome = true ↔
      source = target ∨ snapshot.AreLinked source target := by
  rw [areLinked_iff]
  unfold directFactor?
  split
  case isTrue same =>
    simp [same]
  case isFalse different =>
    cases snapshot.quote? source target with
    | some rate =>
        simp
    | none =>
        simp [different]

theorem isSome_pivotFactor?_iff :
    (snapshot.pivotFactor? source target).isSome = true ↔
      ∃ pivot, snapshot.pivot = some pivot ∧ pivot ≠ source ∧
        pivot ≠ target ∧ snapshot.AreLinked source pivot ∧
        snapshot.AreLinked pivot target := by
  unfold pivotFactor?
  cases snapshot.pivot with
  | none =>
      simp
  | some pivot =>
      have steps : (do
          let first ← snapshot.directFactor? source pivot
          let second ← snapshot.directFactor? pivot target
          some (first * second) : Option Float).isSome = true ↔
            (snapshot.directFactor? source pivot).isSome = true ∧
              (snapshot.directFactor? pivot target).isSome = true := by
        cases snapshot.directFactor? source pivot <;>
          cases snapshot.directFactor? pivot target <;> simp
      simp only [Option.bind_eq_bind, Option.bind_some, Option.some.injEq,
        exists_eq_left']
      split
      case isTrue ends =>
        simp
        grind
      case isFalse apart =>
        rw [not_or] at apart
        refine steps.trans ?_
        rw [isSome_directFactor?_iff, isSome_directFactor?_iff]
        simp [apart.1, apart.2, Ne.symm apart.1]

theorem isSome_factor?_iff (snapshot : Snapshot) (source target : Text) :
    (snapshot.factor? source target).isSome = true ↔
      snapshot.AreConvertible (Currency.normalize source)
        (Currency.normalize target) := by
  unfold factor? AreConvertible
  dsimp only
  rw [← isSome_pivotFactor?_iff, ← or_assoc, ← isSome_directFactor?_iff]
  cases snapshot.directFactor? (Currency.normalize source)
    (Currency.normalize target) <;> simp

theorem factor?_eq_of_agreesWith (agrees : snapshot.AgreesWith other)
    (source target : Text) :
    snapshot.factor? source target = other.factor? source target := by
  have direct : ∀ source target,
      snapshot.directFactor? source target =
        other.directFactor? source target := by
    intro source target
    unfold directFactor?
    rw [quote?_eq_of_agreesWith agrees, quote?_eq_of_agreesWith agrees]
  unfold factor? pivotFactor?
  simp only [direct, agrees.pivot]

/-- Which factors there are is told by the usable quotes, in both directions
alike, and what else the table holds changes no factor and no conversion. -/
theorem factor?_of_usable_quotes (snapshot : Snapshot) (source target : Text) :
    ((snapshot.factor? source target).isSome = true ↔
        snapshot.AreConvertible (Currency.normalize source)
          (Currency.normalize target)) ∧
      ((snapshot.factor? source target).isSome = true ↔
        (snapshot.factor? target source).isSome = true) ∧
      ∀ other, snapshot.AgreesWith other →
        snapshot.factor? source target = other.factor? source target ∧
          ∀ amount,
            snapshot.convert? source target amount =
                other.convert? source target amount ∧
              snapshot.convert source target amount =
                other.convert source target amount := by
  refine ⟨isSome_factor?_iff snapshot source target, ?_,
    fun other agrees => ?_⟩
  · rw [isSome_factor?_iff, isSome_factor?_iff]
    exact areConvertible_comm
  · have same := factor?_eq_of_agreesWith agrees source target
    have converted : ∀ amount, snapshot.convert? source target amount =
        other.convert? source target amount := by
      intro amount
      rw [convert?, convert?, same]
    refine ⟨same, fun amount => ⟨converted amount, ?_⟩⟩
    rw [convert, convert, converted]

def cleanQuotes : Snapshot :=
  ofRows (some "USD".toList)
    [("USD".toList, [("EUR".toList, 0.5), ("GBP".toList, 0.25)])]

def strewnQuotes : Snapshot :=
  ofRows (some "USD".toList)
    [("USD".toList, [("EUR".toList, 0.5), ("GBP".toList, 0.25),
        ("JPY".toList, 0)]),
      ("EUR".toList, [("USD".toList, 0.0 / 0.0), ("GBP".toList, -1)]),
      ("GBP".toList, [("EUR".toList, 1.0 / 0.0)])]

theorem factor?_of_usable_quotes_strewn :
    cleanQuotes.AgreesWith strewnQuotes ∧
      cleanQuotes.factor? "eur".toList "GBP".toList =
        strewnQuotes.factor? "eur".toList "GBP".toList ∧
      (strewnQuotes.factor? "eur".toList "GBP".toList).isSome = true := by
  have rows : cleanQuotes.rows =
      [("USD".toList, [("EUR".toList, 0.5), ("GBP".toList, 0.25)])] := rfl
  have strewnRows : strewnQuotes.rows =
      [("EUR".toList, [("GBP".toList, -1), ("USD".toList, 0.0 / 0.0)]),
        ("GBP".toList, [("EUR".toList, 1.0 / 0.0)]),
        ("USD".toList, [("EUR".toList, 0.5), ("GBP".toList, 0.25),
          ("JPY".toList, 0)])] := rfl
  have agrees : cleanQuotes.AgreesWith strewnQuotes := by
    refine ⟨rfl, fun source target rate => ?_⟩
    rw [← quote?_eq_some_iff, ← quote?_eq_some_iff]
    have unusable : usable 0 = false ∧ usable (0.0 / 0.0) = false ∧
        usable (-1) = false ∧ usable (1.0 / 0.0) = false := by
      decide +kernel
    have noEntry (name : Text) :
        Table.get? ([] : Table Float) name = none := rfl
    have noRow (name : Text) :
        Table.get? ([] : Table (Table Float)) name = none := rfl
    unfold quote?
    rw [rows, strewnRows]
    -- Only the row of the base currency has entries that can be used.
    by_cases base : source = "USD".toList
    · simp [base, Table.get?_cons, noEntry]
      split_ifs <;> simp [unusable]
    · by_cases first : source = "EUR".toList
      · simp [first, Table.get?_cons, noEntry, noRow]
        split_ifs <;> simp [unusable]
      · by_cases second : source = "GBP".toList
        · simp [second, Table.get?_cons, noEntry, noRow]
          split_ifs <;> simp [unusable]
        · simp only [Table.get?_cons, noRow, if_neg (Ne.symm base),
            if_neg (Ne.symm first), if_neg (Ne.symm second)]
  obtain ⟨_, _, same⟩ :=
    factor?_of_usable_quotes cleanQuotes "eur".toList "GBP".toList
  obtain ⟨factors, _⟩ := same strewnQuotes agrees
  exact ⟨agrees, factors, by decide +kernel⟩

end CurrencyPad.Snapshot
