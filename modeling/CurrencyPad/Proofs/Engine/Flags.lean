import CurrencyPad.Proofs.Engine.History
import CurrencyPad.Proofs.Decimal.Digits
import CurrencyPad.Proofs.Binary64.Shortest

/-!
# What the flags tell

An engine has two flags.  One tells of a calculation that failed and was not
followed by a digit, the other of an amount that was filled in and not touched
since.  Both can be read off the history of a run.
-/

namespace CurrencyPad

/-- Some item has a property, and none after it has the other one. -/
def Since {α : Type} (begins ends : α → Prop) (items : List α) : Prop :=
  ∃ earlier item later, items = earlier ++ item :: later ∧ begins item ∧
    ∀ other ∈ later, ¬ ends other

theorem since_concat {α : Type} {begins ends : α → Prop}
    (items : List α) (last : α) :
    Since begins ends (items ++ [last]) ↔
      begins last ∨ (Since begins ends items ∧ ¬ ends last) := by
  constructor
  · rintro ⟨earlier, item, later, split, holds, none⟩
    rcases List.eq_nil_or_concat later with rfl | ⟨init, other, rfl⟩
    · obtain ⟨_, same⟩ := List.append_inj' split rfl
      rw [List.cons.inj same |>.1]
      exact .inl holds
    · rw [List.concat_eq_append] at split none
      rw [← List.cons_append, ← List.append_assoc] at split
      obtain ⟨before, same⟩ := List.append_inj' split rfl
      rw [List.cons.inj same |>.1]
      refine .inr ⟨⟨earlier, item, init, before, holds, ?_⟩, ?_⟩
      · exact fun between member =>
          none between (List.mem_append_left _ member)
      · exact none other (by simp)
  · rintro (holds | ⟨⟨earlier, item, later, rfl, holds, none⟩, ended⟩)
    · exact ⟨items, last, [], rfl, holds, nofun⟩
    · refine ⟨earlier, item, later ++ [last], by simp, holds, ?_⟩
      intro other member
      rcases List.mem_append.mp member with before | now
      · exact none other before
      · rw [List.mem_singleton.mp now]
        exact ended

namespace Happening

/-- Whether a happening has a say in who wrote the expression: a key, an amount
that is filled in, or a currency that is selected. -/
def writes : Happening → Bool
  | .applied _ (.initial none) => false
  | .applied _ (.currency _) => false
  | .applied _ _ => true
  | .selected _ _ => true
  | .converted _ _ => true
  | _ => false

/-- The amount that a happening fills in; an amount of zero fills in
nothing. -/
def prefill? : Happening → Option Money
  | .applied _ (.initial (some money)) =>
      if money.amount.value == 0 then none else some money
  | _ => none

theorem effect_of_not_writes {happening : Happening}
    (idle : happening.writes = false) (config : Config) (entry : Entry) :
    happening.effect config entry = entry := by
  cases happening with
  | applied task event =>
      cases event with
      | currency code =>
          rfl
      | initial value =>
          cases value with
          | none =>
              rfl
          | some money =>
              cases idle
      | _ =>
          cases idle
  | selected task code =>
      cases idle
  | converted capture rates =>
      cases idle
  | _ =>
      rfl

end Happening

namespace Deed

/-- The result key had no effect but an error. -/
def Fails (config : Config) (deed : Deed) : Prop :=
  (∃ task, deed.happening = .applied task .equals) ∧
    Text.isBlankText deed.entry.expression = false ∧
    Expression.value? config.locale deed.entry.expression = none

/-- A digit was typed. -/
def TypesDigit (deed : Deed) : Prop :=
  ∃ task key, deed.happening = .applied task (.digit key)

end Deed

/-- The amount that was filled in by the last deed that had a say in who wrote
the expression. -/
def prefilled? (deeds : List Deed) : Option Money :=
  (deeds.filter (·.happening.writes)).getLast?.bind (·.happening.prefill?)

theorem prefilled?_concat (deeds : List Deed) (last : Deed) :
    prefilled? (deeds ++ [last]) =
      if last.happening.writes then last.happening.prefill?
      else prefilled? deeds := by
  unfold prefilled?
  rw [List.filter_append]
  by_cases writes : last.happening.writes = true
  · simp [writes]
  · simp [writes]

theorem Entry.showError_calculated (config : Config) (entry : Entry) :
    (entry.calculated config).showError = true ↔
      entry.showError = true ∨
        (Text.isBlankText entry.expression = false ∧
          Expression.value? config.locale entry.expression = none) := by
  unfold calculated
  cases Expression.value? config.locale entry.expression with
  | some value =>
      simp [typed]
  | none =>
      simp

/-- The error flag comes with a calculation that fails and goes with a digit;
nothing else touches it. -/
theorem Happening.showError_effect
    (config : Config) (entry : Entry) (happening : Happening) :
    (happening.effect config entry).showError = true ↔
      Deed.Fails config ⟨entry, happening⟩ ∨
        (entry.showError = true ∧ ¬ Deed.TypesDigit ⟨entry, happening⟩) := by
  cases happening with
  | applied task event =>
      cases event with
      | backspace =>
          have same :
              (entry.apply config .backspace).showError =
                entry.showError := by
            simp only [Entry.apply]
            split <;> rfl
          simp [effect, same, Deed.Fails, Deed.TypesDigit]
      | digit key =>
          simp [effect, Entry.apply, Deed.Fails, Deed.TypesDigit]
      | equals =>
          have calculates :=
            Entry.showError_calculated config entry
          simp [effect, Entry.apply, calculates, Deed.Fails,
            Deed.TypesDigit, or_comm]
      | initial value =>
          have same :
              (entry.apply config (.initial value)).showError =
                entry.showError := by
            cases value with
            | none =>
                rfl
            | some money =>
                simp only [Entry.apply, Entry.filledIn]
                split <;> rfl
          simp [effect, same, Deed.Fails, Deed.TypesDigit]
      | _ =>
          simp [effect, Entry.apply, Entry.typed, Deed.Fails,
            Deed.TypesDigit]
  | _ =>
      simp [effect, Entry.select, Deed.Fails, Deed.TypesDigit]

theorem Money.fullText_ne_nil (config : Config) (money : Money) :
    Money.fullText config money ≠ [] := by
  obtain ⟨d, isDecimal, _⟩ := Binary64.toDecimal_spec money.amount.isFinite
  rw [fullText, Number.roundExtended, isDecimal]
  obtain ⟨nonempty, _⟩ :=
    (d.rounded (decimals config money.currency)).wholeText_digits
  change Text.withSign _ _ ≠ []
  unfold Text.withSign
  split
  · exact List.cons_ne_nil _ _
  · exact List.append_ne_nil_of_left_ne_nil nonempty _

/-- A happening that has a say in it sets the override flag if it fills in an
amount and clears it otherwise.  A flag that is set would stay only where there
is nothing to erase. -/
theorem Happening.overrideInitial_effect {config : Config} {entry : Entry}
    (erasable : entry.overrideInitial = true → entry.expression ≠ [])
    {happening : Happening} (writes : happening.writes = true) :
    (happening.effect config entry).overrideInitial =
      happening.prefill?.isSome := by
  cases happening with
  | applied task event =>
      cases event with
      | backspace =>
          change (if entry.expression = [] then entry
            else entry.typed _).overrideInitial = false
          by_cases empty : entry.expression = []
          · rw [if_pos empty]
            exact Bool.eq_false_iff.mpr fun set => erasable set empty
          · rw [if_neg empty]
            rfl
      | equals =>
          change (entry.calculated config).overrideInitial = false
          unfold Entry.calculated
          split <;> rfl
      | currency code =>
          cases writes
      | initial value =>
          cases value with
          | none =>
              cases writes
          | some money =>
              change (entry.filledIn config money).overrideInitial = _
              by_cases zero : (money.amount.value == 0) = true
              · simp [Entry.filledIn, prefill?, zero]
              · simp [Entry.filledIn, prefill?, zero]
      | _ =>
          rfl
  | selected task code =>
      rfl
  | converted capture rates =>
      rfl
  | _ =>
      cases writes

theorem Happening.effect_of_prefill? {config : Config} {entry : Entry}
    {happening : Happening} {money : Money}
    (fills : happening.prefill? = some money) :
    (happening.effect config entry).expression =
        Money.fullText config (Money.of money.amount money.currency) ∧
      (happening.effect config entry).currency = money.currency := by
  unfold prefill? at fills
  split at fills
  case h_1 task filled =>
    split at fills
    · cases fills
    case isFalse nonzero =>
      cases fills
      change (entry.filledIn config money).expression = _ ∧
        (entry.filledIn config money).currency = _
      rw [Entry.filledIn, if_neg nonzero]
      exact ⟨rfl, rfl⟩
  · cases fills

/-- What the flags of an entry tell of the deeds that led to it. -/
structure FlagsTell (config : Config) (deeds : List Deed)
    (entry : Entry) : Prop where
  failed :
    entry.showError = true ↔
      Since (Deed.Fails config) Deed.TypesDigit deeds
  filled : entry.overrideInitial = (prefilled? deeds).isSome
  untouched : ∀ money, prefilled? deeds = some money →
    entry.expression =
        Money.fullText config (Money.of money.amount money.currency) ∧
      entry.currency = money.currency

theorem FlagsTell.concat {config : Config} {deeds : List Deed}
    {entry : Entry} (tell : FlagsTell config deeds entry)
    (happening : Happening) :
    FlagsTell config (deeds ++ [⟨entry, happening⟩])
      (happening.effect config entry) := by
  have error :
      (happening.effect config entry).showError = true ↔
        Since (Deed.Fails config) Deed.TypesDigit
          (deeds ++ [⟨entry, happening⟩]) := by
    rw [since_concat, Happening.showError_effect, tell.failed]
  have amount := prefilled?_concat deeds ⟨entry, happening⟩
  by_cases writes : happening.writes = true
  -- A key erases nothing of an empty text and would keep the flag, but what is
  -- filled in is never empty.
  · have erasable : entry.overrideInitial = true →
        entry.expression ≠ [] := by
      intro set
      rw [tell.filled, Option.isSome_iff_exists] at set
      obtain ⟨money, isFilled⟩ := set
      rw [(tell.untouched money isFilled).1]
      exact Money.fullText_ne_nil config _
    rw [if_pos writes] at amount
    refine ⟨error, ?_, ?_⟩
    · rw [amount, Happening.overrideInitial_effect erasable writes]
    · intro money fills
      rw [amount] at fills
      exact Happening.effect_of_prefill? fills
  · rw [if_neg writes] at amount
    have same := Happening.effect_of_not_writes
      (Bool.eq_false_iff.mpr writes) config entry
    rw [same] at error ⊢
    refine ⟨error, ?_, ?_⟩
    · rw [amount, tell.filled]
    · rw [amount]
      exact tell.untouched

namespace Engine

/-- At every point of every run an error shows if and only if a calculation has
failed and no digit has been typed since.  The next digit replaces the expression
if and only if the last deed that had a say in it filled in an amount, and then
the expression and the currency are those of this amount. -/
theorem flags_tell_history
    (config : Config) (rates : Option (Option Snapshot))
    (base : Option (Option Text)) (actions : List Action) :
    let history := (new config rates base).history 0 actions
    let last := (new config rates base).runFrom 0 actions
    (last.showError = true ↔
        Since (Deed.Fails config) Deed.TypesDigit history) ∧
      (last.overrideInitial = true ↔
        ∃ money, prefilled? history = some money) ∧
      ∀ money, prefilled? history = some money →
        last.expression =
            Money.fullText config (Money.of money.amount money.currency) ∧
          last.expression ≠ [] ∧
          last.currency = money.currency := by
  intro history last
  have first : FlagsTell config [] .blank := by
    refine ⟨iff_of_false Bool.false_ne_true ?_, rfl, nofun⟩
    rintro ⟨earlier, item, later, split, _⟩
    exact absurd split.symm
      (List.append_ne_nil_of_right_ne_nil _ (List.cons_ne_nil _ _))
  have tell : FlagsTell config history last.entry :=
    history_induction first
      (fun _ _ happening holds => holds.concat happening) rates base actions
  refine ⟨tell.failed, ?_, ?_⟩
  · rw [← Option.isSome_iff_exists, ← tell.filled]
    rfl
  · intro money fills
    obtain ⟨shown, selected⟩ := tell.untouched money fills
    have expression : last.expression =
        Money.fullText config (Money.of money.amount money.currency) :=
      shown
    refine ⟨expression, ?_, selected⟩
    rw [expression]
    exact Money.fullText_ne_nil config _

end Engine

end CurrencyPad
