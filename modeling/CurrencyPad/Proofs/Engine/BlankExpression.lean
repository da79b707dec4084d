import CurrencyPad.Proofs.Engine.Flags
import CurrencyPad.Proofs.Engine.Presence

/-!
# Results of a blank expression

A blank expression has no value.  The pad shows no result line for it, but an
error that was asked for before stays until the next digit, even if the expression
is erased meanwhile.
-/

namespace CurrencyPad

theorem Expression.value?_of_isBlankText {text : Text}
    (blank : Text.isBlankText text = true) (locale : Locale) :
    value? locale text = none := by
  have nothing : normalize locale text = [] := by
    apply List.filterMap_eq_nil_iff.mpr
    intro c member
    have isBlank : Text.isBlank c = true :=
      List.all_eq_true.mp blank c member
    simp [normalChar, isBlank]
  have unread : read locale text = .error .empty := by
    rw [read, nothing]
    rfl
  simp [value?, evaluate, unread, Except.toOption]

/-- Where the expression is blank, the result line tells nothing but that errors
are shown. -/
theorem Display.result_of_isBlankText (config : Config)
    {sources : DisplaySources}
    (blank : Text.isBlankText sources.expression = true) :
    (derive config sources).result =
      if sources.showError then some ⟨"Error".toList, true⟩ else none := by
  have valueless := Expression.value?_of_isBlankText blank config.locale
  simp only [derive, resultLine, valueless, blank]
  cases sources.showError <;> rfl

namespace Engine

theorem showError_iff_since (config : Config)
    (rates : Option (Option Snapshot)) (base : Option (Option Text))
    (actions : List Action) :
    ((new config rates base).runFrom 0 actions).showError = true ↔
      Since (Deed.Fails config) Deed.TypesDigit
        ((new config rates base).history 0 actions) := by
  refine history_induction
    (motive := fun deeds entry => entry.showError = true ↔
      Since (Deed.Fails config) Deed.TypesDigit deeds)
    ?_ ?_ rates base actions
  · simp [Since, Entry.blank]
  · intro deeds entry happening holds
    rw [since_concat, Happening.showError_effect, holds]

/-- At every point of every run the display that is shown belongs to the
expression that is entered, and for a blank one its result line is left out unless
a calculation has failed and no digit has been typed since.  Then it is an
error. -/
theorem blank_result_iff_since
    (config : Config) (rates : Option (Option Snapshot))
    (base : Option (Option Text)) (actions : List Action)
    {display : Display}
    (shown :
      ((new config rates base).runFrom 0 actions).published = some display)
    (blank :
      Text.isBlankText
        ((new config rates base).runFrom 0 actions).expression = true) :
    let history := (new config rates base).history 0 actions
    let engine := (new config rates base).runFrom 0 actions
    display.expression =
        (if engine.expression = [] then none else some engine.expression) ∧
      (display.result = none ↔
        ¬ Since (Deed.Fails config) Deed.TypesDigit history) ∧
      (Since (Deed.Fails config) Deed.TypesDigit history →
        display.result = some ⟨"Error".toList, true⟩) := by
  intro history engine
  have configured : engine.config = config := config_runFrom actions _ 0
  have failed : engine.entry.showError = true ↔
      Since (Deed.Fails config) Deed.TypesDigit history :=
    showError_iff_since config rates base actions
  obtain ⟨_, _, rfl⟩ :=
    (faithful_runFrom config rates base actions).belongs display shown
  refine ⟨by simp [Display.derive, engine, entry], ?_⟩
  rw [Display.result_of_isBlankText _ blank, ← failed]
  cases engine.entry.showError <;> simp

def erasedSign : List Action :=
  [.handle (.operator .minus), .handle .equals, .handle .clear]

theorem published_erasedSign :
    ((new Config.default none none).runFrom 0 erasedSign).published =
      some (Display.derive Config.default ⟨[], [], true, none, none⟩) := by
  rfl

/-- What was calculated without a value and is erased leaves its error on the
empty pad. -/
theorem blank_result_erasedSign :
    let history := (new Config.default none none).history 0 erasedSign
    Since (Deed.Fails Config.default) Deed.TypesDigit history ∧
      (Display.derive Config.default ⟨[], [], true, none, none⟩).result =
        some ⟨"Error".toList, true⟩ := by
  intro history
  obtain ⟨_, hidden, error⟩ :=
    blank_result_iff_since Config.default none none erasedSign
      published_erasedSign rfl
  have failed : Since (Deed.Fails Config.default) Deed.TypesDigit history :=
    not_not.mp (mt hidden.mpr nofun)
  exact ⟨failed, error failed⟩

/-- An emptied pad can display an error. -/
theorem not_blank_result_eq_none :
    ¬ ∀ (config : Config) (rates : Option (Option Snapshot))
        (base : Option (Option Text)) (actions : List Action)
        (display : Display),
      let engine := (new config rates base).runFrom 0 actions
      engine.published = some display →
        Text.isBlankText engine.expression = true →
          display.result = none := by
  intro hidden
  have none :=
    hidden Config.default none none erasedSign _ published_erasedSign rfl
  cases none

end Engine

end CurrencyPad
