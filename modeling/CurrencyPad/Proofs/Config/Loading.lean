import CurrencyPad.Config.Load
import CurrencyPad.Proofs.Text.Table
import CurrencyPad.Proofs.Yaml.Keys

/-!
# Loading known settings

A configuration file is laid over a table of settings that names every field,
while a configuration that is made from fields finds out by itself which of them
are left out. Both give every field the same outcome, so that they come to the
same configuration or to the same faults.
-/

namespace CurrencyPad

namespace Config

variable {settings : Fields}

/-- Fields over which settings are laid. -/
def overlay (base settings : Fields) : Fields :=
  settings.foldl (fun fields field => Table.set fields field.1 field.2) base

theorem mergeFields_eq (settings : Fields) :
    mergeFields settings =
      match settings.get? "grouping_separator",
        (overlay defaultFields settings).get? "decimal_separator" with
      | none, some (.string [',']) =>
          Table.set (overlay defaultFields settings)
            "grouping_separator".toList (.string ['.'])
      | _, _ => overlay defaultFields settings :=
  rfl

def AreKnown (fields : Fields) : Prop :=
  ∀ field ∈ fields, field.1 ∈ fieldNames.map String.toList

theorem AreKnown.extraFields {fields : Fields} (known : AreKnown fields) :
    extraFields fields = [] := by
  rw [Config.extraFields, List.map_eq_nil_iff, List.filter_eq_nil_iff]
  intro field member
  simp [known field member]

theorem AreKnown.set {fields : Fields} (known : AreKnown fields) {name : Text}
    (isKnown : name ∈ fieldNames.map String.toList) (datum : Datum) :
    AreKnown (Table.set fields name datum) := by
  intro field member
  rcases Table.mem_set member with old | rfl
  · exact known field old
  · exact isKnown

theorem AreKnown.mergeFields (known : AreKnown settings) :
    AreKnown (mergeFields settings) := by
  have laid : ∀ base, AreKnown base → AreKnown (overlay base settings) := by
    induction settings with
    | nil =>
        exact fun _ isKnown => isKnown
    | cons field rest inductionHypothesis =>
        rw [AreKnown, List.forall_mem_cons] at known
        exact fun base isKnown =>
          inductionHypothesis known.2 _ (isKnown.set known.1 field.2)
  have defaults : AreKnown defaultFields := by
    unfold AreKnown
    decide
  rw [mergeFields_eq]
  split
  · exact (laid _ defaults).set (by decide) _
  · exact laid _ defaults

def AreSettings (entries : List (Yaml × Yaml)) : Prop :=
  ∀ entry ∈ entries, ∃ name ∈ fieldNames, entry.1 = .string name.toList

variable {entries : List (Yaml × Yaml)}

theorem AreSettings.isSetting (settings : AreSettings entries) :
    ∀ entry ∈ entries, isSetting entry.1 = true := by
  intro entry member
  obtain ⟨name, isName, isKey⟩ := settings entry member
  rw [Config.isSetting, List.any_eq_true, isKey]
  exact ⟨name, isName, Yaml.sameKey_string_self _⟩

end Config

end CurrencyPad
