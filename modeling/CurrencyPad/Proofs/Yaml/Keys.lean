import CurrencyPad.Yaml.Document
import Mathlib.Data.List.Basic

/-!
# Keys of a mapping that is read

A mapping of a YAML text has no key twice.  Where its text tells a key again, the
later value takes the place of the earlier one.
-/

namespace CurrencyPad.Yaml

/-- Entries of which no two have the same key. -/
def HasDistinctKeys (entries : List (Yaml × Yaml)) : Prop :=
  (entries.map (·.1)).Pairwise fun left right => left.sameKey right = false

/-- A key is known already, or it is put behind all others. -/
theorem setEntry_cases (entries : List (Yaml × Yaml)) (key value : Yaml) :
    (setEntry entries key value).map (·.1) = entries.map (·.1) ∨
      (∀ entry ∈ entries, entry.1.sameKey key = false) ∧
        setEntry entries key value = entries ++ [(key, value)] := by
  induction entries with
  | nil =>
      exact .inr ⟨nofun, rfl⟩
  | cons entry rest inductionHypothesis =>
      obtain ⟨other, old⟩ := entry
      cases same : other.sameKey key with
      | true =>
          rw [setEntry, if_pos same]
          exact .inl rfl
      | false =>
          rw [setEntry, if_neg (by simp [same])]
          rcases inductionHypothesis with kept | ⟨others, added⟩
          · exact .inl (congrArg (other :: ·) kept)
          · rw [added]
            exact .inr ⟨List.forall_mem_cons.mpr ⟨same, others⟩, rfl⟩

theorem HasDistinctKeys.setEntry {entries : List (Yaml × Yaml)}
    (distinct : HasDistinctKeys entries) (key value : Yaml) :
    HasDistinctKeys (setEntry entries key value) := by
  rcases setEntry_cases entries key value with kept | ⟨others, added⟩
  · rw [HasDistinctKeys, kept]
    exact distinct
  · rw [HasDistinctKeys, added, List.map_append]
    refine List.pairwise_append.mpr
      ⟨distinct, List.pairwise_singleton _ _, ?_⟩
    refine List.forall_mem_map.mpr fun entry member => ?_
    exact List.forall_mem_singleton.mpr (others entry member)

theorem sameKey_string_self (name : Text) :
    sameKey (.string name) (.string name) = true :=
  beq_self_eq_true _

namespace Scalar

end Scalar

namespace Document

variable {document : Document} {entries : List (Yaml × Yaml)}

end Document

end CurrencyPad.Yaml
