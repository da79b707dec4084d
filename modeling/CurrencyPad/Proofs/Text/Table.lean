import CurrencyPad.Text.Table
import Mathlib.Data.List.Find
import Mathlib.Data.List.Nodup
import Mathlib.Logic.Function.Basic

/-!
# Entries of tables

What a table has under a name once an entry is added, or once the entries are
sorted.
-/

namespace CurrencyPad.Table

variable {α : Type}

theorem get?_cons (key : Text) (value : α) (rest : Table α) (name : Text) :
    get? ((key, value) :: rest) name =
      if key = name then some value else get? rest name := by
  unfold get?
  rw [List.find?_cons]
  cases equal : key == name with
  | true =>
      rw [if_pos (beq_iff_eq.mp equal)]
      rfl
  | false =>
      rw [if_neg (beq_eq_false_iff_ne.mp equal)]

theorem set_cons (key : Text) (old : α) (rest : Table α) (name : Text)
    (value : α) :
    set ((key, old) :: rest) name value =
      if key = name then (name, value) :: rest
      else (key, old) :: set rest name value := rfl

/-- An entry that is put behind one of another name is found like the entry by
itself. -/
private theorem get?_cons_of_ne {key name : Text} (different : key ≠ name)
    {table rest : Table α} {value : α} (old : α) {other : Text}
    (found : get? table other =
      if name = other then some value else get? rest other) :
    get? ((key, old) :: table) other =
      if name = other then some value else get? ((key, old) :: rest) other := by
  rw [get?_cons, get?_cons, found]
  by_cases here : key = other
  · rw [if_pos here, if_pos here, if_neg]
    exact fun same => different (here.trans same.symm)
  · rw [if_neg here, if_neg here]

/-- An entry that replaces one of the same name is found in its place. -/
private theorem get?_cons_of_eq {key name : Text} (same : key = name)
    (rest : Table α) (value old : α) (other : Text) :
    get? ((name, value) :: rest) other =
      if name = other then some value else get? ((key, old) :: rest) other := by
  rw [get?_cons, get?_cons, same]
  split <;> rfl

@[simp]
theorem get?_set (table : Table α) (name other : Text) (value : α) :
    (table.set name value).get? other =
      if name = other then some value else table.get? other := by
  induction table with
  | nil =>
      exact get?_cons name value [] other
  | cons entry rest inductionHypothesis =>
      obtain ⟨key, old⟩ := entry
      rw [set_cons]
      split
      case isTrue same =>
        exact get?_cons_of_eq same rest value old other
      case isFalse different =>
        exact get?_cons_of_ne different old inductionHypothesis

@[simp]
theorem get?_insert (table : Table α) (name other : Text) (value : α) :
    (table.insert name value).get? other =
      if name = other then some value else table.get? other := by
  induction table with
  | nil =>
      exact get?_cons name value [] other
  | cons entry rest inductionHypothesis =>
      obtain ⟨key, old⟩ := entry
      unfold insert
      split
      case isTrue same =>
        exact get?_cons_of_eq same rest value old other
      case isFalse different =>
        split
        · exact get?_cons name value _ other
        · exact get?_cons_of_ne different old inductionHypothesis

theorem mem_of_get? {table : Table α} {name : Text} {value : α}
    (found : table.get? name = some value) : (name, value) ∈ table := by
  obtain ⟨⟨key, other⟩, isFound, rfl⟩ := Option.map_eq_some_iff.mp found
  have named := List.find?_some isFound
  have same : key = name := beq_iff_eq.mp named
  rw [← same]
  exact List.mem_of_find?_eq_some isFound

theorem mem_set {table : Table α} {name : Text} {value : α} {entry : Text × α}
    (member : entry ∈ table.set name value) :
    entry ∈ table ∨ entry = (name, value) := by
  induction table with
  | nil =>
      exact .inr (List.mem_singleton.mp member)
  | cons first rest inductionHypothesis =>
      obtain ⟨key, old⟩ := first
      rw [set_cons] at member
      split at member
      · exact (List.mem_cons.mp member).symm.imp_left (List.mem_cons_of_mem _)
      · rcases List.mem_cons.mp member with rfl | later
        · exact .inl List.mem_cons_self
        · exact (inductionHypothesis later).imp_left (List.mem_cons_of_mem _)

/-- A new name is added at the end. -/
theorem setEntry_of_not_mem {Name : Type} [DecidableEq Name]
    {entries : List (Name × α)} {name : Name} (absent : name ∉ entries.map (·.1))
    (value : α) : setEntry entries name value = entries ++ [(name, value)] := by
  induction entries with
  | nil =>
      rfl
  | cons entry rest inductionHypothesis =>
      obtain ⟨other, old⟩ := entry
      rw [List.map_cons, List.mem_cons, not_or] at absent
      rw [setEntry, if_neg (Ne.symm absent.1), inductionHypothesis absent.2]
      rfl

theorem sorted_map {β : Type} (change : Text × α → β) (table : Table α) :
    sorted (table.map fun entry => (entry.1, change entry)) =
      (sorted table).map fun entry => (entry.1, change entry) := by
  unfold sorted
  rw [List.map_mergeSort]
  exact fun _ _ _ _ => rfl

theorem names_sorted_perm (table : Table α) :
    (sorted table).names.Perm table.names :=
  (List.mergeSort_perm table _).map _

/-- Where no name occurs twice, sorting leaves every name its value. -/
theorem get?_sorted {table : Table α} (distinct : table.names.Nodup)
    (name : Text) : (sorted table).get? name = table.get? name := by
  refine congrArg (Option.map (·.2))
    (List.find?_eq_find?_of_perm (List.mergeSort_perm table _).symm ?_).symm
  rintro left ⟨leftMember, leftNamed⟩ right ⟨rightMember, rightNamed⟩
  have names : left.1 = right.1 :=
    (beq_iff_eq.mp leftNamed).trans (beq_iff_eq.mp rightNamed).symm
  exact List.inj_on_of_nodup_map distinct leftMember rightMember names

/-- The values change, each under its name. -/
theorem get?_mapEntries {β : Type} (change : Text → α → β) (table : Table α)
    (name : Text) :
    get? (table.map fun entry => (entry.1, change entry.1 entry.2)) name =
      (table.get? name).map (change name) := by
  induction table with
  | nil =>
      rfl
  | cons entry rest inductionHypothesis =>
      obtain ⟨key, value⟩ := entry
      rw [List.map_cons, get?_cons, get?_cons, inductionHypothesis]
      split
      case isTrue same =>
        rw [same]
        rfl
      case isFalse =>
        rfl

theorem get?_map {β : Type} (change : α → β) (table : Table α)
    (name : Text) :
    get? (table.map fun entry => (entry.1, change entry.2)) name =
      (table.get? name).map change :=
  get?_mapEntries (fun _ => change) table name

/-- An entry that the change leaves as it is can be replaced before or after. -/
theorem set_mapEntries (change : Text → α → α) (table : Table α) {name : Text}
    {value : α} (same : change name value = value) :
    set (table.map fun entry => (entry.1, change entry.1 entry.2)) name value =
      (set table name value).map fun entry =>
        (entry.1, change entry.1 entry.2) := by
  induction table with
  | nil =>
      show [(name, value)] = [(name, change name value)]
      rw [same]
  | cons entry rest inductionHypothesis =>
      obtain ⟨key, old⟩ := entry
      rw [List.map_cons, set_cons, set_cons]
      split
      · rw [List.map_cons, same]
      · rw [List.map_cons, inductionHypothesis]

/-- The names stay as they are where an entry is replaced. -/
theorem names_set_of_isSome {table : Table α} {name : Text}
    (known : (table.get? name).isSome = true) (value : α) :
    (table.set name value).names = table.names := by
  induction table with
  | nil =>
      cases known
  | cons entry rest inductionHypothesis =>
      obtain ⟨key, old⟩ := entry
      rw [get?_cons] at known
      rw [set_cons]
      split
      case isTrue same =>
        rw [same]
        rfl
      case isFalse differs =>
        rw [if_neg differs] at known
        exact congrArg (key :: ·) (inductionHypothesis known)

theorem get?_eq_some_of_mem {table : Table α} (distinct : table.names.Nodup)
    {entry : Text × α} (member : entry ∈ table) :
    table.get? entry.1 = some entry.2 := by
  induction table with
  | nil =>
      cases member
  | cons first rest inductionHypothesis =>
      obtain ⟨fresh, restDistinct⟩ := List.nodup_cons.mp distinct
      rw [get?_cons]
      rcases List.mem_cons.mp member with rfl | later
      · rw [if_pos rfl]
      · rw [if_neg, inductionHypothesis restDistinct later]
        intro same
        exact fresh (List.mem_map.mpr ⟨entry, later, same.symm⟩)

end CurrencyPad.Table
