import CurrencyPad.Proofs.Signal.View
import CurrencyPad.Signal.Request

/-!
# Turns of requests

A request has its turn when it is looked at, and gives its answer if it has one.
When the network settles, every request has one turn.
-/

namespace CurrencyPad.Network

variable {α : Type} {network : Network α} {name other : Text}

def state? (network : Network α) (name : Text) : Option (ReadState α) :=
  (network.reads.get? name).map (·.state)

def waiters (network : Network α) (id : SignalId) : List Text :=
  ((network.signal? id).map (·.cell.waiters)).getD []

def look (network : Network α) (name : Text) : Network α :=
  match network.reads.get? name with
  | some read => network.begin name read
  | none => network

/-- The answer that a request is about to give. -/
def ready? (network : Network α) (name : Text) : Option (Option α) :=
  (network.reads.get? name).bind answer?

/-- A request under some name after the one with the given name is over. -/
def closed (name key : Text) (read : SignalRead α) : SignalRead α :=
  if key = name then { read with state := .over } else read

def finish (network : Network α) (name : Text) : Network α :=
  { network with
    signals := network.signals.map fun signal =>
      { signal with cell := signal.cell.forget name }
    reads := network.reads.map fun entry =>
      (entry.1, closed name entry.1 entry.2) }

/-- A request comes as far as it can, and gives its answer if it has one. -/
def turn (network : Network α) (name : Text) : Option (Option α) × Network α :=
  let looked := network.look name
  match looked.ready? name with
  | some answer => (some answer, looked.finish name)
  | none => (none, looked)

def turns (network : Network α) : List Text → Table (Option α) × Network α
  | [] => ([], network)
  | name :: rest =>
    let (answer?, next) := network.turn name
    let (answers, last) := next.turns rest
    (answer?.toList.map (name, ·) ++ answers, last)

theorem get?_finish (network : Network α) (name other : Text) :
    (network.finish name).reads.get? other =
      (network.reads.get? other).map (closed name other) :=
  Table.get?_mapEntries (closed name) network.reads other

theorem get?_finish_of_ne (differs : other ≠ name) :
    (network.finish name).reads.get? other = network.reads.get? other := by
  have same : closed name other = fun read : SignalRead α => read :=
    funext fun _ => if_neg differs
  rw [get?_finish, same, Option.map_id']

theorem signal?_finish (network : Network α) (name : Text) (id : SignalId) :
    (network.finish name).signal? id =
      (network.signal? id).map fun signal =>
        { signal with cell := signal.cell.forget name } :=
  List.getElem?_map

@[simp]
theorem value?_finish (network : Network α) (name : Text) :
    (network.finish name).value? = network.value? := by
  funext id
  rw [value?, signal?_finish, Option.bind_map]
  rfl

theorem get?_begin_of_ne (differs : other ≠ name) (read : SignalRead α) :
    (network.begin name read).reads.get? other = network.reads.get? other := by
  unfold begin
  split
  · split
    · exact (Table.get?_set ..).trans (if_neg differs.symm)
    · exact (Table.get?_set ..).trans (if_neg differs.symm)
  · rfl

theorem get?_look_of_ne (differs : other ≠ name) :
    (network.look name).reads.get? other = network.reads.get? other := by
  unfold look
  split
  · exact get?_begin_of_ne differs _
  · rfl

theorem ready?_look_of_ne (differs : other ≠ name) :
    (network.look name).ready? other = network.ready? other := by
  rw [ready?, get?_look_of_ne differs, ready?]

theorem ready?_finish_of_ne (differs : other ≠ name) :
    (network.finish name).ready? other = network.ready? other := by
  rw [ready?, get?_finish_of_ne differs, ready?]

theorem names_look (network : Network α) (name : Text) :
    (network.look name).reads.names = network.reads.names := by
  unfold look
  cases isRead : network.reads.get? name with
  | none =>
      rfl
  | some read =>
      have known : (network.reads.get? name).isSome = true := by
        rw [isRead]
        rfl
      dsimp only
      unfold begin
      split
      · split
        · exact Table.names_set_of_isSome known _
        · exact Table.names_set_of_isSome known _
      · rfl

/-- A waiter that comes does not matter to one that goes. -/
theorem forget_await (cell : Cell α Listener Text) (differs : other ≠ name) :
    (cell.forget name).await other = (cell.await other).forget name := by
  unfold Cell.await Cell.forget
  dsimp only
  have stays : [other].erase name = [other] :=
    List.erase_of_not_mem fun member =>
      differs (List.mem_singleton.mp member).symm
  rw [List.erase_append, stays]
  split
  · rfl
  case isFalse absent =>
    rw [List.erase_of_not_mem absent]

theorem look_finish (differs : other ≠ name) :
    (network.finish name).look other = (network.look other).finish name := by
  have reads : ∀ read : SignalRead α,
      (network.finish name).reads.set other read =
        (network.reads.set other read).map fun entry =>
          (entry.1, closed name entry.1 entry.2) :=
    fun read => Table.set_mapEntries (closed name) network.reads (if_neg differs)
  unfold look
  rw [get?_finish_of_ne differs]
  cases network.reads.get? other with
  | none =>
      rfl
  | some read =>
      dsimp only
      unfold begin
      rw [value?_finish]
      split
      · split
        · rw [reads]
          rfl
        · have signals : ((network.finish name).modifyCell read.signal
              (·.await other)).signals =
                ((network.modifyCell read.signal (·.await other)).finish name
                  ).signals := by
            refine List.ext_getElem? fun id => ?_
            unfold finish modifyCell modifySignal
            dsimp only
            rw [List.getElem?_modify, List.getElem?_map, List.getElem?_map,
              List.getElem?_modify]
            cases network.signals[id]? with
            | none =>
                rfl
            | some signal =>
                by_cases here : read.signal = id
                · simp [here, forget_await signal.cell differs]
                · simp [here]
          have sameReads := reads { read with state := .waiting }
          unfold finish at sameReads
          unfold finish modifyCell modifySignal at signals ⊢
          dsimp only at signals sameReads ⊢
          rw [signals, sameReads]
      · rfl

theorem foldl_look_finish {names : List Text} (absent : name ∉ names) :
    names.foldl look (network.finish name) =
      (names.foldl look network).finish name := by
  induction names generalizing network with
  | nil =>
      rfl
  | cons first rest inductionHypothesis =>
      rw [List.mem_cons, not_or] at absent
      rw [List.foldl_cons, List.foldl_cons, look_finish (Ne.symm absent.1)]
      exact inductionHypothesis absent.2

theorem ready?_foldl_look {names : List Text} (absent : name ∉ names) :
    (names.foldl look network).ready? name = network.ready? name := by
  induction names generalizing network with
  | nil =>
      rfl
  | cons first rest inductionHypothesis =>
      rw [List.mem_cons, not_or] at absent
      rw [List.foldl_cons, inductionHypothesis absent.2,
        ready?_look_of_ne absent.1]

/-- As much as one turn after another, all requests can be looked at before the
first gives its answer. -/
theorem turns_eq {names : List Text} (distinct : names.Nodup) :
    network.turns names =
      let looked := names.foldl look network
      (names.filterMap fun name => (looked.ready? name).map (name, ·),
        (names.filter fun name => (looked.ready? name).isSome).foldl finish
          looked) := by
  induction names generalizing network with
  | nil =>
      rfl
  | cons name rest inductionHypothesis =>
      obtain ⟨absent, restDistinct⟩ := List.nodup_cons.mp distinct
      have same : (rest.foldl look (network.look name)).ready? name =
          (network.look name).ready? name :=
        ready?_foldl_look absent
      unfold turns turn
      dsimp only
      rw [List.foldl_cons]
      cases isReady : (network.look name).ready? name with
      | none =>
          rw [isReady] at same
          dsimp only
          rw [inductionHypothesis restDistinct,
            List.filterMap_cons_none (by rw [same]; rfl),
            List.filter_cons_of_neg (by rw [same]; exact Bool.false_ne_true)]
          rfl
      | some answer =>
          rw [isReady] at same
          have others : ∀ other ∈ rest,
              ((rest.foldl look (network.look name)).finish name).ready? other =
                (rest.foldl look (network.look name)).ready? other :=
            fun other member => ready?_finish_of_ne fun equal =>
              absent (equal ▸ member)
          dsimp only
          rw [inductionHypothesis restDistinct, foldl_look_finish absent,
            List.filterMap_cons_some (by rw [same]; rfl),
            List.filter_cons_of_pos (by rw [same]; rfl), List.foldl_cons]
          dsimp only
          rw [List.filterMap_congr fun other member => by
              rw [others other member],
            List.filter_congr fun other member => by
              rw [others other member]]
          rfl

theorem foldl_begin_eq {entries : Table (SignalRead α)}
    (distinct : entries.names.Nodup)
    (present : ∀ entry ∈ entries,
      network.reads.get? entry.1 = some entry.2) :
    entries.foldl (fun network (name, read) => network.begin name read)
        network =
      entries.names.foldl look network := by
  induction entries generalizing network with
  | nil =>
      rfl
  | cons entry rest inductionHypothesis =>
      obtain ⟨name, read⟩ := entry
      obtain ⟨absent, restDistinct⟩ := List.nodup_cons.mp distinct
      rw [List.forall_mem_cons] at present
      have looks : network.look name = network.begin name read := by
        unfold look
        rw [present.1]
      have stillPresent : ∀ entry ∈ rest,
          (network.begin name read).reads.get? entry.1 = some entry.2 := by
        intro entry member
        rw [get?_begin_of_ne]
        · exact present.2 entry member
        · intro same
          exact absent (List.mem_map.mpr ⟨entry, member, same⟩)
      show List.foldl _ (network.begin name read) rest = _
      rw [inductionHypothesis restDistinct stillPresent, ← looks]
      rfl

theorem names_foldl_look (names : List Text) (network : Network α) :
    (names.foldl look network).reads.names = network.reads.names := by
  induction names generalizing network with
  | nil =>
      rfl
  | cons name rest inductionHypothesis =>
      rw [List.foldl_cons, inductionHypothesis, names_look]

/-- Several requests that are over. -/
theorem foldl_finish (names : List Text) (network : Network α) :
    names.foldl finish network =
      { network with
        signals := network.signals.map fun signal =>
          { signal with cell := names.foldl Cell.forget signal.cell }
        reads := network.reads.map fun entry =>
          (entry.1,
            if entry.1 ∈ names then { entry.2 with state := .over }
            else entry.2) } := by
  induction names generalizing network with
  | nil =>
      simp
  | cons name rest inductionHypothesis =>
      rw [List.foldl_cons, inductionHypothesis]
      unfold finish
      dsimp only
      rw [List.map_map, List.map_map]
      congr 1
      refine List.map_congr_left fun entry _ => ?_
      unfold closed Function.comp
      dsimp only
      by_cases here : entry.1 = name
      · simp [here]
      · simp [here]

/-- When the network settles, every request has its turn, and the answers are
given in the order of the names. -/
theorem settle_eq_turns (distinct : network.reads.names.Nodup) :
    network.settle =
      (Table.sorted (network.turns network.reads.names).1,
        (network.turns network.reads.names).2) := by
  have begun := foldl_begin_eq distinct fun entry member =>
    Table.get?_eq_some_of_mem distinct member
  have names := names_foldl_look network.reads.names network
  have stillDistinct := names ▸ distinct
  rw [turns_eq distinct]
  unfold settle
  dsimp only
  rw [begun]
  generalize network.reads.names.foldl look network = looked
    at names stillDistinct
  rw [← names]
  have isReady : ∀ entry ∈ looked.reads,
      looked.ready? entry.1 = answer? entry.2 := by
    intro entry member
    rw [ready?, Table.get?_eq_some_of_mem stillDistinct member]
    rfl
  have answered : (looked.reads.filterMap fun (name, read) =>
      (answer? read).map fun answer => (name, answer)) =
        looked.reads.names.filterMap fun name =>
          (looked.ready? name).map (name, ·) := by
    unfold Table.names
    rw [List.filterMap_map]
    refine List.filterMap_congr fun entry member => ?_
    rw [Function.comp_apply, isReady entry member]
  have isOver : (looked.reads.map fun (name, read) =>
      (name, if (answer? read).isSome then { read with state := .over }
        else read)) =
      looked.reads.map fun entry =>
        (entry.1,
          if entry.1 ∈ looked.reads.names.filter fun name =>
              (looked.ready? name).isSome then
            { entry.2 with state := .over }
          else entry.2) := by
    refine List.map_congr_left fun entry member => ?_
    have listed : entry.1 ∈ looked.reads.names := List.mem_map_of_mem member
    simp only [List.mem_filter, listed, true_and, isReady entry member]
  have given : ((looked.reads.names.filterMap fun name =>
      (looked.ready? name).map (name, ·)).map (·.1)) =
        looked.reads.names.filter fun name => (looked.ready? name).isSome := by
    rw [List.map_filterMap, ← List.filterMap_eq_filter]
    refine List.filterMap_congr fun name _ => ?_
    cases answers : looked.ready? name <;> simp [Option.guard, answers]
  rw [foldl_finish, answered, isOver, ← given]
  simp only [List.foldl_map]

end CurrencyPad.Network
