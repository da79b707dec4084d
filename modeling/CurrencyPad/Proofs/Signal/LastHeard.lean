import CurrencyPad.Proofs.Signal.Scene

/-!
# The value that is heard last

A listener may set the signal that it is told of.  Then all listeners are told of
the new value before the next one is told of the old.  So the value that is told
last is the value of the signal for those before whom no such listener is
registered, but may be an old one for others.
-/

namespace CurrencyPad

variable {α : Type}

namespace Scene

/-- The hearer has a cache for what it is told, if it needs one. -/
def HasCache (scene : Scene α) : Hearer → Prop
  | .subscriber _ => True
  | .cache combination index => (scene.cache combination index).isSome = true

/-- The hearer is told of this signal alone, and no listener that is registered
before it may set the signal. -/
structure IsForemost (scene : Scene α) (id : SignalId) (hearer : Hearer) :
    Prop where
  order : (scene.listeners id).Pairwise fun earlier later =>
    later.hearer = hearer → ¬ scene.MaySet id earlier
  only : ∀ other, other ≠ id →
    ∀ listener ∈ scene.listeners other, listener.hearer ≠ hearer
  hasCache : scene.HasCache hearer

/-- The hearer was told of the present value last, or will be told of it. -/
structure Awaits (start : Scene α) (id : SignalId) (hearer : Hearer)
    (scene : Scene α) (pending : List (Message α)) : Prop where
  shrinks : start.Shrinks scene
  fresh : ∀ message ∈ pending, message.listener.hearer = hearer →
    scene.value id = some message.value
  order : pending.Pairwise fun earlier later =>
    later.listener.hearer = hearer → ¬ start.MaySet id earlier.listener
  told : ∀ listener ∈ scene.listeners id, listener.hearer = hearer →
    scene.lastHeard hearer = scene.value id ∨
      ∃ message ∈ pending, message.listener.hearer = hearer

variable {start scene next : Scene α} {id : SignalId} {hearer : Hearer}
  {message : Message α} {rest posts : List (Message α)}

theorem lastHeard_hear (hasCache : scene.HasCache hearer)
    (hears : message.listener.hearer = hearer) :
    (scene.hear message).lastHeard hearer = some message.value := by
  obtain ⟨value, listener⟩ := message
  cases listener with
  | subscriber label reaction =>
      subst hears
      show Table.get? ((label, value) :: scene.hearings) label = some value
      rw [Table.get?_cons, if_pos rfl]
  | source combination index =>
      subst hears
      obtain ⟨old, isCache⟩ := Option.isSome_iff_exists.mp hasCache
      show (Function.update scene.cache combination _ combination index).join =
        some value
      rw [Function.update_self, Function.update_self, isCache]
      rfl

theorem lastHeard_hear_of_ne (other : message.listener.hearer ≠ hearer) :
    (scene.hear message).lastHeard hearer = scene.lastHeard hearer := by
  obtain ⟨value, listener⟩ := message
  cases listener with
  | subscriber label reaction =>
      cases hearer with
      | subscriber name =>
          have differs : label ≠ name := by
            rintro rfl
            exact other rfl
          show Table.get? ((label, value) :: scene.hearings) name = _
          rw [Table.get?_cons, if_neg differs]
          rfl
      | cache =>
          rfl
  | source combination index =>
      cases hearer with
      | subscriber =>
          rfl
      | cache otherCombination otherIndex =>
          show (Function.update scene.cache combination _ otherCombination
            otherIndex).join = _
          rw [Function.update_apply]
          split
          case isTrue same =>
            have differs : otherIndex ≠ index := by
              rintro rfl
              exact other (by rw [same]; rfl)
            rw [Function.update_of_ne differs, ← same]
            rfl
          case isFalse =>
            rfl

theorem Shrinks.hasCache (shrinks : scene.Shrinks next)
    (hasCache : scene.HasCache hearer) : next.HasCache hearer := by
  cases hearer with
  | subscriber =>
      trivial
  | cache combination index =>
      exact (shrinks.cache combination index).trans hasCache

namespace Awaits

variable {scene next : Scene α} {message : Message α}
  {rest posts : List (Message α)}

/-- The listener that is told next hears the present value; whether it is the
hearer or not, nobody else has to hear more. -/
theorem hear (awaits : start.Awaits id hearer scene (message :: rest))
    (hasCache : start.HasCache hearer) :
    start.Awaits id hearer (scene.hear message) rest := by
  refine ⟨awaits.shrinks.trans (shrinks_hear scene message), ?_,
    (List.pairwise_cons.mp awaits.order).2, ?_⟩
  · rw [value_hear]
    exact fun other member =>
      awaits.fresh other (List.mem_cons_of_mem _ member)
  · rw [value_hear, listeners_hear]
    intro listener member isHearer
    by_cases hears : message.listener.hearer = hearer
    · left
      rw [lastHeard_hear (awaits.shrinks.hasCache hasCache) hears]
      exact (awaits.fresh message List.mem_cons_self hears).symm
    · rw [lastHeard_hear_of_ne hears]
      refine (awaits.told listener member isHearer).imp_right ?_
      rintro ⟨other, pending, otherHears⟩
      rcases List.mem_cons.mp pending with rfl | later
      · exact absurd otherHears hears
      · exact ⟨other, later, otherHears⟩

/-- Where nothing is pending for the hearer, the messages of a new value are all
that it waits for. -/
theorem put (foremost : start.IsForemost id hearer)
    (shrinks : start.Shrinks scene)
    (order : rest.Pairwise fun earlier later =>
      later.listener.hearer = hearer → ¬ start.MaySet id earlier.listener)
    (none : ∀ message ∈ rest, message.listener.hearer ≠ hearer) (value : α) :
    start.Awaits id hearer (scene.put id value)
      (scene.posts id value ++ rest) := by
  refine ⟨shrinks.trans (shrinks_put scene id value),
    fun message member hears => ?_, ?_,
    fun listener member isHearer => .inr ?_⟩
  · rcases List.mem_append.mp member with posted | later
    · rw [(mem_posts.mp posted).1]
      exact Function.update_self ..
    · exact absurd hears (none message later)
  · refine List.pairwise_append.mpr ⟨?_, order,
      fun _ _ later member hears => absurd hears (none later member)⟩
    rw [posts, List.pairwise_map]
    exact foremost.order.sublist (shrinks.listeners id)
  · exact ⟨⟨value, listener⟩,
      List.mem_append_left _ (mem_posts.mpr ⟨rfl, member⟩), isHearer⟩

/-- Messages of another signal, none of which is for the hearer, are told before
those that are pending. -/
theorem putOther (awaits : start.Awaits id hearer scene rest)
    {other : SignalId} (differs : other ≠ id) (value : α)
    (none : ∀ listener ∈ scene.listeners other, listener.hearer ≠ hearer)
    (harmless : ∀ listener ∈ scene.listeners other, ∀ later ∈ rest,
      later.listener.hearer = hearer → ¬ start.MaySet id listener) :
    start.Awaits id hearer (scene.put other value)
      (scene.posts other value ++ rest) := by
  have kept : (scene.put other value).value id = scene.value id :=
    Function.update_of_ne (Ne.symm differs) ..
  have notPosted : ∀ message ∈ scene.posts other value,
      message.listener.hearer ≠ hearer :=
    fun message posted => none _ (mem_posts.mp posted).2
  refine ⟨awaits.shrinks.trans (shrinks_put scene other value),
    fun message member hears => ?_, ?_,
    fun listener member isHearer => ?_⟩
  · rw [kept]
    rcases List.mem_append.mp member with posted | later
    · exact absurd hears (notPosted message posted)
    · exact awaits.fresh message later hears
  · refine List.pairwise_append.mpr ⟨?_, awaits.order,
      fun earlier posted later member =>
        harmless _ (mem_posts.mp posted).2 later member⟩
    exact List.pairwise_iff_forall_sublist.mpr fun sublist hears =>
      absurd hears (notPosted _ (sublist.subset (by simp)))
  · rw [kept]
    exact (awaits.told listener member isHearer).imp_right
      fun ⟨message, later, hears⟩ =>
        ⟨message, List.mem_append_right _ later, hears⟩

theorem drop (awaits : start.Awaits id hearer scene rest) (name : Text)
    (subscription : Subscription) :
    start.Awaits id hearer (scene.drop name subscription) rest := by
  have fewer := shrinks_drop scene name subscription
  refine ⟨awaits.shrinks.trans fewer, awaits.fresh, awaits.order,
    fun listener member isHearer => ?_⟩
  exact awaits.told listener ((fewer.listeners id).subset member) isHearer

variable [BEq α]

theorem tells (foremost : start.IsForemost id hearer)
    (awaits : start.Awaits id hearer scene (message :: rest))
    (tells : scene.Tells message next posts) :
    start.Awaits id hearer next (posts ++ rest) := by
  have heard := awaits.hear foremost.hasCache
  have before := (List.pairwise_cons.mp awaits.order).1
  cases tells with
  | rest =>
      exact heard
  | cancel _ name subscription =>
      exact heard.drop name subscription
  | set other value sets =>
      have startSets := awaits.shrinks.sets_iff.mp sets
      rw [← posts_hear scene message]
      by_cases same : other = id
      · subst same
        -- Whoever sets the signal is told after the hearer.
        refine put foremost heard.shrinks heard.order
          (fun later member hears => ?_) value
        exact before later member hears (.itself startSets)
      · refine heard.putOther same value (fun listener member => ?_)
          fun listener member later laterMember hears leads => ?_
        · rw [listeners_hear] at member
          exact foremost.only other same listener
            ((awaits.shrinks.listeners other).subset member)
        · rw [listeners_hear] at member
          exact before later laterMember hears (.onward startSets
            ((awaits.shrinks.listeners other).subset member) leads)

theorem works (foremost : start.IsForemost id hearer)
    (awaits : start.Awaits id hearer scene posts)
    (works : scene.Works posts next) : start.Awaits id hearer next [] := by
  induction works with
  | nil =>
      exact awaits
  | cons tells _ inductionHypothesis =>
      exact inductionHypothesis (awaits.tells foremost tells)

end Awaits

end Scene

namespace Network

variable [BEq α] {network next : Network α} {id : SignalId} {value : α}

/-- When a setting has told all its messages, a registered listener that no
possible setter of the signal precedes was told last of the value that the signal
has then, whatever other listeners set meanwhile. -/
theorem lastHeard_of_set
    (done : network.set id value = ⟨.ok true, next⟩) :
    ∀ listener ∈ next.listeners id,
      network.scene.IsForemost id listener.hearer →
        next.scene.lastHeard listener.hearer = next.value? id := by
  intro listener registered foremost
  cases set_messages _ _ _ _ _ done with
  | changed _ _ _ works =>
      have posted : network.scene.Awaits id listener.hearer
          (network.scene.put id value) (network.scene.posts id value ++ []) :=
        .put foremost (.refl _) .nil nofun value
      rw [List.append_nil] at posted
      have told := (posted.works foremost works).told listener registered rfl
      exact told.resolve_right nofun

/-- A number with a subscriber, its remainder by two, which is written back to
it, and its copy, where the combinations are started in the given order. -/
def writingBack (starts : List SignalId) : Network Nat :=
  let single (compute : Nat → Nat) : List (Option Nat) →
      Except SignalFailure Nat
    | [some value] => .ok (compute value)
    | _ => .error .tooFewValues
  let number := Network.empty.addCell ['n'] ['n'] (some 0)
  let logged := (number.subscribe ['l'] 0
    (.subscriber ['l'] .nothing) true).network
  let remainder := (logged.addCombination ['r'] ['r'] [['n']] []
    (single (· % 2))).network
  let copy := (remainder.addCombination ['c'] ['c'] [['n']] []
    (single fun value => value)).network
  let started := starts.foldl (fun network id => (network.start id).network)
    copy
  (started.subscribe ['w'] 1 (.subscriber ['f'] (.forward ['n'])) false).network

/-- The copy is started first and ends with the number that is written back. -/
theorem lastHeard_of_set_copy :
    ∃ next, (writingBack [2, 1]).set 0 3 = ⟨.ok true, next⟩ ∧
      .source 2 0 ∈ next.listeners 0 ∧
      (writingBack [2, 1]).scene.IsForemost 0 (.cache 2 0) ∧
      next.scene.lastHeard (.cache 2 0) = next.value? 0 ∧
      next.value? 0 = some 1 := by
  have result : ((writingBack [2, 1]).set 0 3).result = .ok true := by
    decide +kernel
  have done : (writingBack [2, 1]).set 0 3 =
      ⟨.ok true, ((writingBack [2, 1]).set 0 3).network⟩ := by
    rw [← result]
  have registered : Listener.source 2 0 ∈
      ((writingBack [2, 1]).set 0 3).network.listeners 0 := by
    decide +kernel
  have listeners : (writingBack [2, 1]).scene.listeners 0 =
      [.subscriber ['l'] .nothing, .source 2 0, .source 1 0] := by
    decide +kernel
  have foremost : (writingBack [2, 1]).scene.IsForemost 0 (.cache 2 0) := by
    refine ⟨?_, fun other differs listener member => ?_, ?_⟩
    · rw [listeners]
      have quiet : ¬ (writingBack [2, 1]).scene.MaySet 0
          (.subscriber ['l'] .nothing) := by
        intro leads
        cases leads with
        | itself does =>
            exact does
        | onward sets =>
            exact sets
      simp [Listener.hearer, quiet]
    · have known : ∀ other < 3, other ≠ 0 →
          ∀ listener ∈ (writingBack [2, 1]).listeners other,
            listener.hearer ≠ .cache 2 0 := by
        decide +kernel
      by_cases inside : other < 3
      · exact known other inside differs listener member
      · have three : (writingBack [2, 1]).signals.length = 3 := by
          decide +kernel
        have size : (writingBack [2, 1]).signals.length ≤ other := by
          rw [three]
          exact not_lt.mp inside
        have none : (writingBack [2, 1]).listeners other = [] := by
          unfold Network.listeners signal?
          rw [List.getElem?_eq_none size]
          rfl
        rw [show (writingBack [2, 1]).scene.listeners other = [] from none]
          at member
        cases member
    · show ((writingBack [2, 1]).cache 2 0).isSome = true
      decide +kernel
  exact ⟨_, done, registered, foremost,
    lastHeard_of_set done _ registered foremost, by decide +kernel⟩

/-- The value that is heard last need not be the value of the signal: a copy that
is started after the remainder ends with the number that was set first. -/
theorem not_lastHeard_of_set :
    ¬ ∀ (network next : Network Nat) (id : SignalId) (value : Nat),
      network.set id value = ⟨.ok true, next⟩ →
        ∀ listener ∈ next.listeners id,
          next.scene.lastHeard listener.hearer = next.value? id := by
  intro all
  have result : ((writingBack [1, 2]).set 0 3).result = .ok true := by
    decide +kernel
  have heard := all (writingBack [1, 2]) ((writingBack [1, 2]).set 0 3).network
    0 3 (by rw [← result]) (.source 2 0) (by decide +kernel)
  revert heard
  decide +kernel

end Network

end CurrencyPad
