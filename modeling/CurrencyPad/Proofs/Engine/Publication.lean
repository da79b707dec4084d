import CurrencyPad.Proofs.Engine.Change
import CurrencyPad.Proofs.Pad.Display

/-!
# Publication of the display

While an event makes its changes the display only hears of them; it is computed
when the event is done.  An engine is attentive where the display has heard of
everything, and current where it shows what it has heard.  Every write keeps an
engine attentive, and the release at the end makes it current again, telling a
display that differs from the last one and no other.
-/

namespace CurrencyPad.Engine

def dueDisplay (engine : Engine) : Display :=
  Display.derive engine.config engine.sources

theorem sources_congr {left right : Engine}
    (sameEntry : left.entry = right.entry)
    (sameFrame : left.frame = right.frame) :
    left.sources = right.sources := by
  have made : ∀ engine : Engine,
      engine.sources =
        ⟨engine.entry.expression, engine.entry.currency,
          engine.entry.showError, engine.frame.rates.value.join,
          engine.frame.base.value.join⟩ :=
    fun _ => rfl
  rw [made, made, sameEntry, sameFrame]

theorem dueDisplay_congr {left right : Engine}
    (sameEntry : left.entry = right.entry)
    (sameFrame : left.frame = right.frame) :
    left.dueDisplay = right.dueDisplay := by
  have sameConfig : left.config = right.config :=
    congrArg Frame.config sameFrame
  unfold dueDisplay
  rw [sameConfig, sources_congr sameEntry sameFrame]

/-- The display has heard of all changes, though it may not be computed yet. -/
structure Attentive (engine : Engine) : Prop where
  attached : engine.attached = true
  heard : engine.heard = engine.sources
  shownUnlessStale :
    engine.stale = false → engine.published = some engine.dueDisplay
  drawn :
    ∀ display ∈ engine.published, ∃ sources,
      display = Display.derive engine.config sources

/-- The display shows what belongs to its sources. -/
structure Current (engine : Engine) : Prop where
  attached : engine.attached = true
  heard : engine.heard = engine.sources
  settled : engine.stale = false
  shown : engine.published = some engine.dueDisplay

theorem Current.attentive {engine : Engine} (current : engine.Current) :
    engine.Attentive where
  attached := current.attached
  heard := current.heard
  shownUnlessStale := fun _ => current.shown
  drawn := by
    intro display member
    rw [current.shown] at member
    cases member
    exact ⟨engine.sources, rfl⟩

/-- The second engine shows its sources, and a display was told once on the way
if it differs from the first engine's, and never otherwise. -/
structure Follows (before after : Engine) : Prop where
  current : after.Current
  quiet :
    after.dueDisplay = before.dueDisplay →
      after.displays = before.displays
  told :
    after.dueDisplay ≠ before.dueDisplay →
      after.displays = after.dueDisplay :: before.displays

/-- What an engine shows is a function of this part of it. -/
def view (engine : Engine) : Config × DisplaySources × Bool × DisplaySources ×
    Bool × Option Display × List Display :=
  (engine.config, engine.sources, engine.attached, engine.heard,
    engine.stale, engine.published, engine.displays)

theorem Current.follows_self {engine : Engine} (current : engine.Current) :
    engine.Follows engine :=
  ⟨current, fun _ => rfl, fun different => absurd rfl different⟩

/-- Changes outside the view are not followed by a display. -/
theorem Follows.of_view_eq {before after still : Engine}
    (follows : before.Follows after)
    (sameView : still.view = after.view) :
    before.Follows still := by
  obtain ⟨⟨attached, heard, settled, shown⟩, quiet, told⟩ := follows
  simp only [view, Prod.mk.injEq] at sameView
  obtain ⟨sameConfig, sameSources, sameAttached, sameHeard, sameStale,
    samePublished, sameDisplays⟩ := sameView
  have sameDue : still.dueDisplay = after.dueDisplay := by
    unfold dueDisplay
    rw [sameConfig, sameSources]
  refine ⟨⟨?_, ?_, ?_, ?_⟩, ?_, ?_⟩
  · rw [sameAttached, attached]
  · rw [sameHeard, heard, sameSources]
  · rw [sameStale, settled]
  · rw [samePublished, shown, sameDue]
  · rw [sameDue, sameDisplays]
    exact quiet
  · rw [sameDue, sameDisplays]
    exact told

theorem Follows.from_view_eq {before after other : Engine}
    (follows : before.Follows after)
    (sameView : other.view = before.view) :
    other.Follows after := by
  simp only [view, Prod.mk.injEq] at sameView
  obtain ⟨sameConfig, sameSources, _, _, _, _, sameDisplays⟩ := sameView
  have sameDue : other.dueDisplay = before.dueDisplay := by
    unfold dueDisplay
    rw [sameConfig, sameSources]
  refine ⟨follows.current, ?_, ?_⟩
  · rw [sameDue, sameDisplays]
    exact follows.quiet
  · rw [sameDue, sameDisplays]
    exact follows.told

theorem Current.of_view_eq {before after : Engine}
    (current : before.Current) (sameView : after.view = before.view) :
    after.Current :=
  (current.follows_self.of_view_eq sameView).current

namespace Attentive

variable {engine : Engine}

/-- An engine whose display hears what it had missed is attentive. -/
theorem hear {change : DisplaySources → DisplaySources}
    (attached : engine.attached = true)
    (heard : change engine.heard = engine.sources)
    (drawn :
      ∀ display ∈ engine.published, ∃ sources,
        display = Display.derive engine.config sources) :
    (engine.hear change).Attentive := by
  simp only [Engine.hear, attached, if_true]
  exact ⟨rfl, heard, nofun, drawn⟩

theorem writeExpression (attentive : engine.Attentive) (text : Text) :
    (engine.writeExpression text).Attentive := by
  unfold Engine.writeExpression
  split
  · exact attentive
  · refine hear attentive.attached ?_ attentive.drawn
    simp only [attentive.heard]
    rfl

theorem writeCurrency (attentive : engine.Attentive) (code : Text) :
    (engine.writeCurrency code).Attentive := by
  unfold Engine.writeCurrency
  split
  · exact attentive
  · refine hear attentive.attached ?_ attentive.drawn
    simp only [attentive.heard]
    rfl

theorem writeShowError (attentive : engine.Attentive) (shown : Bool) :
    (engine.writeShowError shown).Attentive := by
  unfold Engine.writeShowError
  split
  · exact attentive
  · refine hear attentive.attached ?_ attentive.drawn
    simp only [attentive.heard]
    rfl

theorem setOverride (attentive : engine.Attentive) (override : Bool) :
    (engine.setOverride override).Attentive :=
  ⟨attentive.attached, attentive.heard, attentive.shownUnlessStale,
    attentive.drawn⟩

theorem notice (attentive : engine.Attentive) (notice : Notice) :
    (engine.notice notice).Attentive :=
  ⟨attentive.attached, attentive.heard, attentive.shownUnlessStale,
    attentive.drawn⟩

theorem edit (attentive : engine.Attentive) (text : Text) :
    (engine.edit text).Attentive :=
  (attentive.writeExpression text).setOverride false

theorem calculate (attentive : engine.Attentive) :
    engine.calculate.Attentive := by
  unfold Engine.calculate
  split
  · exact attentive.edit _
  · dsimp only
    split
    · exact attentive.setOverride false
    · exact ((attentive.writeShowError true).notice _).setOverride false

theorem fillIn (attentive : engine.Attentive) (money : Money) :
    (engine.fillIn money).Attentive := by
  have selected := attentive.writeCurrency money.currency
  unfold Engine.fillIn
  dsimp only
  split
  · exact selected.setOverride false
  · exact (selected.writeExpression _).setOverride true

/-- An event leaves no change unheard. -/
theorem change (attentive : engine.Attentive) (event : Event) :
    (engine.change event).Attentive := by
  cases event with
  | backspace =>
      simp only [Engine.change]
      split
      · exact attentive
      · exact attentive.edit _
  | separator =>
      exact attentive.edit _
  | operator key =>
      exact attentive.edit _
  | digit key =>
      exact (attentive.edit _).writeShowError false
  | clear =>
      exact attentive.edit _
  | equals =>
      exact attentive.calculate
  | currency code =>
      exact attentive
  | initial value =>
      cases value with
      | none =>
          exact attentive
      | some money =>
          exact attentive.fillIn money

end Attentive

/-- The last display and all that were told, which writes leave alone. -/
def screen (engine : Engine) : Option Display × List Display :=
  (engine.published, engine.displays)

@[simp]
theorem screen_hear
    (engine : Engine) (change : DisplaySources → DisplaySources) :
    (engine.hear change).screen = engine.screen := by
  unfold hear
  split <;> rfl

@[simp]
theorem screen_notice (engine : Engine) (notice : Notice) :
    (engine.notice notice).screen = engine.screen := rfl

@[simp]
theorem screen_setOverride (engine : Engine) (override : Bool) :
    (engine.setOverride override).screen = engine.screen := rfl

@[simp]
theorem screen_writeExpression (engine : Engine) (text : Text) :
    (engine.writeExpression text).screen = engine.screen := by
  unfold writeExpression
  split
  · rfl
  · rw [screen_hear]
    rfl

@[simp]
theorem screen_writeCurrency (engine : Engine) (code : Text) :
    (engine.writeCurrency code).screen = engine.screen := by
  unfold writeCurrency
  split
  · rfl
  · rw [screen_hear]
    rfl

@[simp]
theorem screen_writeShowError (engine : Engine) (shown : Bool) :
    (engine.writeShowError shown).screen = engine.screen := by
  unfold writeShowError
  split
  · rfl
  · rw [screen_hear]
    rfl

@[simp]
theorem screen_edit (engine : Engine) (text : Text) :
    (engine.edit text).screen = engine.screen := by
  simp [edit]

@[simp]
theorem screen_calculate (engine : Engine) :
    engine.calculate.screen = engine.screen := by
  unfold calculate
  split
  · simp
  · dsimp only
    split <;> simp

@[simp]
theorem screen_fillIn (engine : Engine) (money : Money) :
    (engine.fillIn money).screen = engine.screen := by
  unfold fillIn
  dsimp only
  split <;> simp

@[simp]
theorem screen_change (engine : Engine) (event : Event) :
    (engine.change event).screen = engine.screen := by
  cases event with
  | backspace =>
      simp only [change]
      split
      · rfl
      · exact screen_edit engine _
  | initial value =>
      cases value with
      | none =>
          rfl
      | some money =>
          exact screen_fillIn engine money
  | _ =>
      simp [change]

/-- The engine that shows what belongs to its sources, told as a new display or
not. -/
private def showing (engine : Engine) (displays : List Display) : Engine :=
  { engine with
    stale := false
    published := some engine.dueDisplay
    displays := displays }

private theorem derive_heard {engine : Engine}
    (attentive : engine.Attentive) :
    Display.derive engine.config engine.heard = engine.dueDisplay := by
  rw [attentive.heard]
  rfl

/-- A display is refused only if it is new. -/
theorem failure_publish (engine : Engine) :
    engine.publish.2 =
      if engine.published.any
            (· == Display.derive engine.config engine.heard) ∨
          engine.refusing = 0 then none
      else some .listener := by
  unfold publish
  dsimp only
  split
  case isTrue known =>
    rw [if_pos (.inl known)]
    rfl
  case isFalse new =>
    by_cases accepting : engine.refusing = 0
    · rw [if_pos accepting, if_pos (.inr accepting)]
      rfl
    · rw [if_neg accepting, if_neg (not_or.mpr ⟨new, accepting⟩)]

private theorem publish_of_shown {engine : Engine}
    (attentive : engine.Attentive)
    (shown : engine.published = some engine.dueDisplay) :
    engine.publish = (engine.showing engine.displays, none) := by
  have unchanged :
      engine.published.any (· == engine.dueDisplay) = true := by
    rw [shown]
    exact (Display.derive_beq_iff _ _ _).mpr rfl
  unfold publish
  simp only [derive_heard attentive, unchanged, if_true, ok, showing,
    ← shown]

private theorem publish_of_not_shown {engine : Engine}
    (attentive : engine.Attentive)
    (accepting : engine.refusing = 0)
    (hidden : engine.published ≠ some engine.dueDisplay) :
    engine.publish =
      (engine.showing (engine.dueDisplay :: engine.displays), none) := by
  have changed :
      engine.published.any (· == engine.dueDisplay) = false := by
    rw [Option.any_eq_false]
    intro display member
    obtain ⟨sources, rfl⟩ := attentive.drawn display member
    rw [Bool.eq_false_iff]
    intro same
    have equal := (Display.derive_beq_iff _ _ _).mp same
    exact hidden (member.trans (congrArg some equal))
  unfold publish
  simp only [derive_heard attentive, changed, accepting, if_true, ok,
    showing, Bool.false_eq_true, if_false]

private theorem current_showing {engine : Engine}
    (attentive : engine.Attentive) (displays : List Display) :
    (engine.showing displays).Current :=
  ⟨attentive.attached, attentive.heard, rfl, rfl⟩

theorem Current.publish_stale {engine : Engine}
    (current : engine.Current) :
    ({ engine with stale := true } : Engine).publish = engine.ok := by
  have attentive : ({ engine with stale := true } : Engine).Attentive :=
    ⟨current.attached, current.heard, nofun, current.attentive.drawn⟩
  rw [publish_of_shown attentive current.shown]
  have restored :
      ({ engine with stale := true } : Engine).showing engine.displays =
        { engine with
          stale := false
          published := some engine.dueDisplay } := rfl
  rw [restored, ← current.settled, ← current.shown]
  rfl

/-- Where the display has heard of everything and nobody refuses it, a release
succeeds, shows what belongs to the sources, and tells it if it is new. -/
theorem release_attentive {engine : Engine}
    (attentive : engine.Attentive)
    (accepting : engine.refusing = 0) :
    engine.release.2 = none ∧
      engine.release.1.Current ∧
      (engine.published = some engine.dueDisplay →
        engine.release.1.displays = engine.displays) ∧
      (engine.published ≠ some engine.dueDisplay →
        engine.release.1.displays =
          engine.dueDisplay :: engine.displays) := by
  unfold release
  split
  case isTrue stale =>
    by_cases shown : engine.published = some engine.dueDisplay
    · rw [publish_of_shown attentive shown]
      exact ⟨rfl, current_showing attentive _, fun _ => rfl,
        fun hidden => absurd shown hidden⟩
    · rw [publish_of_not_shown attentive accepting shown]
      exact ⟨rfl, current_showing attentive _,
        fun visible => absurd visible shown, fun _ => rfl⟩
  case isFalse fresh =>
    have settled : engine.stale = false := by
      simpa using fresh
    have shown := attentive.shownUnlessStale settled
    exact ⟨rfl, ⟨attentive.attached, attentive.heard, settled, shown⟩,
      fun _ => rfl, fun hidden => absurd shown hidden⟩

/-- The release after some writes: from an engine that showed its sources to
one that shows them again. -/
theorem Current.follows_release {before after : Engine}
    (current : before.Current)
    (attentive : after.Attentive)
    (accepting : after.refusing = 0)
    (sameScreen : after.screen = before.screen) :
    after.release.2 = none ∧ before.Follows after.release.1 := by
  have samePublished : after.published = before.published :=
    congrArg Prod.fst sameScreen
  have sameDisplays : after.displays = before.displays :=
    congrArg Prod.snd sameScreen
  have sameDue : after.release.1.dueDisplay = after.dueDisplay :=
    dueDisplay_congr (entry_release after) (frame_release after)
  obtain ⟨succeeded, shows, quiet, told⟩ :=
    release_attentive attentive accepting
  rw [samePublished, current.shown, sameDisplays] at quiet told
  refine ⟨succeeded, shows, ?_, ?_⟩
  · intro same
    rw [sameDue] at same
    exact quiet (congrArg some same.symm)
  · intro different
    rw [sameDue] at different ⊢
    refine told ?_
    intro same
    exact different (Option.some.inj same).symm

/-- An event that is dispatched publishes the state after it, once. -/
theorem Current.follows_dispatch {engine : Engine}
    (current : engine.Current)
    (accepting : engine.refusing = 0) (event : Event) :
    (engine.dispatch event).2 = none ∧
      engine.Follows (engine.dispatch event).1 := by
  have stillAccepting : (engine.change event).refusing = 0 := by
    rw [← accepting]
    exact congrArg Frame.refusing (frame_change engine event)
  exact current.follows_release (current.attentive.change event)
    stillAccepting (screen_change engine event)

theorem Current.follows_applyCurrency {engine : Engine}
    (current : engine.Current)
    (accepting : engine.refusing = 0)
    (code : Text) (expression : Option Text) :
    (engine.applyCurrency code expression).2 = none ∧
      engine.Follows (engine.applyCurrency code expression).1 := by
  cases expression with
  | none =>
      apply current.follows_release
      · exact (current.attentive.writeCurrency code).setOverride false
      · rw [← accepting]
        exact congrArg Frame.refusing (frame_writeCurrency engine code)
      · simp
  | some text =>
      apply current.follows_release
      · exact
          ((current.attentive.writeExpression text).writeCurrency
            code).setOverride false
      · have sameFrame :
            ((engine.writeExpression text).writeCurrency code).frame =
              engine.frame := by
          simp
        rw [← accepting]
        exact congrArg Frame.refusing sameFrame
      · simp

/-- The end of a conversion is published at once, and once. -/
theorem Current.follows_convert {engine : Engine}
    (current : engine.Current)
    (accepting : engine.refusing = 0)
    (conversion : PendingConversion) (rates : Snapshot) :
    (engine.convert conversion rates).2 = none ∧
      engine.Follows (engine.convert conversion rates).1 := by
  have applied : ∀ (notice : Notice) (text : Option Text),
      ((engine.notice notice).applyCurrency conversion.target text).2 =
          none ∧
        engine.Follows
          ((engine.notice notice).applyCurrency conversion.target
            text).1 := by
    intro notice text
    have noticed : (engine.notice notice).Current :=
      current.of_view_eq rfl
    obtain ⟨succeeded, follows⟩ :=
      noticed.follows_applyCurrency accepting conversion.target text
    exact ⟨succeeded, follows.from_view_eq rfl⟩
  unfold convert
  dsimp only
  split
  · exact applied _ _
  · exact applied _ _

end CurrencyPad.Engine
