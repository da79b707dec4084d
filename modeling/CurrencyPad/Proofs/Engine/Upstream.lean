import CurrencyPad.Proofs.Engine.Publication

/-!
# Signals from outside

A signal that is set tells its listeners one after another.  The engine is
behind the signal until its display is told; from then on it is current again,
and whoever is told later changes nothing that is shown.
-/

namespace CurrencyPad

/-- A cell that takes a value lets all its waiters go and keeps its
listeners. -/
theorem Cell.eq_of_change?_eq_some {α ι κ : Type} [BEq α]
    {cell after : Cell α ι κ} {value : α}
    (changed : cell.change? value = some after) :
    after = { cell with value := some value, waiters := [] } := by
  unfold Cell.change? at changed
  split at changed
  · cases changed
  · exact (Option.some.inj changed).symm

namespace Engine

/-- How the listeners of a signal react: the log makes a notice, the display
hears a change, and others do nothing to the engine. -/
structure Telling (tell : Engine → EngineListener → Step)
    (change : DisplaySources → DisplaySources) : Prop where
  logged :
    ∀ engine, ∃ notice, tell engine .log = (engine.notice notice).ok
  displayed :
    ∀ engine, tell engine .display = (engine.hear change).release
  ignored :
    ∀ engine number, tell engine (.outside number) = engine.ok

theorem telling_rates (rates : Snapshot) :
    Telling (fun engine => engine.tellRates (some rates))
      ({ · with rates := some rates }) :=
  ⟨fun _ => ⟨_, rfl⟩, fun _ => rfl, fun _ _ => rfl⟩

theorem telling_base (base : Text) :
    Telling (fun engine => engine.tellBase (some base))
      ({ · with base := some base }) :=
  ⟨fun _ => ⟨_, rfl⟩, fun _ => rfl, fun _ _ => rfl⟩

/-- The display of an engine has missed one change of its sources. -/
structure Behind (change : DisplaySources → DisplaySources)
    (before engine : Engine) : Prop where
  current : before.Current
  attached : engine.attached = true
  missed : change engine.heard = engine.sources
  settled : engine.stale = false
  accepting : engine.refusing = 0
  sameScreen : engine.screen = before.screen
  sameConfig : engine.config = before.config

namespace Telling

variable {tell : Engine → EngineListener → Step}
  {change : DisplaySources → DisplaySources}

/-- Telling changes neither the entry nor the frame of an engine, whether
someone fails or not. -/
theorem entry_frame_tellAll (telling : Telling tell change)
    (listeners : List EngineListener) (engine : Engine) :
    (tellAll tell engine listeners).1.entry = engine.entry ∧
      (tellAll tell engine listeners).1.frame = engine.frame := by
  induction listeners generalizing engine with
  | nil =>
      exact ⟨rfl, rfl⟩
  | cons listener rest inductionHypothesis =>
      rw [tellAll]
      cases listener with
      | log =>
          obtain ⟨notice, logged⟩ := telling.logged engine
          rw [logged]
          exact inductionHypothesis (engine.notice notice)
      | display =>
          rw [telling.displayed]
          have sameEntry :
              (engine.hear change).release.1.entry = engine.entry := by
            simp
          have sameFrame :
              (engine.hear change).release.1.frame = engine.frame := by
            simp
          generalize (engine.hear change).release = step
            at sameEntry sameFrame ⊢
          obtain ⟨released, failure⟩ := step
          cases failure with
          | some failure =>
              exact ⟨sameEntry, sameFrame⟩
          | none =>
              obtain ⟨restEntry, restFrame⟩ := inductionHypothesis released
              exact ⟨restEntry.trans sameEntry, restFrame.trans sameFrame⟩
      | outside number =>
          rw [telling.ignored]
          exact inductionHypothesis engine

/-- Where the display is not moved by what it is told, telling makes notices
only. -/
theorem tellAll_of_unmoved (telling : Telling tell change)
    (listeners : List EngineListener) {engine : Engine}
    (unmoved : ∀ notices : List Notice,
      tell { engine with notices := notices } .display =
        ok { engine with notices := notices }) :
    ∃ notices,
      tellAll tell engine listeners =
        ({ engine with notices := notices }, none) := by
  suffices told : ∀ start : List Notice, ∃ notices,
      tellAll tell { engine with notices := start } listeners =
        ({ engine with notices := notices }, none) from
    told engine.notices
  induction listeners with
  | nil =>
      intro start
      exact ⟨start, rfl⟩
  | cons listener rest inductionHypothesis =>
      intro start
      rw [tellAll]
      cases listener with
      | log =>
          obtain ⟨notice, logged⟩ :=
            telling.logged { engine with notices := start }
          rw [logged]
          exact inductionHypothesis (notice :: start)
      | display =>
          rw [unmoved]
          exact inductionHypothesis start
      | outside number =>
          rw [telling.ignored]
          exact inductionHypothesis start

theorem tellAll_of_detached (telling : Telling tell change)
    (listeners : List EngineListener) {engine : Engine}
    (detached : engine.attached = false)
    (fresh : engine.stale = false) :
    ∃ notices,
      tellAll tell engine listeners =
        ({ engine with notices := notices }, none) := by
  refine telling.tellAll_of_unmoved listeners ?_
  intro notices
  rw [telling.displayed]
  simp only [hear, detached, release, fresh, Bool.false_eq_true, if_false]

theorem tellAll_of_current (telling : Telling tell change)
    (listeners : List EngineListener) {engine : Engine}
    (current : engine.Current)
    (known : change engine.heard = engine.heard) :
    ∃ notices,
      tellAll tell engine listeners =
        ({ engine with notices := notices }, none) := by
  refine telling.tellAll_of_unmoved listeners ?_
  intro notices
  have noticed : ({ engine with notices := notices } : Engine).Current :=
    current.of_view_eq rfl
  have hearing :
      ({ engine with notices := notices } : Engine).hear change =
        { engine with notices := notices, stale := true } := by
    simp only [hear, current.attached, if_true, known]
  rw [telling.displayed, hearing]
  exact noticed.publish_stale

/-- Telling all listeners brings a display that was behind up to date, which is
told once if it changed. -/
theorem tellAll_of_behind (telling : Telling tell change)
    {before : Engine} (listeners : List EngineListener) :
    ∀ {engine : Engine}, Behind change before engine →
      change engine.sources = engine.sources →
      .display ∈ listeners →
        (tellAll tell engine listeners).2 = none ∧
          before.Follows (tellAll tell engine listeners).1 := by
  induction listeners with
  | nil =>
      intro engine _ _ member
      cases member
  | cons listener rest inductionHypothesis =>
      intro engine behind known member
      cases listener with
      | log =>
          obtain ⟨notice, logged⟩ := telling.logged engine
          rw [tellAll, logged]
          refine inductionHypothesis ?_ known (by simpa using member)
          exact ⟨behind.current, behind.attached, behind.missed,
            behind.settled, behind.accepting, behind.sameScreen,
            behind.sameConfig⟩
      | display =>
          have attentive : (engine.hear change).Attentive := by
            refine Attentive.hear behind.attached behind.missed ?_
            have samePublished : engine.published = before.published :=
              congrArg Prod.fst behind.sameScreen
            rw [samePublished, behind.sameConfig]
            exact behind.current.attentive.drawn
          have accepting : (engine.hear change).refusing = 0 := by
            rw [← behind.accepting]
            exact congrArg Frame.refusing (frame_hear engine change)
          obtain ⟨succeeded, follows⟩ :=
            behind.current.follows_release attentive accepting
              ((screen_hear engine change).trans behind.sameScreen)
          have sameSources :
              (engine.hear change).release.1.sources =
                engine.sources :=
            sources_congr (by simp) (by simp)
          have step :
              tell engine .display =
                ((engine.hear change).release.1, none) := by
            rw [telling.displayed, ← succeeded]
          rw [tellAll, step]
          have knows :
              change (engine.hear change).release.1.heard =
                (engine.hear change).release.1.heard := by
            rw [follows.current.heard, sameSources, known]
          obtain ⟨notices, told⟩ :=
            telling.tellAll_of_current rest follows.current knows
          change (tellAll tell _ rest).2 = none ∧
            before.Follows (tellAll tell _ rest).1
          rw [told]
          exact ⟨rfl, follows.of_view_eq rfl⟩
      | outside number =>
          rw [tellAll, telling.ignored]
          exact inductionHypothesis behind known (by simpa using member)

end Telling

theorem setRates_of_unchanged {engine : Engine} {rates : Option Snapshot}
    (unchanged : engine.rates.change? rates = none) :
    engine.setRates rates = engine.ok := by
  simp [setRates, unchanged]

theorem setBase_of_unchanged {engine : Engine} {base : Option Text}
    (unchanged : engine.base.change? base = none) :
    engine.setBase base = engine.ok := by
  simp [setBase, unchanged]

/-- An engine whose rates have changed, before anyone is told.  Conversions that
wait for rates receive them. -/
def receiving (engine : Engine) (rates : Snapshot) : Engine :=
  { engine with
    rates :=
      { engine.rates with value := some (some rates), waiters := [] }
    conversions :=
      engine.conversions.map
        (PendingConversion.receive (some rates) engine.rates.waiters) }

theorem setRates_of_changed {engine : Engine} {rates : Snapshot}
    {cell : RatesCell}
    (changed : engine.rates.change? (some rates) = some cell) :
    engine.setRates (some rates) =
      tellAll (fun engine => engine.tellRates (some rates))
        (engine.receiving rates) engine.rates.listeners := by
  have cellValue := Cell.eq_of_change?_eq_some changed
  subst cellValue
  simp [setRates, changed, receiving]

/-- An engine whose base currency has changed, before anyone is told. -/
def rebased (engine : Engine) (base : Text) : Engine :=
  { engine with
    base := { engine.base with value := some (some base), waiters := [] } }

theorem setBase_of_changed {engine : Engine} {base : Text}
    {cell : BaseCell}
    (changed : engine.base.change? (some base) = some cell) :
    engine.setBase (some base) =
      tellAll (fun engine => engine.tellBase (some base))
        (engine.rebased base) engine.base.listeners := by
  have cellValue := Cell.eq_of_change?_eq_some changed
  subst cellValue
  simp [setBase, changed, rebased]

/-- While the display is not connected nobody fails at new rates. -/
theorem setRates_of_detached {engine : Engine}
    (detached : engine.attached = false) (settled : engine.stale = false)
    (rates : Snapshot) :
    engine.setRates (some rates) = engine.ok ∨
      ∃ notices,
        engine.setRates (some rates) =
          ({ engine.receiving rates with notices := notices }, none) := by
  cases changed : engine.rates.change? (some rates) with
  | none =>
      exact .inl (setRates_of_unchanged changed)
  | some cell =>
      have unattached : (engine.receiving rates).attached = false := detached
      rw [setRates_of_changed changed]
      exact .inr ((telling_rates rates).tellAll_of_detached _ unattached
        settled)

theorem setBase_of_detached {engine : Engine}
    (detached : engine.attached = false) (settled : engine.stale = false)
    (base : Text) :
    engine.setBase (some base) = engine.ok ∨
      ∃ notices,
        engine.setBase (some base) =
          ({ engine.rebased base with notices := notices }, none) := by
  cases changed : engine.base.change? (some base) with
  | none =>
      exact .inl (setBase_of_unchanged changed)
  | some cell =>
      have unattached : (engine.rebased base).attached = false := detached
      rw [setBase_of_changed changed]
      exact .inr ((telling_base base).tellAll_of_detached _ unattached
        settled)

theorem Current.follows_setRates {engine : Engine}
    (current : engine.Current)
    (accepting : engine.refusing = 0)
    (hears : .display ∈ engine.rates.listeners) (rates : Snapshot) :
    (engine.setRates (some rates)).2 = none ∧
      engine.Follows (engine.setRates (some rates)).1 := by
  cases changed : engine.rates.change? (some rates) with
  | none =>
      rw [setRates_of_unchanged changed]
      exact ⟨rfl, current.follows_self⟩
  | some cell =>
      rw [setRates_of_changed changed]
      refine (telling_rates rates).tellAll_of_behind _ ?_ rfl hears
      exact ⟨current, current.attached, by rw [receiving, current.heard]; rfl,
        current.settled, accepting, rfl, rfl⟩

theorem Current.follows_setBase {engine : Engine}
    (current : engine.Current)
    (accepting : engine.refusing = 0)
    (hears : .display ∈ engine.base.listeners) (base : Text) :
    (engine.setBase (some base)).2 = none ∧
      engine.Follows (engine.setBase (some base)).1 := by
  cases changed : engine.base.change? (some base) with
  | none =>
      rw [setBase_of_unchanged changed]
      exact ⟨rfl, current.follows_self⟩
  | some cell =>
      rw [setBase_of_changed changed]
      refine (telling_base base).tellAll_of_behind _ ?_ rfl hears
      exact ⟨current, current.attached, by rw [rebased, current.heard]; rfl,
        current.settled, accepting, rfl, rfl⟩

end Engine

end CurrencyPad
