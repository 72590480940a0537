import LabelledMap.Decimal.Double
import LabelledMap.Proofs.Renderer.Sampling
import LabelledMap.Scalar.Double

/-!
# The feature on top

A feature is offered to the pointer when its shape is about to be drawn. `Renderer.offered` are the
features offered since the last pass was begun, whatever else has been done in the meantime. The
targets of a renderer are those of the interactive ones among them, in the same order
(`Renderer.Offers.apply`, `Renderer.offers_run`).

The pointer touches a feature if it is interactive and its shape contains the point
(`Feature.touches`), and of the features touched the one offered last is on top (`IsTopmost`). A
click tells the feature on top, and a sample of the pointer that is looked at hovers it
(`Renderer.topmost_touched`).
-/

set_option autoImplicit false

namespace LabelledMap

variable {α : Type}

section Features

variable [Scalar α]

/-- Whether the pointer touches a feature at a point: the feature is interactive and its shape
contains the point, within a tolerance in pixels. -/
def Feature.touches (feature : Feature α) (point : Point α) (tolerance : α) : Bool :=
  feature.interactive &&
    (⟨feature.id, feature.shape, feature.weight⟩ : Target α).contains point tolerance

/-- A feature is touched at a point, and none of those after it is. -/
def IsTopmost (features : List (Feature α)) (point : Point α) (tolerance : α)
    (feature : Feature α) : Prop :=
  feature.touches point tolerance = true ∧ ∃ below above, features = below ++ feature :: above ∧
    ∀ other ∈ above, other.touches point tolerance = false

namespace Target

variable {features : List (Feature α)} {point : Point α} {tolerance : α}

theorem any_ofFeature? (feature : Feature α) (point : Point α) (tolerance : α) :
    (ofFeature? feature).any (·.contains point tolerance) = feature.touches point tolerance := by
  unfold ofFeature? Feature.touches
  cases feature.interactive <;> rfl

/-- The target on top is that of the last feature that is touched: features that are no targets do
not count. -/
theorem topmost?_filterMap (features : List (Feature α)) (point : Point α) (tolerance : α) :
    topmost? (features.filterMap ofFeature?) point tolerance =
      (features.reverse.find? (·.touches point tolerance)).map (·.id) := by
  unfold topmost?
  rw [← List.filterMap_reverse, List.find?_filterMap]
  simp only [any_ofFeature?]
  cases hfound : features.reverse.find? (·.touches point tolerance) with
  | none => rfl
  | some feature =>
    have htouches := List.find?_some hfound
    obtain ⟨hinteractive, -⟩ := Bool.and_eq_true_iff.mp htouches
    simp only [Option.bind_some, ofFeature?, hinteractive, if_true, Option.map_some]

theorem topmost?_eq_some_iff {id : FeatureId} :
    topmost? (features.filterMap ofFeature?) point tolerance = some id ↔
      ∃ feature, IsTopmost features point tolerance feature ∧ feature.id = id := by
  rw [topmost?_filterMap, Option.map_eq_some_iff]
  refine exists_congr fun feature ↦ and_congr_left' ?_
  rw [List.find?_eq_some_iff_append]
  refine and_congr_right fun _ ↦ ⟨?_, ?_⟩
  · rintro ⟨above, below, hreverse, habove⟩
    refine ⟨below.reverse, above.reverse, ?_, fun other hother ↦ ?_⟩
    · rw [← List.reverse_reverse features, hreverse]
      simp
    · simpa using habove other (List.mem_reverse.mp hother)
  · rintro ⟨below, above, rfl, habove⟩
    refine ⟨above.reverse, below.reverse, by simp, fun other hother ↦ ?_⟩
    simpa using habove other (List.mem_reverse.mp hother)

theorem topmost?_eq_none_iff :
    topmost? (features.filterMap ofFeature?) point tolerance = none ↔
      ∀ feature ∈ features, feature.touches point tolerance = false := by
  rw [topmost?_filterMap, Option.map_eq_none_iff, List.find?_eq_none]
  simp only [List.mem_reverse, Bool.not_eq_true]

end Target

end Features

namespace Renderer

section Runs

variable [Scalar α]

/-! ### Features that are offered -/

/-- The features that are offered when features are to be drawn on a context: all of them, unless
the context cannot be prepared. -/
def offeredOn (canvas : Canvas α) (layout : Layout α) (features : List (Feature α)) :
    List (Feature α) :=
  match (canvas.perform (contextSetup layout)).2 with
  | none => features
  | some _ => []

/-- The features that have been offered since the last pass was begun, after an operation. -/
def Operation.noteOffered (renderer : Renderer α) (operation : Operation α)
    (features : List (Feature α)) : List (Feature α) :=
  match operation with
  | beginPass _ => []
  | addTarget feature => features ++ [feature]
  | drawLabels canvas layout drawn => features ++ offeredOn canvas layout drawn
  | drawPass canvas frame drawn => offeredOn canvas (renderer.layoutFor frame) drawn
  | _ => features

/-- The features that a run has offered since it began a pass for the last time. -/
def offered (renderer : Renderer α) (operations : List (Operation α)) : List (Feature α) :=
  renderer.noted Operation.noteOffered [] operations

/-! ### Targets -/

/-- Features that are drawn become targets if they are interactive, whatever becomes of their
labels. -/
theorem targets_drawFeatures (renderer : Renderer α) (canvas : Canvas α)
    (features : List (Feature α)) :
    (renderer.drawFeatures canvas features).2.2.targets =
      renderer.targets ++ features.filterMap Target.ofFeature? := by
  induction features generalizing renderer canvas with
  | nil => exact (List.append_nil renderer.targets).symm
  | cons feature rest ih =>
    rw [drawFeatures_cons]
    simp only [ih, afterAttempt, addTarget, List.append_assoc, List.filterMap_cons]
    cases Target.ofFeature? feature <;> rfl

theorem targets_drawLabels (renderer : Renderer α) (canvas : Canvas α) (layout : Layout α)
    (features : List (Feature α)) :
    (renderer.drawLabels canvas layout features).renderer.targets =
      renderer.targets ++ (offeredOn canvas layout features).filterMap Target.ofFeature? := by
  unfold offeredOn
  cases hsetup : (canvas.perform (contextSetup layout)).2 with
  | none =>
    rw [drawLabels_of_accepted hsetup]
    exact targets_drawFeatures renderer _ features
  | some refusal =>
    rw [drawLabels_of_refused hsetup]
    exact (List.append_nil renderer.targets).symm

/-- The targets of a renderer are those of the interactive ones among features, in their order. -/
def Offers (renderer : Renderer α) (features : List (Feature α)) : Prop :=
  renderer.targets = features.filterMap Target.ofFeature?

theorem Offers.apply {renderer : Renderer α} {features : List (Feature α)}
    (hoffers : renderer.Offers features) (operation : Operation α) :
    (operation.apply renderer).Offers (operation.noteOffered renderer features) := by
  cases operation with
  | beginPass frame => rfl
  | addTarget feature =>
    change renderer.targets ++ (Target.ofFeature? feature).toList =
      (features ++ [feature]).filterMap Target.ofFeature?
    rw [List.filterMap_append, hoffers, List.filterMap_cons]
    cases Target.ofFeature? feature <;> rfl
  | drawLabels canvas layout drawn =>
    change (renderer.drawLabels canvas layout drawn).renderer.targets =
      (features ++ offeredOn canvas layout drawn).filterMap Target.ofFeature?
    rw [targets_drawLabels, hoffers, List.filterMap_append]
  | drawPass canvas frame drawn =>
    exact targets_drawLabels (renderer.beginPass frame) canvas (renderer.layoutFor frame) drawn
  | setOptions options =>
    obtain ⟨kept, hkept⟩ := apply_setOptions renderer options
    rw [hkept]
    exact hoffers
  | movePointer point now =>
    obtain ⟨throttle, hovered, hkept⟩ := movePointer_keeps renderer point now
    simp only [Operation.apply, hkept]
    exact hoffers
  | _ => exact hoffers

theorem offers_run {renderer : Renderer α} (hempty : renderer.targets = [])
    (operations : List (Operation α)) :
    (renderer.run operations).Offers (renderer.offered operations) :=
  noted_run (fun _ _ operation hoffers ↦ hoffers.apply operation) hempty operations

/-! ### Clicking and hovering -/

/-- A click tells what is touched. -/
theorem click_eq_clicked_iff {renderer : Renderer α} {point : Point α} {id : FeatureId} :
    renderer.click point = [.clicked id] ↔ renderer.touched? point = some id := by
  unfold click
  cases renderer.touched? point <;> simp

theorem click_eq_nil_iff {renderer : Renderer α} {point : Point α} :
    renderer.click point = [] ↔ renderer.touched? point = none := by
  unfold click
  cases renderer.touched? point <;> simp

end Runs

variable [Analytic α]

/-- Clicking and hovering agree on the feature on top, after any run from a new renderer. Of the
features offered since the last pass was begun, a click at a point tells the last one that is
interactive and contains the point within the tolerance of the options, and it tells nothing if
there is none. A sample of the pointer at that point that is looked at makes the same feature the
hovered one, whatever was hovered before, or none if there is none. What became of the labels does
not count, nor do features that are not interactive, wherever they are drawn. -/
theorem topmost_touched (options : LabelOptions α) (interval : α)
    (operations : List (Operation α)) (point : Point α) :
    let renderer := (new options interval).run operations
    let features := (new options interval).offered operations
    let tolerance := renderer.options.clickTolerance
    (∀ id, renderer.click point = [.clicked id] ↔
      ∃ feature, IsTopmost features point tolerance feature ∧ feature.id = id) ∧
    (renderer.click point = [] ↔
      ∀ feature ∈ features, feature.touches point tolerance = false) ∧
    ∀ now, renderer.admits now = true →
      (∀ id, (renderer.movePointer point now).2.hovered = some id ↔
        ∃ feature, IsTopmost features point tolerance feature ∧ feature.id = id) ∧
      ((renderer.movePointer point now).2.hovered = none ↔
        ∀ feature ∈ features, feature.touches point tolerance = false) := by
  intro renderer features tolerance
  have htargets : renderer.targets = features.filterMap Target.ofFeature? :=
    offers_run rfl operations
  have htouched : renderer.touched? point =
      Target.topmost? (features.filterMap Target.ofFeature?) point tolerance := by
    unfold touched?
    rw [htargets]
  refine ⟨fun id ↦ ?_, ?_, fun now hadmits ↦ ?_⟩
  · rw [click_eq_clicked_iff, htouched, Target.topmost?_eq_some_iff]
  · rw [click_eq_nil_iff, htouched, Target.topmost?_eq_none_iff]
  · rw [movePointer_of_admits hadmits, htouched]
    exact ⟨fun id ↦ Target.topmost?_eq_some_iff, Target.topmost?_eq_none_iff⟩

/-- The label of the feature on top fails, and a circle that is not interactive lies above it. The
circle of a pass begun before is no target any more. -/
theorem topmost_touched_below :
    let start : Renderer Float := .new .standard 32
    let canvas : Canvas Float := .monospaced 7 [] ["Perth"]
    let frame : Frame Float := .padded ⟨0, 0⟩ ⟨200, 100⟩ 0.1 ⟨-22.68, 118.35⟩ 7
    let perth : Feature Float := .labelledCircle 1 ⟨0, 0⟩ "Perth"
    let shade : Feature Float := { Feature.circle 3 ⟨0, 0⟩ 20 with interactive := false }
    let features : List (Feature Float) := [.circle 2 ⟨0, 0⟩ 9, perth, .circle 2 ⟨40, 0⟩ 5, shade]
    let operations : List (Operation Float) :=
      [.beginPass frame, .addTarget (.circle 4 ⟨0, 0⟩ 5), .drawPass canvas frame features]
    let renderer := start.run operations
    start.offered operations = features ∧
      renderer.counts.failed = 1 ∧ renderer.targets.length = 3 ∧
      IsTopmost features ⟨3, 0⟩ renderer.options.clickTolerance perth ∧
      renderer.click ⟨3, 0⟩ = [.clicked 1] ∧
      (renderer.movePointer ⟨3, 0⟩ 0).2.hovered = some 1 ∧ renderer.click ⟨20, 0⟩ = [] := by
  intro start canvas frame perth shade features operations renderer
  have hprepared : (canvas.perform (contextSetup (start.layoutFor frame))).2 = none := by
    unfold contextSetup
    split_ifs <;> rfl
  have hoffered : start.offered operations = features := by
    change offeredOn canvas (start.layoutFor frame) features = features
    unfold offeredOn
    rw [hprepared]
  have htopmost : IsTopmost features ⟨3, 0⟩ renderer.options.clickTolerance perth :=
    ⟨by decide +kernel, [.circle 2 ⟨0, 0⟩ 9], [.circle 2 ⟨40, 0⟩ 5, shade], rfl, by decide +kernel⟩
  obtain ⟨hclick, -, hmove⟩ := topmost_touched .standard 32 operations (⟨3, 0⟩ : Point Float)
  obtain ⟨-, hmiss, -⟩ := topmost_touched .standard 32 operations (⟨20, 0⟩ : Point Float)
  rw [hoffered] at hclick hmiss hmove
  refine ⟨hoffered, by decide +kernel, by decide +kernel, htopmost, ?_, ?_, ?_⟩
  · exact (hclick 1).mpr ⟨perth, htopmost, rfl⟩
  · exact ((hmove 0 (by decide +kernel)).1 1).mpr ⟨perth, htopmost, rfl⟩
  · exact hmiss.mpr (by decide +kernel)

end Renderer

end LabelledMap
