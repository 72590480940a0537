import LabelledMap.Proofs.Renderer.PassInputs

/-!
# Settings

What a renderer holds is of three kinds: what a pass leaves, which feature is hovered, and the rest,
its settings. `Renderer.SameSettings` says that two renderers agree on the settings. Passes leave
them (`Renderer.sameSettings_drawPass`), and every operation does the same to them, whatever passes
have left and whatever is hovered (`SameSettings.apply`), so that two renderers that agree once go
on agreeing (`SameSettings.run`).

A pass reads the settings only. On two renderers that agree on them it makes the same calls, has the
same result and leaves the same renderer, up to the feature that was hovered before
(`SameSettings.drawPass`).
-/

set_option autoImplicit false

namespace LabelledMap.Renderer

variable {α : Type}

/-- Two renderers agree on all but what a pass leaves and which feature is hovered. -/
structure SameSettings (first second : Renderer α) : Prop where
  options : first.options = second.options
  devicePixelRatio : first.devicePixelRatio = second.devicePixelRatio
  projection : first.projection = second.projection
  throttle : first.throttle = second.throttle
  busy : first.busy = second.busy

namespace SameSettings

variable {first second third : Renderer α}

theorem refl (renderer : Renderer α) : SameSettings renderer renderer := ⟨rfl, rfl, rfl, rfl, rfl⟩

theorem symm (hsame : SameSettings first second) : SameSettings second first where
  options := hsame.options.symm
  devicePixelRatio := hsame.devicePixelRatio.symm
  projection := hsame.projection.symm
  throttle := hsame.throttle.symm
  busy := hsame.busy.symm

theorem trans (hsame : SameSettings first second) (hnext : SameSettings second third) :
    SameSettings first third where
  options := hsame.options.trans hnext.options
  devicePixelRatio := hsame.devicePixelRatio.trans hnext.devicePixelRatio
  projection := hsame.projection.trans hnext.projection
  throttle := hsame.throttle.trans hnext.throttle
  busy := hsame.busy.trans hnext.busy

/-- Renderers with the same settings and the same pass differ in the hovered feature at most. -/
theorem eq_of_samePass (hsame : SameSettings first second) (hpass : SamePass first second) :
    first = { second with hovered := first.hovered } := by
  cases first
  cases second
  simp only [mk.injEq, true_and]
  exact ⟨hsame.options, hsame.devicePixelRatio, hsame.projection, hsame.throttle, hpass.placed,
    hpass.drawnView, hpass.layout, hpass.targets, hsame.busy, hpass.counts⟩

theorem losePointer (hsame : SameSettings first second) :
    SameSettings first.losePointer.2 second.losePointer.2 :=
  { hsame with throttle := congrArg Throttle.reset hsame.throttle }

end SameSettings

variable [Scalar α]

/-- Drawing labels leaves the settings. -/
theorem sameSettings_drawLabels (renderer : Renderer α) (canvas : Canvas α) (layout : Layout α)
    (features : List (Feature α)) :
    SameSettings (renderer.drawLabels canvas layout features).renderer renderer := by
  obtain ⟨placed, targets, counts, hkept⟩ := renderer.drawLabels_keeps canvas layout features
  rw [hkept]
  exact ⟨rfl, rfl, rfl, rfl, rfl⟩

theorem sameSettings_beginPass (renderer : Renderer α) (frame : Frame α) :
    SameSettings (renderer.beginPass frame) renderer := ⟨rfl, rfl, rfl, rfl, rfl⟩

/-- A pass leaves the settings. -/
theorem sameSettings_drawPass (renderer : Renderer α) (canvas : Canvas α) (frame : Frame α)
    (features : List (Feature α)) :
    SameSettings (renderer.drawPass canvas frame features).renderer renderer :=
  (sameSettings_drawLabels _ _ _ _).trans (sameSettings_beginPass _ _)

namespace SameSettings

variable {first second : Renderer α}

theorem movePointer (hsame : SameSettings first second) (point : Point α) (now : α) :
    SameSettings (first.movePointer point now).2 (second.movePointer point now).2 := by
  unfold Renderer.movePointer
  rw [hsame.busy, hsame.throttle]
  split_ifs
  · exact hsame
  · exact { hsame with throttle := rfl, busy := rfl }
  · exact hsame

theorem setOptions (hsame : SameSettings first second) (options : LabelOptions α) :
    SameSettings ((Operation.setOptions options).apply first)
      ((Operation.setOptions options).apply second) := by
  change SameSettings ((first.setOptions options).toOption.getD first)
    ((second.setOptions options).toOption.getD second)
  unfold Renderer.setOptions
  cases options.validate with
  | error fault => exact hsame
  | ok valid => exact { hsame with options := rfl }

/-- An operation does the same to the settings. -/
theorem apply (hsame : SameSettings first second) (operation : Operation α) :
    SameSettings (operation.apply first) (operation.apply second) := by
  cases operation with
  | setOptions options => exact hsame.setOptions options
  | assignOptions options => exact { hsame with options := rfl }
  | setDevicePixelRatio ratio => exact { hsame with devicePixelRatio := rfl }
  | setProjection projection => exact { hsame with projection := rfl }
  | setBusy busy => exact { hsame with busy := rfl }
  | beginPass | addTarget | attemptLabel => exact { hsame with }
  | drawLabels canvas layout features =>
    exact (sameSettings_drawLabels _ _ _ _).trans
      (hsame.trans (sameSettings_drawLabels _ _ _ _).symm)
  | drawPass canvas frame features =>
    exact (sameSettings_drawPass _ _ _ _).trans
      (hsame.trans (sameSettings_drawPass _ _ _ _).symm)
  | movePointer point now => exact hsame.movePointer point now
  | losePointer => exact hsame.losePointer

/-- Renderers with the same settings have the same settings after the same operations. -/
theorem run (hsame : SameSettings first second) (operations : List (Operation α)) :
    SameSettings (first.run operations) (second.run operations) := by
  induction operations generalizing first second with
  | nil => exact hsame
  | cons operation rest ih => exact ih (hsame.apply operation)

/-- A pass begins alike on both renderers, but for the hovered feature. -/
theorem beginPass (hsame : SameSettings first second) (frame : Frame α) :
    first.layoutFor frame = second.layoutFor frame ∧
      SamePass (first.beginPass frame) (second.beginPass frame) := by
  have hbegun := samePass_beginPass hsame.options hsame.devicePixelRatio frame
  exact ⟨Option.some.inj hbegun.layout, hbegun⟩

/-- Drawing labels on renderers that have begun the same pass does the same, and leaves the same but
for the hovered feature. -/
theorem drawLabels (hsame : SameSettings first second) (hpass : SamePass first second)
    (canvas : Canvas α) (layout : Layout α) (features : List (Feature α)) :
    let report := first.drawLabels canvas layout features
    let other := second.drawLabels canvas layout features
    report.calls = other.calls ∧ report.result = other.result ∧
      report.renderer = { other.renderer with hovered := first.hovered } := by
  intro report other
  obtain ⟨hcalls, hresult, hfinal⟩ := hpass.drawLabels canvas layout features
  obtain ⟨placed, targets, counts, hkept⟩ := first.drawLabels_keeps canvas layout features
  have hhovered : report.renderer.hovered = first.hovered :=
    (congrArg Renderer.hovered hkept).trans rfl
  have hsettings : SameSettings report.renderer other.renderer :=
    (sameSettings_drawLabels _ _ _ _).trans (hsame.trans (sameSettings_drawLabels _ _ _ _).symm)
  exact ⟨hcalls, hresult, hhovered ▸ hsettings.eq_of_samePass hfinal⟩

/-- A pass does the same on both renderers, and leaves the same but for the hovered feature. -/
theorem drawPass (hsame : SameSettings first second) (canvas : Canvas α) (frame : Frame α)
    (features : List (Feature α)) :
    let pass := first.drawPass canvas frame features
    let other := second.drawPass canvas frame features
    pass.calls = other.calls ∧ pass.result = other.result ∧
      pass.renderer = { other.renderer with hovered := first.hovered } := by
  obtain ⟨hlayout, hbegun⟩ := hsame.beginPass frame
  have hsettings : SameSettings (first.beginPass frame) (second.beginPass frame) := { hsame with }
  unfold Renderer.drawPass
  rw [hlayout]
  exact hsettings.drawLabels hbegun canvas _ features

end SameSettings

end LabelledMap.Renderer
