import LabelledMap.Proofs.Label.Step
import LabelledMap.Proofs.Surface.Pen
import LabelledMap.Renderer

/-!
# A pass as a sequence of steps

A pass over a list of features is a pass over its beginning, followed by the features that are left
(`Renderer.drawPass_append`). A context that cannot be prepared ends every pass alike, whatever the
features are (`Renderer.drawPass_of_error`); otherwise each feature has one outcome
(`Renderer.length_of_drawPass_eq_ok`), and the first outcomes are those of the pass over the first
features (`Renderer.drawPass_take`).

Once a pass has begun, it changes the boxes, the targets and the counts of a renderer and nothing
else (`Renderer.drawLabels_keeps`).

`Renderer.askedBox?` is the box that a feature of a pass asks for, on the canvas as the features
before it have left it. `Renderer.labelStep_drawPass` takes the pass apart: each feature makes one
`LabelStep` from the boxes placed before it to those placed after it.
-/

set_option autoImplicit false

namespace LabelledMap

variable {α : Type} [Scalar α]

/-- A circle with a label. -/
def Feature.labelledCircle (id : FeatureId) (center : Point α) (text : String) : Feature α :=
  { Feature.circle id center 5 with label := some text }

namespace Renderer

/-! ### Features in order -/

/-- A feature becomes a target and is labelled before the features after it. -/
theorem drawFeatures_cons (renderer : Renderer α) (canvas : Canvas α) (feature : Feature α)
    (rest : List (Feature α)) :
    renderer.drawFeatures canvas (feature :: rest) =
      let targeted := renderer.addTarget feature
      let attempt := targeted.attemptLabel canvas feature
      let later := (targeted.afterAttempt attempt).drawFeatures (canvas.after attempt.calls) rest
      (attempt.calls ++ later.1, attempt.outcome :: later.2.1, later.2.2) := rfl

theorem drawFeatures_append (renderer : Renderer α) (canvas : Canvas α)
    (first second : List (Feature α)) :
    renderer.drawFeatures canvas (first ++ second) =
      let begun := renderer.drawFeatures canvas first
      let rest := begun.2.2.drawFeatures (canvas.after begun.1) second
      (begun.1 ++ rest.1, begun.2.1 ++ rest.2.1, rest.2.2) := by
  induction first generalizing renderer canvas with
  | nil => rfl
  | cons feature first ih =>
    simp only [List.cons_append, drawFeatures_cons, ih, Canvas.after_after, List.append_assoc]

/-- Drawing features changes at most the boxes, the targets and the counts. -/
theorem drawFeatures_keeps (renderer : Renderer α) (canvas : Canvas α)
    (features : List (Feature α)) :
    ∃ placed targets counts, (renderer.drawFeatures canvas features).2.2 =
      { renderer with placed, targets, counts } := by
  induction features generalizing renderer canvas with
  | nil => exact ⟨_, _, _, rfl⟩
  | cons feature rest ih =>
    rw [drawFeatures_cons]
    exact ih _ _

/-- Each feature has one outcome. -/
@[simp] theorem length_drawFeatures (renderer : Renderer α) (canvas : Canvas α)
    (features : List (Feature α)) :
    (renderer.drawFeatures canvas features).2.1.length = features.length := by
  induction features generalizing renderer canvas with
  | nil => rfl
  | cons feature rest ih => rw [drawFeatures_cons, List.length_cons, ih, List.length_cons]

omit [Scalar α] in
/-- A drawn label is counted as one. -/
theorem drawn_afterAttempt (renderer : Renderer α) (feature : Feature α)
    (attempt : LabelAttempt α) :
    ((renderer.addTarget feature).afterAttempt attempt).counts.drawn =
      renderer.counts.drawn + (if attempt.outcome.isDrawn then 1 else 0) := by
  unfold afterAttempt addTarget
  cases attempt.outcome <;> rfl

/-- The labels counted as drawn are those that were. -/
theorem drawn_drawFeatures (renderer : Renderer α) (canvas : Canvas α)
    (features : List (Feature α)) :
    (renderer.drawFeatures canvas features).2.2.counts.drawn =
      renderer.counts.drawn + (renderer.drawFeatures canvas features).2.1.countP (·.isDrawn) := by
  induction features generalizing renderer canvas with
  | nil => rfl
  | cons feature rest ih =>
    rw [drawFeatures_cons]
    simp only [ih, drawn_afterAttempt, List.countP_cons]
    omega

/-! ### Passes -/

section Passes

variable {renderer : Renderer α} {canvas : Canvas α} {frame : Frame α}
  {features first : List (Feature α)} {outcomes : List (LabelOutcome α)}
  {fault : CanvasFault α}

/-- Preparing a context only moves it. -/
theorem movesContext_contextSetup (layout : Layout α) {call : CanvasCall α}
    (hcall : call ∈ contextSetup layout) : call.movesContext = true := by
  unfold contextSetup at hcall
  split_ifs at hcall
  · simp only [List.mem_cons, List.not_mem_nil, or_false] at hcall
    rcases hcall with rfl | rfl
    · rfl
    · rfl
  · obtain rfl := List.mem_singleton.mp hcall
    rfl

/-- Features are drawn once the context is prepared. -/
theorem drawLabels_of_accepted {layout : Layout α}
    (haccepted : (canvas.perform (contextSetup layout)).2 = none) (features : List (Feature α)) :
    renderer.drawLabels canvas layout features =
      let drawing := renderer.drawFeatures (canvas.after (contextSetup layout)) features
      ⟨contextSetup layout ++ drawing.1, .ok drawing.2.1, drawing.2.2⟩ := by
  have hperformed : canvas.perform (contextSetup layout) = (contextSetup layout, none) :=
    Prod.ext (Refusals.attempt_fst_of_none haccepted) haccepted
  unfold drawLabels
  rw [hperformed]

/-- Nothing is drawn on a context that cannot be prepared. -/
theorem drawLabels_of_refused {layout : Layout α} {refusal : Refusal α}
    (hrefused : (canvas.perform (contextSetup layout)).2 = some refusal)
    (features : List (Feature α)) :
    renderer.drawLabels canvas layout features =
      ⟨(canvas.perform (contextSetup layout)).1, .error (.refused refusal), renderer⟩ := by
  have hperformed : canvas.perform (contextSetup layout) =
      ((canvas.perform (contextSetup layout)).1, some refusal) := Prod.ext rfl hrefused
  unfold drawLabels
  rw [hperformed]

/-- A pass draws features only on a context that could be prepared. -/
theorem accepted_of_drawPass_eq_ok
    (hresult : (renderer.drawPass canvas frame features).result = .ok outcomes) :
    (canvas.perform (contextSetup (renderer.layoutFor frame))).2 = none := by
  cases hsetup : (canvas.perform (contextSetup (renderer.layoutFor frame))).2 with
  | none => rfl
  | some refusal =>
    rw [drawPass, drawLabels_of_refused hsetup] at hresult
    cases hresult

/-- The outcomes of a pass are those of its features in order. -/
theorem outcomes_of_drawPass_eq_ok
    (hresult : (renderer.drawPass canvas frame features).result = .ok outcomes) :
    outcomes = ((renderer.beginPass frame).drawFeatures
      (canvas.after (contextSetup (renderer.layoutFor frame))) features).2.1 := by
  rw [drawPass, drawLabels_of_accepted (accepted_of_drawPass_eq_ok hresult)] at hresult
  exact (Except.ok.inj hresult).symm

/-- A pass whose context cannot be prepared draws nothing of any list of features. -/
theorem drawPass_of_error (hresult : (renderer.drawPass canvas frame first).result = .error fault)
    (second : List (Feature α)) :
    renderer.drawPass canvas frame second = renderer.drawPass canvas frame first := by
  unfold drawPass at hresult ⊢
  cases hsetup : (canvas.perform (contextSetup (renderer.layoutFor frame))).2 with
  | none =>
    rw [drawLabels_of_accepted hsetup] at hresult
    cases hresult
  | some refusal => rw [drawLabels_of_refused hsetup, drawLabels_of_refused hsetup]

/-- A pass over two lists goes on with the second where the pass over the first has ended. -/
theorem drawPass_append (hresult : (renderer.drawPass canvas frame first).result = .ok outcomes)
    (second : List (Feature α)) :
    renderer.drawPass canvas frame (first ++ second) =
      let begun := renderer.drawPass canvas frame first
      let rest := begun.renderer.drawFeatures (canvas.after begun.calls) second
      ⟨begun.calls ++ rest.1, .ok (outcomes ++ rest.2.1), rest.2.2⟩ := by
  have haccepted := accepted_of_drawPass_eq_ok hresult
  rw [outcomes_of_drawPass_eq_ok hresult]
  unfold drawPass
  simp only [drawLabels_of_accepted haccepted, drawFeatures_append, Canvas.after_after,
    List.append_assoc]

/-- Preparing a context and drawing features changes at most the boxes, the targets and the counts.
-/
theorem drawLabels_keeps (renderer : Renderer α) (canvas : Canvas α) (layout : Layout α)
    (features : List (Feature α)) :
    ∃ placed targets counts, (renderer.drawLabels canvas layout features).renderer =
      { renderer with placed, targets, counts } := by
  cases hsetup : (canvas.perform (contextSetup layout)).2 with
  | none =>
    rw [drawLabels_of_accepted hsetup]
    exact drawFeatures_keeps _ _ _
  | some refusal =>
    rw [drawLabels_of_refused hsetup]
    exact ⟨_, _, _, rfl⟩

/-- A pass begins, and changes at most the boxes, the targets and the counts after that. -/
theorem drawPass_keeps (renderer : Renderer α) (canvas : Canvas α) (frame : Frame α)
    (features : List (Feature α)) :
    ∃ placed targets counts, (renderer.drawPass canvas frame features).renderer =
      { renderer.beginPass frame with placed, targets, counts } :=
  drawLabels_keeps (renderer.beginPass frame) canvas (renderer.layoutFor frame) features

theorem options_drawPass (renderer : Renderer α) (canvas : Canvas α) (frame : Frame α)
    (features : List (Feature α)) :
    (renderer.drawPass canvas frame features).renderer.options = renderer.options := by
  obtain ⟨placed, targets, counts, hkept⟩ := renderer.drawPass_keeps canvas frame features
  rw [hkept]
  rfl

/-- Without features no label is placed. -/
theorem placed_drawPass_nil (renderer : Renderer α) (canvas : Canvas α) (frame : Frame α) :
    (renderer.drawPass canvas frame []).renderer.placed = ∅ := by
  unfold drawPass
  cases hsetup : (canvas.perform (contextSetup (renderer.layoutFor frame))).2 with
  | none =>
    rw [drawLabels_of_accepted hsetup]
    rfl
  | some refusal =>
    rw [drawLabels_of_refused hsetup]
    rfl

/-- A pass that is not ended by its context has one outcome for each feature. -/
theorem length_of_drawPass_eq_ok
    (hresult : (renderer.drawPass canvas frame features).result = .ok outcomes) :
    outcomes.length = features.length := by
  rw [outcomes_of_drawPass_eq_ok hresult, length_drawFeatures]

/-- The labels that a pass counts as drawn are those that were. -/
theorem drawn_of_drawPass_eq_ok
    (hresult : (renderer.drawPass canvas frame features).result = .ok outcomes) :
    (renderer.drawPass canvas frame features).renderer.counts.drawn =
      outcomes.countP (·.isDrawn) := by
  rw [outcomes_of_drawPass_eq_ok hresult, drawPass,
    drawLabels_of_accepted (accepted_of_drawPass_eq_ok hresult)]
  exact (drawn_drawFeatures _ _ _).trans (Nat.zero_add _)

/-- The pass over the first features has the first outcomes. -/
theorem drawPass_take
    (hresult : (renderer.drawPass canvas frame features).result = .ok outcomes) (count : Nat) :
    (renderer.drawPass canvas frame (features.take count)).result = .ok (outcomes.take count) := by
  cases hbegun : (renderer.drawPass canvas frame (features.take count)).result with
  | error fault =>
    rw [drawPass_of_error hbegun, hbegun] at hresult
    cases hresult
  | ok begun =>
    have hwhole := drawPass_append hbegun (features.drop count)
    rw [List.take_append_drop] at hwhole
    rw [hwhole] at hresult
    have hlength : begun.length = (features.take count).length := length_of_drawPass_eq_ok hbegun
    rw [List.length_take] at hlength
    simp only [Except.ok.injEq] at hresult
    rw [← hresult]
    rcases Nat.le_total count features.length with hle | hle
    · rw [Nat.min_eq_left hle] at hlength
      rw [List.take_left' hlength]
    · rw [List.drop_eq_nil_of_le hle]
      simp only [drawFeatures, List.append_nil]
      rw [List.take_of_length_le (by omega)]

/-! ### Steps of a pass -/

/-- One feature more adds the outcome of its label and places what its label places. -/
theorem drawPass_concat (hresult : (renderer.drawPass canvas frame first).result = .ok outcomes)
    (feature : Feature α) :
    let begun := renderer.drawPass canvas frame first
    let attempt :=
      drawLabel (canvas.after begun.calls) renderer.options begun.renderer.placed feature
    (renderer.drawPass canvas frame (first ++ [feature])).result =
        .ok (outcomes ++ [attempt.outcome]) ∧
      (renderer.drawPass canvas frame (first ++ [feature])).renderer.placed = attempt.placed := by
  rw [drawPass_append hresult]
  simp only [drawFeatures, attemptLabel, addTarget, options_drawPass, true_and]
  rfl

/-- The box that a feature of a pass asks for, on the canvas as the features before it have left
it. -/
def askedBox? (renderer : Renderer α) (canvas : Canvas α) (frame : Frame α)
    (features : List (Feature α)) (index : Nat) : Option (Rect α) :=
  features[index]?.bind
    (LabelledMap.askedBox?
      (canvas.after (renderer.drawPass canvas frame (features.take index)).calls)
      renderer.options)

/-- Each feature of a pass makes one step, from the boxes placed for the features before it. -/
theorem labelStep_drawPass
    (hresult : (renderer.drawPass canvas frame features).result = .ok outcomes) {index : Nat}
    (hindex : index < features.length) :
    ∃ outcome, outcomes[index]? = some outcome ∧
      LabelStep renderer.options.collision
        (renderer.drawPass canvas frame (features.take index)).renderer.placed
        (renderer.askedBox? canvas frame features index) outcome
        (renderer.drawPass canvas frame (features.take (index + 1))).renderer.placed := by
  have hlt : index < outcomes.length := (length_of_drawPass_eq_ok hresult).symm ▸ hindex
  obtain ⟨hnext, hplaced⟩ := drawPass_concat (drawPass_take hresult index) features[index]
  rw [List.take_append_getElem hindex] at hnext hplaced
  rw [drawPass_take hresult (index + 1), ← List.take_append_getElem hlt] at hnext
  simp only [Except.ok.injEq, List.append_cancel_left_eq, List.cons.injEq, and_true] at hnext
  refine ⟨outcomes[index], List.getElem?_eq_getElem hlt, ?_⟩
  unfold askedBox?
  rw [hplaced, hnext, List.getElem?_eq_getElem hindex, Option.bind_some]
  exact labelStep_drawLabel _ _ _ _

end Passes

end Renderer

end LabelledMap
