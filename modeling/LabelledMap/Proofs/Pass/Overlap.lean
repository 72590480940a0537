import LabelledMap.Proofs.Pass.Pens
import LabelledMap.Proofs.Scalar.Order

/-!
# Boxes that overlap

Collisions are looked for with comparisons, and a comparison with something that is not a number is
never true: a box with such a corner would stand in the way of no label. No such box is placed, if
the options are valid. Anchors and widths that are not finite are left out before, so the corner of
a box is a sum of finite numbers and the opposite one lies right of it and below
(`isProper_labelBox`). A sum that is too large for the format is infinite and still a number.

Two rectangles as they should be, `Rect.IsProper`, meet if and only if they have a point in common
(`Rect.meets_iff`). So each box of a pass meets itself, and a label that asks for the box of another
one is left out (`LabelStep.collided_of_mem`). `Renderer.boxes_of_drawPass` says so of every pass,
and that the text of a box is drawn at its corner.
-/

set_option autoImplicit false

namespace LabelledMap

/-! ### Proper rectangles -/

section Proper

variable {α : Type} [Scalar α]

/-- Both coordinates are numbers; they may be infinite. -/
def Point.IsNumber (point : Point α) : Prop :=
  (point.x == point.x) = true ∧ (point.y == point.y) = true

/-- The corners are numbers, and they are not confused. -/
structure Rect.IsProper (rect : Rect α) : Prop where
  min : rect.min.IsNumber
  max : rect.max.IsNumber
  horizontal : rect.min.x ≤ rect.max.x
  vertical : rect.min.y ≤ rect.max.y

end Proper

/-- The rectangle with two given corners is proper if they are numbers. -/
theorem Rect.isProper_ofCorners {corner opposite : Point Float} (hcorner : corner.IsNumber)
    (hopposite : opposite.IsNumber) : (Rect.ofCorners corner opposite).IsProper := by
  have hx : (ofCorners corner opposite).min.x ≤ (ofCorners corner opposite).max.x :=
    Double.lesser_le_greater hcorner.1 hopposite.1
  have hy : (ofCorners corner opposite).min.y ≤ (ofCorners corner opposite).max.y :=
    Double.lesser_le_greater hcorner.2 hopposite.2
  obtain ⟨hminX, hmaxX, -⟩ := Double.le_iff_value.mp hx
  obtain ⟨hminY, hmaxY, -⟩ := Double.le_iff_value.mp hy
  exact ⟨⟨hminX, hminY⟩, ⟨hmaxX, hmaxY⟩, hx, hy⟩

/-- Proper rectangles meet if they have a point in common. -/
theorem Rect.meets_iff {rect other : Rect Float} (hrect : rect.IsProper) (hother : other.IsProper) :
    rect.meets other = true ↔
      ∃ point, rect.contains point = true ∧ other.contains point = true := by
  have hx := Double.exists_between_iff hrect.horizontal hother.horizontal
  have hy := Double.exists_between_iff hrect.vertical hother.vertical
  unfold meets contains
  simp only [Bool.and_eq_true, decide_eq_true_eq, hx, hy]
  constructor
  · rintro ⟨⟨x, hx, hx'⟩, y, hy, hy'⟩
    exact ⟨⟨x, y⟩, ⟨⟨hx, hy.1⟩, hy.2⟩, ⟨hx', hy'.1⟩, hy'.2⟩
  · rintro ⟨point, ⟨⟨hx, hy⟩, hy'⟩, ⟨hotherX, hotherY⟩, hotherY'⟩
    exact ⟨⟨point.x, hx, hotherX⟩, point.y, ⟨hy, hy'⟩, hotherY, hotherY'⟩

theorem Rect.meets_self {rect : Rect Float} (hrect : rect.IsProper) : rect.meets rect = true := by
  have hmin : rect.contains rect.min = true := by
    unfold contains
    simp only [Bool.and_eq_true, decide_eq_true_eq]
    exact ⟨⟨⟨Double.le_self_iff.mpr hrect.min.1, hrect.horizontal⟩,
      Double.le_self_iff.mpr hrect.min.2⟩, hrect.vertical⟩
  exact (meets_iff hrect hrect).mpr ⟨rect.min, hmin, hmin⟩

/-- The box of a label is proper, even where its corner or its width are too large to be added. -/
theorem isProper_labelBox {anchor offset : Point Float} {width : Float}
    (hanchor : anchor.isFinite = true) (hoffset : offset.isFinite = true)
    (husable : usableWidth width = true) : (labelBox anchor offset width).IsProper := by
  obtain ⟨hanchorX, hanchorY⟩ := Bool.and_eq_true_iff.mp hanchor
  obtain ⟨hoffsetX, hoffsetY⟩ := Bool.and_eq_true_iff.mp hoffset
  obtain ⟨hfinite, hsign⟩ := Bool.and_eq_true_iff.mp husable
  have hsign : ¬width < 0 := by simpa using hsign
  have hcorner : (anchor + offset).IsNumber :=
    ⟨Double.add_beq_self hanchorX hoffsetX, Double.add_beq_self hanchorY hoffsetY⟩
  have hright := Double.le_add hcorner.1 hfinite hsign
  have hbelow : (anchor + offset).y ≤ (anchor + offset).y + labelHeight :=
    Double.le_add hcorner.2 (by decide +kernel) (by decide +kernel)
  exact Rect.isProper_ofCorners hcorner
    ⟨(Double.le_iff_value.mp hright).2.1, (Double.le_iff_value.mp hbelow).2.1⟩

/-! ### Labels and their boxes -/

section Labels

variable {α : Type} [Scalar α] {canvas : Canvas α} {options : LabelOptions α}
  {placed next : PlacedLabels α} {feature : Feature α}

omit [Scalar α] in
/-- The line around a text is the first thing that can be refused, so it is asked for. -/
theorem Canvas.strokeText_mem_perform (canvas : Canvas α) (color text : String)
    (position : Point α) :
    .strokeText text position ∈ (canvas.perform (textCalls options color text position)).1 := by
  have hwidth : canvas.refusals [] (.lineWidth options.textBorderWeight) = none := rfl
  have hstyle : canvas.refusals.after [.lineWidth options.textBorderWeight] []
      (.strokeStyle options.textBorderColor) = none := rfl
  unfold perform textCalls
  rw [Refusals.attempt, hwidth, Refusals.attempt, hstyle, Refusals.attempt]
  cases (canvas.refusals.after _).after _ [] (.strokeText text position) <;> simp

/-- Calls draw the text of a feature at the point where its box hangs, and nothing elsewhere. -/
structure HangsAt (options : LabelOptions α) (feature : Feature α) (calls : List (CanvasCall α))
    (box : Rect α) (position : Point α) : Prop where
  /-- The point is the anchor moved by the offset. -/
  asked : ∃ anchor width, feature.anchor? = some anchor ∧ usableWidth width = true ∧
    position = anchor + options.offset ∧ box = labelBox anchor options.offset width
  drawn : ∃ text, feature.labelText? = some text ∧ .strokeText text position ∈ calls
  there : ∀ call ∈ calls, ∀ other, call.textPoint? = some other → other = position

/-- A label that takes up room is drawn where its box hangs. -/
theorem LabelCalls.hangsAt {attempt : LabelAttempt α}
    (hcalls : LabelCalls canvas options placed feature attempt) :
    attempt.placed = placed ∨ ∃ box position,
      HangsAt options feature attempt.calls box position ∧ attempt.placed = placed.push box := by
  cases hcalls with
  | silent => exact Or.inl rfl
  | measured => exact Or.inl rfl
  | @offered text anchor width made refused outcome htext hanchor husable hmade =>
    have hfirst := congrArg Prod.fst hmade
    have hbegun : made <+: _ := hfirst ▸ Refusals.attempt_fst_prefix _ _
    have hdrawn : .strokeText text (anchor + options.offset) ∈ made := by
      rw [← show _ = made from hfirst]
      exact Canvas.strokeText_mem_perform _ _ _ _
    refine Or.inr ⟨_, _, ⟨⟨anchor, width, hanchor, husable, rfl, rfl⟩,
      ⟨text, htext, List.mem_append_right _ hdrawn⟩, fun call hcall position hposition ↦ ?_⟩, rfl⟩
    rcases List.mem_append.mp hcall with hmeasuring | hdrawing
    · simp only [measuringCalls, measuringSetup, List.cons_append, List.nil_append,
        List.mem_cons, List.not_mem_nil, or_false] at hmeasuring
      rcases hmeasuring with rfl | rfl | rfl <;> cases hposition
    · have hcall := hbegun.subset hdrawing
      simp only [textCalls, List.mem_cons, List.not_mem_nil, or_false] at hcall
      rcases hcall with rfl | rfl | rfl | rfl | rfl | rfl <;> cases hposition <;> rfl

/-- A label that asks for a box that is placed already is left out. Assumes: boxes that meet are not
placed, and the box meets itself. -/
theorem LabelStep.collided_of_mem {box : Rect α} {outcome : LabelOutcome α}
    (hbox : box ∈ placed.boxes) (hself : box.meets box = true)
    (hstep : LabelStep true placed (some box) outcome next) :
    ∃ index, outcome = .collided index ∧ next = placed := by
  cases hstep with
  | @collided _ index => exact ⟨index, rfl, rfl⟩
  | drawn hoffer | refused hoffer =>
    have hnone := PlacedLabels.offer_eq_placed_iff.mp hoffer box hbox
    rw [hself] at hnone
    cases hnone

end Labels

namespace Renderer

section Placing

variable {α : Type} [Scalar α] {renderer : Renderer α} {canvas : Canvas α} {frame : Frame α}
  {features : List (Feature α)} {outcomes : List (LabelOutcome α)} {box : Rect α}

/-- A box of a pass is placed for the feature with a given index, whose text is drawn where the box
hangs. -/
def PlacedFor (renderer : Renderer α) (canvas : Canvas α) (frame : Frame α)
    (features : List (Feature α)) (box : Rect α) (index : Nat) (feature : Feature α)
    (position : Point α) : Prop :=
  let pass := fun list ↦ renderer.drawPass canvas frame list
  features[index]? = some feature ∧
    (pass (features.take (index + 1))).renderer.placed =
      (pass (features.take index)).renderer.placed.push box ∧
    ∃ made, (pass (features.take (index + 1))).calls = (pass (features.take index)).calls ++ made ∧
      HangsAt renderer.options feature made box position

/-- Each box that the first features of a pass leave behind is placed for one of them. -/
theorem exists_placedFor_take
    (hresult : (renderer.drawPass canvas frame features).result = .ok outcomes) {count : Nat}
    (hbox : box ∈ (renderer.drawPass canvas frame (features.take count)).renderer.placed.boxes) :
    ∃ index feature position,
      renderer.PlacedFor canvas frame features box index feature position := by
  induction count with
  | zero =>
    rw [List.take_zero, placed_drawPass_nil] at hbox
    cases hbox
  | succ count ih =>
    cases hfeature : features[count]? with
    | none =>
      have hlength := List.getElem?_eq_none_iff.mp hfeature
      rw [List.take_of_length_le (by omega)] at hbox ih
      exact ih hbox
    | some feature =>
      obtain ⟨hcalls, hplaced⟩ := drawPass_succ hresult hfeature
      let begun := renderer.drawPass canvas frame (features.take count)
      have hlabel := labelCalls_drawLabel (canvas.after begun.calls) renderer.options
        begun.renderer.placed feature
      rcases hlabel.hangsAt with hkept | ⟨added, position, hhangs, hpushed⟩
      · rw [hplaced.trans hkept] at hbox
        exact ih hbox
      · have hnext := hplaced.trans hpushed
        rw [hnext] at hbox
        rcases List.mem_append.mp hbox with hold | hnew
        · exact ih hold
        · obtain rfl := List.mem_singleton.mp hnew
          exact ⟨count, feature, position, hfeature, hnext, _, hcalls, hhangs⟩

/-- Each box that a pass leaves behind is placed for one of its features. -/
theorem exists_placedFor
    (hbox : box ∈ (renderer.drawPass canvas frame features).renderer.placed.boxes) :
    ∃ index feature position,
      renderer.PlacedFor canvas frame features box index feature position := by
  cases hresult : (renderer.drawPass canvas frame features).result with
  | error fault =>
    rw [← drawPass_of_error hresult [], placed_drawPass_nil] at hbox
    cases hbox
  | ok outcomes =>
    rw [← List.take_length (l := features)] at hbox
    exact exists_placedFor_take hresult hbox

end Placing

/-- The boxes of a pass are proper, and their corners are the points where their texts are drawn.
Assumes: the options are valid. -/
theorem PlacedFor.proper {renderer : Renderer Float} {canvas : Canvas Float} {frame : Frame Float}
    {features : List (Feature Float)} {box : Rect Float} {index : Nat} {feature : Feature Float}
    {position : Point Float} (hvalid : renderer.options.validate = .ok ())
    (hplaced : renderer.PlacedFor canvas frame features box index feature position) :
    box.IsProper ∧ (box.min.x == position.x) = true ∧ (box.min.y == position.y) = true := by
  obtain ⟨-, -, made, -, hhangs⟩ := hplaced
  obtain ⟨anchor, width, hanchor, husable, rfl, rfl⟩ := hhangs.asked
  have hoffset := LabelOptions.isFinite_offset hvalid
  have hfinite : anchor.isFinite = true := (Option.filter_eq_some_iff.mp hanchor).2
  exact ⟨isProper_labelBox hfinite hoffset husable, labelBox_min hfinite hoffset husable⟩

/-- Boxes that meet overlap. Assumes: the options are valid. However wide the canvas measures its
texts, and whatever it refuses, the boxes that are placed after a pass are proper rectangles: their
corners are numbers and in order. Two of them meet if and only if they have a point in common, so it
does not matter which one is asked about the other. Each meets itself, and where collisions are
avoided, a label that asks for the same box once more is left out. Each box was placed for a
feature, and its corner is the point where the text is drawn, the feature's anchor moved by the
offset. -/
theorem boxes_of_drawPass (renderer : Renderer Float) (hvalid : renderer.options.validate = .ok ())
    (canvas : Canvas Float) (frame : Frame Float) (features : List (Feature Float)) :
    let options := renderer.options
    let placed := (renderer.drawPass canvas frame features).renderer.placed
    (∀ box ∈ placed.boxes, box.IsProper ∧ box.meets box = true) ∧
      (∀ box ∈ placed.boxes, ∀ other ∈ placed.boxes,
        (box.meets other = true ↔
          ∃ point, box.contains point = true ∧ other.contains point = true) ∧
        box.meets other = other.meets box) ∧
      (options.collision = true → ∀ box ∈ placed.boxes, ∀ later feature,
        LabelledMap.askedBox? later options feature = some box →
          let attempt := drawLabel later options placed feature
          (∃ index, attempt.outcome = .collided index) ∧ attempt.placed = placed) ∧
      ∀ box ∈ placed.boxes, ∃ index feature position,
        renderer.PlacedFor canvas frame features box index feature position ∧
          (box.min.x == position.x) = true ∧ (box.min.y == position.y) = true := by
  intro options placed
  have hproper : ∀ box ∈ placed.boxes, box.IsProper := by
    intro box hbox
    obtain ⟨index, feature, position, hplaced⟩ := exists_placedFor hbox
    exact (hplaced.proper hvalid).1
  refine ⟨fun box hbox ↦ ⟨hproper box hbox, Rect.meets_self (hproper box hbox)⟩,
    fun box hbox other hother ↦
      ⟨Rect.meets_iff (hproper box hbox) (hproper other hother), Rect.meets_comm box other⟩,
    fun havoid box hbox later feature hasked ↦ ?_, fun box hbox ↦ ?_⟩
  · have hstep := labelStep_drawLabel later options placed feature
    rw [hasked, havoid] at hstep
    obtain ⟨index, houtcome, hkept⟩ :=
      hstep.collided_of_mem hbox (Rect.meets_self (hproper box hbox))
    exact ⟨⟨index, houtcome⟩, hkept⟩
  · obtain ⟨index, feature, position, hplaced⟩ := exists_placedFor hbox
    exact ⟨index, feature, position, hplaced, (hplaced.proper hvalid).2⟩

/-- A label at the end of the plane is so wide that its box has no end, and the box is proper all
the same. A label that is offered once more is left out. -/
theorem boxes_of_drawPass_endless :
    let renderer : Renderer Float := .new .standard 32
    let canvas : Canvas Float := .monospaced 3e307 [] []
    let frame : Frame Float := .padded ⟨0, 0⟩ ⟨200, 100⟩ 0.1 ⟨-22.68, 118.35⟩ 7
    let perth : Feature Float := .labelledCircle 1 ⟨0, 0⟩ "Perth"
    let placed := (renderer.drawPass canvas frame
      [perth, .labelledCircle 2 ⟨1.7e308, 50⟩ "Perth"]).renderer.placed
    renderer.options.validate = .ok () ∧
      placed.boxes.map (fun box ↦ (box.max.x.isInf, box.max.y)) = [(false, 25), (true, 75)] ∧
      (∀ box ∈ placed.boxes, box.IsProper ∧ box.meets box = true) ∧
      ∃ index, (drawLabel canvas renderer.options placed perth).outcome = .collided index := by
  intro renderer canvas frame perth placed
  have hvalid : renderer.options.validate = .ok () := LabelOptions.validate_standard
  obtain ⟨hproper, -, hagain, -⟩ := boxes_of_drawPass renderer hvalid canvas frame
    [perth, .labelledCircle 2 ⟨1.7e308, 50⟩ "Perth"]
  have hasked : LabelledMap.askedBox? canvas renderer.options perth = placed.boxes[0]? := by
    decide +kernel
  have hsome : placed.boxes[0]?.isSome = true := by decide +kernel
  obtain ⟨box, hbox⟩ := Option.isSome_iff_exists.mp hsome
  exact ⟨hvalid, by decide +kernel, hproper,
    (hagain rfl box (List.mem_of_getElem? hbox) canvas perth (hasked.trans hbox)).1⟩

end Renderer

end LabelledMap
