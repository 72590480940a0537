import LabelledMap.Proofs.Label.Calls
import LabelledMap.Proofs.Pass.Steps
import LabelledMap.Proofs.Scalar.Sums

/-!
# The pen along a pass

One context draws all labels of a pass, and a label may be given up after any call that can fail, so
each label finds the pen as some other label has left it. It makes no difference
(`Renderer.pens_of_drawPass`): a text is measured, outlined and filled with the pen that the options
and its own feature ask for, at every call, for every list of features and however the canvas
answers. What is filled is outlined before at the same point, which is the corner of the box that
was reserved for it, and the texts that are to be seen are those counted as drawn.

A call of a pass is made for one feature (`Renderer.MadeFor`): the calls for the features before it
are over, and it is one of the calls up to this feature. From there on it is a matter of a single
label, which is drawn by the calls of `LabelCalls`. That boxes begin at the points where their texts
are drawn is a matter of rounded sums (`Double.lesser_add`).
-/

set_option autoImplicit false

namespace LabelledMap

variable {α : Type} [Scalar α]

/-! ### Whom a call is made for -/

/-- What is added to growing lists is added in one of the steps. -/
theorem exists_step_of_prefix {β : Type} {chain : Nat → List β}
    (hgrows : ∀ count, chain count <+: chain (count + 1)) {before : List β} {entry : β}
    (hfirst : ¬before ++ [entry] <+: chain 0) {count : Nat}
    (hbegins : before ++ [entry] <+: chain count) :
    ∃ index < count, chain index <+: before ∧ before ++ [entry] <+: chain (index + 1) := by
  induction count with
  | zero => exact absurd hbegins hfirst
  | succ count ih =>
    rcases List.prefix_or_prefix_of_prefix hbegins (hgrows count) with hearlier | hlater
    · obtain ⟨index, hindex, hstep⟩ := ih hearlier
      exact ⟨index, hindex.trans (Nat.lt_succ_self count), hstep⟩
    · rcases List.prefix_concat_iff.mp hlater with heq | hbegun
      · obtain ⟨index, hindex, hstep⟩ := ih (heq ▸ List.prefix_refl _)
        exact ⟨index, hindex.trans (Nat.lt_succ_self count), hstep⟩
      · exact ⟨count, Nat.lt_succ_self count, hbegun, hbegins⟩

namespace Renderer

variable {renderer : Renderer α} {canvas : Canvas α} {frame : Frame α}
  {features : List (Feature α)} {outcomes : List (LabelOutcome α)}

/-- A call that comes after certain others in a pass is made for the feature with a given index. -/
structure MadeFor (renderer : Renderer α) (canvas : Canvas α) (frame : Frame α)
    (features : List (Feature α)) (index : Nat) (before : List (CanvasCall α))
    (call : CanvasCall α) : Prop where
  /-- All calls for the features before have been made. -/
  begun : (renderer.drawPass canvas frame (features.take index)).calls <+: before
  /-- The call is one of the pass that ends with the feature. -/
  made : before ++ [call] <+: (renderer.drawPass canvas frame (features.take (index + 1))).calls

/-- A feature adds the calls for its label to those of a pass, and the boxes that its label places.
-/
theorem drawPass_succ
    (hresult : (renderer.drawPass canvas frame features).result = .ok outcomes) {index : Nat}
    {feature : Feature α} (hfeature : features[index]? = some feature) :
    let begun := renderer.drawPass canvas frame (features.take index)
    let attempt :=
      drawLabel (canvas.after begun.calls) renderer.options begun.renderer.placed feature
    let next := renderer.drawPass canvas frame (features.take (index + 1))
    next.calls = begun.calls ++ attempt.calls ∧ next.renderer.placed = attempt.placed := by
  intro begun attempt next
  have htake : features.take (index + 1) = features.take index ++ [feature] := by
    rw [List.take_add_one, hfeature]
    rfl
  have hbegun := drawPass_take hresult index
  unfold next
  rw [htake]
  refine ⟨?_, (drawPass_concat hbegun feature).2⟩
  rw [drawPass_append hbegun]
  simp only [drawFeatures, attemptLabel, addTarget, options_drawPass, List.append_nil]
  rfl

/-- Without features the context is prepared and nothing else is called. -/
theorem calls_drawPass_nil_begun (renderer : Renderer α) (canvas : Canvas α) (frame : Frame α) :
    (renderer.drawPass canvas frame []).calls <+: contextSetup (renderer.layoutFor frame) := by
  have hbegun := canvas.refusals.attempt_fst_prefix (contextSetup (renderer.layoutFor frame))
  unfold drawPass
  cases hsetup : (canvas.perform (contextSetup (renderer.layoutFor frame))).2 with
  | some refusal =>
    rw [drawLabels_of_refused hsetup]
    exact hbegun
  | none =>
    rw [drawLabels_of_accepted hsetup]
    change contextSetup _ ++ [] <+: _
    rw [List.append_nil]

/-- Calls that do not move the context are made for one feature, as calls for its label. -/
theorem exists_madeFor {before later : List (CanvasCall α)} {call : CanvasCall α}
    (hcalls : (renderer.drawPass canvas frame features).calls = before ++ call :: later)
    (hcall : call.movesContext = false) :
    ∃ index feature attempt made,
      let begun := renderer.drawPass canvas frame (features.take index)
      features[index]? = some feature ∧
        renderer.MadeFor canvas frame features index before call ∧
        LabelCalls (canvas.after begun.calls) renderer.options begun.renderer.placed feature
          attempt ∧
        (renderer.drawPass canvas frame (features.take (index + 1))).renderer.placed =
          attempt.placed ∧
        before = begun.calls ++ made ∧ made ++ [call] <+: attempt.calls := by
  have hbegins : before ++ [call] <+: (renderer.drawPass canvas frame features).calls :=
    ⟨later, by rw [hcalls]; simp⟩
  have hsetup : ¬before ++ [call] <+: (renderer.drawPass canvas frame []).calls := by
    intro hmade
    have hmem := (calls_drawPass_nil_begun renderer canvas frame).subset
      (hmade.subset (List.mem_append_right before List.mem_cons_self))
    rw [movesContext_contextSetup _ hmem] at hcall
    cases hcall
  cases hresult : (renderer.drawPass canvas frame features).result with
  | error fault =>
    rw [← drawPass_of_error hresult []] at hbegins
    exact absurd hbegins hsetup
  | ok outcomes =>
    have hgrows : ∀ count, (renderer.drawPass canvas frame (features.take count)).calls <+:
        (renderer.drawPass canvas frame (features.take (count + 1))).calls := by
      intro count
      cases hfeature : features[count]? with
      | none =>
        have hlength := List.getElem?_eq_none_iff.mp hfeature
        rw [List.take_of_length_le hlength, List.take_of_length_le (by omega)]
      | some feature =>
        rw [(drawPass_succ hresult hfeature).1]
        exact List.prefix_append _ _
    rw [← List.take_length (l := features)] at hbegins
    obtain ⟨index, hindex, hbegun, hmade⟩ := exists_step_of_prefix hgrows hsetup hbegins
    have hfeature := List.getElem?_eq_getElem hindex
    obtain ⟨hnext, hplaced⟩ := drawPass_succ hresult hfeature
    have hfor : renderer.MadeFor canvas frame features index before call := ⟨hbegun, hmade⟩
    obtain ⟨made, rfl⟩ := hbegun
    rw [hnext, List.append_assoc] at hmade
    exact ⟨index, _, _, made, hfeature, hfor, labelCalls_drawLabel _ _ _ _, hplaced, rfl,
      (List.prefix_append_right_inj _).mp hmade⟩

/-! ### What is drawn -/

/-- The texts to be seen are those of the features whose labels count as drawn. -/
theorem filled_drawFeatures (renderer : Renderer α) (canvas : Canvas α)
    (features : List (Feature α)) :
    let drawing := renderer.drawFeatures canvas features
    (canvas.filled drawing.1).map some =
      ((features.zip drawing.2.1).filter (·.2.isDrawn)).map (·.1.labelText?) := by
  induction features generalizing renderer canvas with
  | nil => rfl
  | cons feature rest ih =>
    let targeted := renderer.addTarget feature
    let attempt := targeted.attemptLabel canvas feature
    have hfirst : (canvas.filled attempt.calls).map some =
        if attempt.outcome.isDrawn then [feature.labelText?] else [] :=
      (labelCalls_drawLabel canvas targeted.options targeted.placed feature).filled_eq
    have hrest := ih (targeted.afterAttempt attempt) (canvas.after attempt.calls)
    dsimp only at hrest ⊢
    rw [drawFeatures_cons]
    dsimp only
    rw [Canvas.filled_append, List.map_append, hfirst, hrest, List.zip_cons_cons,
      List.filter_cons]
    split_ifs
    · rfl
    · rfl

/-- What was counted of the labels adds up to the features counted. -/
def Balanced (counts : PassCounts) : Prop :=
  counts.features = counts.drawn + counts.collided + counts.unlabelled + counts.failed

theorem balanced_drawFeatures {renderer : Renderer α} (hbalanced : Balanced renderer.counts)
    (canvas : Canvas α) (features : List (Feature α)) :
    Balanced (renderer.drawFeatures canvas features).2.2.counts := by
  induction features generalizing renderer canvas with
  | nil => exact hbalanced
  | cons feature rest ih =>
    rw [drawFeatures_cons]
    refine ih ?_ _
    unfold Balanced at hbalanced ⊢
    unfold afterAttempt addTarget PassCounts.add
    dsimp only
    split <;> dsimp only <;> omega

/-- A pass counts what it draws. -/
theorem counts_drawPass (renderer : Renderer α) (canvas : Canvas α) (frame : Frame α)
    (features : List (Feature α)) :
    let pass := renderer.drawPass canvas frame features
    let drawn := (features.zip (pass.result.toOption.getD [])).filter (·.2.isDrawn)
    (canvas.filled pass.calls).map some = drawn.map (·.1.labelText?) ∧
      pass.renderer.counts.drawn = (canvas.filled pass.calls).length ∧
      Balanced pass.renderer.counts := by
  have hunfilled : ∀ calls, calls <+: contextSetup (renderer.layoutFor frame) →
      canvas.filled calls = [] := fun calls hcalls ↦ Canvas.filled_eq_nil fun call hcall ↦
    CanvasCall.filled?_of_movesContext (movesContext_contextSetup _ (hcalls.subset hcall))
  intro pass drawn
  unfold drawn pass drawPass
  cases hsetup : (canvas.perform (contextSetup (renderer.layoutFor frame))).2 with
  | some refusal =>
    have hnone := hunfilled _ (canvas.refusals.attempt_fst_prefix _)
    rw [drawLabels_of_refused hsetup]
    dsimp only [Except.toOption, Option.getD]
    rw [List.zip_nil_right]
    exact ⟨congrArg (List.map some) hnone, (congrArg List.length hnone).symm, rfl⟩
  | none =>
    let begun := renderer.beginPass frame
    let prepared := canvas.after (contextSetup (renderer.layoutFor frame))
    have hnone := hunfilled _ (List.prefix_refl _)
    have hfilled := filled_drawFeatures begun prepared features
    rw [drawLabels_of_accepted hsetup]
    dsimp only [Except.toOption, Option.getD] at hfilled ⊢
    rw [Canvas.filled_append, hnone, List.nil_append]
    have hbegun : Balanced begun.counts := rfl
    refine ⟨hfilled, ?_, balanced_drawFeatures hbegun prepared features⟩
    have hlength := length_drawFeatures begun prepared features
    have hcount : ((features.zip (begun.drawFeatures prepared features).2.1).map
        Prod.snd).countP (·.isDrawn) = (begun.drawFeatures prepared features).2.1.countP
          (·.isDrawn) := by rw [List.map_snd_zip (Nat.le_of_eq hlength)]
    rw [drawn_drawFeatures, ← List.length_map some, hfilled, List.length_map,
      ← List.countP_eq_length_filter, ← hcount, List.countP_map]
    exact Nat.zero_add _

end Renderer

/-! ### The corner of the box -/

theorem LabelOptions.isFinite_offset {options : LabelOptions α}
    (hvalid : options.validate = .ok ()) : options.offset.isFinite = true := by
  unfold validate at hvalid
  cases hfinite : options.offset.isFinite with
  | true => rfl
  | false =>
    rw [hfinite] at hvalid
    cases hvalid

theorem LabelOptions.validate_standard : (standard : LabelOptions Float).validate = .ok () := by
  rfl

/-- The corner of a box is the point it starts from, though its width is added with rounding. -/
theorem labelBox_min {anchor offset : Point Float} {width : Float}
    (hanchor : anchor.isFinite = true) (hoffset : offset.isFinite = true)
    (husable : usableWidth width = true) :
    ((labelBox anchor offset width).min.x == (anchor + offset).x) = true ∧
      ((labelBox anchor offset width).min.y == (anchor + offset).y) = true := by
  obtain ⟨hanchorX, hanchorY⟩ := Bool.and_eq_true_iff.mp hanchor
  obtain ⟨hoffsetX, hoffsetY⟩ := Bool.and_eq_true_iff.mp hoffset
  obtain ⟨hfinite, hsign⟩ := Bool.and_eq_true_iff.mp husable
  have hsign : ¬width < 0 := by simpa using hsign
  exact ⟨Double.lesser_add (Double.add_beq_self hanchorX hoffsetX) hfinite hsign,
    Double.lesser_add (Double.add_beq_self hanchorY hoffsetY) (by decide +kernel)
      (by decide +kernel)⟩

/-! ### The law of a pass -/

/-- No label finds what another one has left in the context. Assumes: the options are valid. The pen
has any settings before the pass, and the canvas refuses what it likes. Texts are measured in the
font of the options; they are outlined in this font with full opacity, and with the width and the
colour of the border; and they are filled in this font with full opacity, with the width of the text
and the colour of the feature that the call is made for. A text that is filled is that feature's.
The last text drawn before it is the same one, outlined at the same point and not refused, and the
feature was given a box with its corner there. The texts that are seen are those of the features
whose labels count as drawn, in their order, and all features are counted once. -/
theorem Renderer.pens_of_drawPass (renderer : Renderer Float)
    (hvalid : renderer.options.validate = .ok ()) (canvas : Canvas Float) (frame : Frame Float)
    (features : List (Feature Float)) (initial : Pen Float) :
    let options := renderer.options
    let pass := fun list ↦ renderer.drawPass canvas frame list
    let calls := (pass features).calls
    let counts := (pass features).renderer.counts
    let outcomes := (pass features).result.toOption.getD []
    (∀ before text later, calls = before ++ .measure text :: later →
      (initial.afterAll before).font = options.font) ∧
    (∀ before text position later, calls = before ++ .strokeText text position :: later →
      let pen := initial.afterAll before
      pen.font = options.font ∧ pen.opacity = 1 ∧ pen.lineWidth = options.textBorderWeight ∧
        pen.strokeStyle = options.textBorderColor) ∧
    (∀ before text position later, calls = before ++ .fillText text position :: later →
      let pen := initial.afterAll before
      ∃ index feature, features[index]? = some feature ∧
        renderer.MadeFor canvas frame features index before (.fillText text position) ∧
        feature.labelText? = some text ∧
        pen.font = options.font ∧ pen.opacity = 1 ∧ pen.lineWidth = options.textWeight ∧
        pen.fillStyle = feature.textColor.getD options.textColor ∧
        (∃ earlier between, before = earlier ++ .strokeText text position :: between ∧
          (∀ call ∈ between, call.textPoint? = none) ∧
          canvas.refusals earlier (.strokeText text position) = none) ∧
        ∃ box, (pass (features.take (index + 1))).renderer.placed =
            (pass (features.take index)).renderer.placed.push box ∧
          (box.min.x == position.x) = true ∧ (box.min.y == position.y) = true) ∧
    (canvas.filled calls).map some =
      ((features.zip outcomes).filter (·.2.isDrawn)).map (·.1.labelText?) ∧
    counts.drawn = (canvas.filled calls).length ∧
    counts.features = counts.drawn + counts.collided + counts.unlabelled + counts.failed := by
  intro options pass calls counts outcomes
  refine ⟨fun before text later hcalls ↦ ?_, fun before text position later hcalls ↦ ?_,
    fun before text position later hcalls ↦ ?_, counts_drawPass renderer canvas frame features⟩
  · obtain ⟨index, feature, attempt, made, -, -, hlabel, -, rfl, hbegins⟩ :=
      exists_madeFor hcalls rfl
    rw [Pen.afterAll_append]
    exact hlabel.serves hbegins _
  · obtain ⟨index, feature, attempt, made, -, -, hlabel, -, rfl, hbegins⟩ :=
      exists_madeFor hcalls rfl
    rw [Pen.afterAll_append]
    exact hlabel.serves hbegins _
  · obtain ⟨index, feature, attempt, made, hfeature, hfor, hlabel, hplaced, rfl, hbegins⟩ :=
      exists_madeFor hcalls rfl
    rw [Pen.afterAll_append]
    obtain ⟨hfont, hopacity, hwidth, hcolor⟩ := hlabel.serves hbegins
      (initial.afterAll (pass (features.take index)).calls)
    obtain ⟨htext, ⟨anchor, width, hanchor, husable, rfl, hbox⟩, earlier, between, rfl, hbetween,
      haccepted⟩ := hlabel.exists_of_fillText hbegins
    have hfinite : anchor.isFinite = true := (Option.filter_eq_some_iff.mp hanchor).2
    refine ⟨index, feature, hfeature, hfor, htext, hfont, hopacity, hwidth, hcolor,
      ⟨(pass (features.take index)).calls ++ earlier, between,
        (List.append_assoc _ _ _).symm, hbetween, haccepted⟩,
      _, hplaced.trans hbox, labelBox_min hfinite (LabelOptions.isFinite_offset hvalid) husable⟩

/-- A label that is refused while it is filled leaves its own colour behind, and the one after it is
filled in the common colour all the same. -/
theorem pens_of_drawPass_refused :
    let renderer : Renderer Float := .new .standard 32
    let canvas : Canvas Float := .monospaced 7 ["Broome"] ["Perth"]
    let frame : Frame Float := .padded ⟨0, 0⟩ ⟨200, 100⟩ 0.1 ⟨-22.68, 118.35⟩ 7
    let features : List (Feature Float) :=
      [{ Feature.labelledCircle 1 ⟨0, 0⟩ "Perth" with textColor := some "red" },
        .labelledCircle 2 ⟨0, 50⟩ "Broome", .circle 3 ⟨9, 9⟩ 5,
        .labelledCircle 4 ⟨0, 90⟩ "Cossack"]
    let initial : Pen Float := ⟨"9px serif", 0.5, 7, "blue", "green"⟩
    let pass := renderer.drawPass canvas frame features
    renderer.options.validate = .ok () ∧
      pass.renderer.counts = { features := 4, drawn := 1, unlabelled := 1, failed := 2 } ∧
      canvas.filled pass.calls = ["Cossack"] ∧
      ∃ before position, pass.calls = before ++ [.fillText "Cossack" position] ∧
        (initial.afterAll before).fillStyle = "white" ∧
        ∃ earlier between, before = earlier ++ .strokeText "Cossack" position :: between := by
  intro renderer canvas frame features initial pass
  have hvalid : renderer.options.validate = .ok () := by
    have hok : renderer.options.validate.toBool = true := by decide +kernel
    cases hresult : renderer.options.validate with
    | ok => rfl
    | error fault =>
      rw [hresult] at hok
      cases hok
  have hlast : pass.calls.getLast?.bind CanvasCall.filled? = some "Cossack" := by decide +kernel
  refine ⟨hvalid, by decide +kernel, by decide +kernel, ?_⟩
  obtain ⟨call, hcall, hfills⟩ := Option.bind_eq_some_iff.mp hlast
  obtain ⟨before, hbefore⟩ := List.getLast?_eq_some_iff.mp hcall
  cases call with
  | fillText text position =>
    obtain rfl := Option.some.inj hfills
    obtain ⟨index, feature, hfeature, -, htext, -, -, -, hcolor, ⟨earlier, between, houtlined, -⟩,
      -⟩ := (Renderer.pens_of_drawPass renderer hvalid canvas frame features initial).2.2.1
        before "Cossack" position [] hbefore
    refine ⟨before, position, hbefore, ?_, earlier, between, houtlined⟩
    rw [hcolor]
    match index, hfeature with
    | 0, hfeature | 1, hfeature | 2, hfeature =>
      obtain rfl := Option.some.inj hfeature
      exact absurd htext (by decide +kernel)
    | 3, hfeature =>
      obtain rfl := Option.some.inj hfeature
      rfl
  | font | measure | alpha | lineWidth | strokeStyle | fillStyle | strokeText | scale | translate =>
    cases hfills

end LabelledMap
