import LabelledMap.Proofs.Label.Step
import LabelledMap.Proofs.Surface.Pen

/-!
# The calls made for one label

However far a label gets, the calls made for it are the beginning of one list, `labelCalls`: it is
measured, outlined and filled, and each of these is set up before it. `LabelCalls` lists how far it
can get, and `labelCalls_drawLabel` says that drawing a label is always one of the three.

Everything that measuring and drawing a text look at is set in the list before they do, so what a
label finds in the context makes no difference (`LabelCalls.serves`). A text that is filled comes
right after the line around it, which was not refused (`LabelCalls.exists_of_fillText`). It is to be
seen just if the label counts as drawn (`LabelCalls.filled_eq`).
-/

set_option autoImplicit false

namespace LabelledMap

variable {α : Type} [Scalar α]

/-! ### How far a label gets -/

/-- The calls that measure a text. -/
def measuringCalls (options : LabelOptions α) (text : String) : List (CanvasCall α) :=
  measuringSetup options ++ [.measure text]

/-- The calls that measure a text and draw it. -/
def labelCalls (options : LabelOptions α) (color text : String) (position : Point α) :
    List (CanvasCall α) :=
  measuringCalls options text ++ textCalls options color text position

/-- The colour of a feature's label. -/
def Feature.labelColor (options : LabelOptions α) (feature : Feature α) : String :=
  feature.textColor.getD options.textColor

/-- How far a label gets on a canvas: it is not measured at all, it is measured only, or it is given
a box and drawn up to the first call that is refused. -/
inductive LabelCalls (canvas : Canvas α) (options : LabelOptions α) (placed : PlacedLabels α)
    (feature : Feature α) : LabelAttempt α → Prop
  | silent {outcome : LabelOutcome α} (hdrawn : outcome.isDrawn = false) :
    LabelCalls canvas options placed feature ⟨[], outcome, placed⟩
  | measured {text : String} {outcome : LabelOutcome α} (htext : feature.labelText? = some text)
    (hdrawn : outcome.isDrawn = false) :
    LabelCalls canvas options placed feature ⟨measuringCalls options text, outcome, placed⟩
  | offered {text : String} {anchor : Point α} {width : α} {made : List (CanvasCall α)}
    {refused : Option (Refusal α)} {outcome : LabelOutcome α}
    (htext : feature.labelText? = some text) (hanchor : feature.anchor? = some anchor)
    (husable : usableWidth width = true)
    (hmade : (canvas.after (measuringCalls options text)).perform
      (textCalls options (feature.labelColor options) text (anchor + options.offset)) =
        (made, refused))
    (hdrawn : outcome.isDrawn = refused.isNone) :
    LabelCalls canvas options placed feature
      ⟨measuringCalls options text ++ made, outcome,
        placed.push (labelBox anchor options.offset width)⟩

/-- Drawing a label gets that far. -/
theorem labelCalls_drawLabel (canvas : Canvas α) (options : LabelOptions α)
    (placed : PlacedLabels α) (feature : Feature α) :
    LabelCalls canvas options placed feature (drawLabel canvas options placed feature) := by
  unfold drawLabel
  cases htext : feature.labelText? with
  | none => exact .silent rfl
  | some text =>
    cases hanchor : feature.anchor? with
    | none => exact .silent rfl
    | some anchor =>
      dsimp only
      cases canvas.measure (measuringSetup options) text with
      | error refusal => exact .measured htext rfl
      | ok width =>
        dsimp only
        split_ifs with husable
        · cases placed.offer (labelBox anchor options.offset width) options.collision with
          | collided index => exact .measured htext rfl
          | placed =>
            cases hmade : (canvas.after (measuringCalls options text)).perform
              (textCalls options (feature.labelColor options) text (anchor + options.offset)) with
            | mk made refused =>
              have hperformed : (canvas.after (measuringSetup options ++ [.measure text])).perform
                  (textCalls options (feature.textColor.getD options.textColor) text
                    (anchor + options.offset)) = (made, refused) := hmade
              dsimp only
              rw [hperformed]
              exact .offered htext hanchor husable hmade (by cases refused <;> rfl)
        · exact .measured htext rfl

variable {canvas : Canvas α} {options : LabelOptions α} {placed : PlacedLabels α}
  {feature : Feature α} {attempt : LabelAttempt α}

/-- All that is called for a label is the beginning of one list. -/
theorem LabelCalls.exists_begun (hcalls : LabelCalls canvas options placed feature attempt) :
    ∃ text position,
      attempt.calls <+: labelCalls options (feature.labelColor options) text position := by
  cases hcalls with
  | silent => exact ⟨"", options.offset, List.nil_prefix⟩
  | @measured text => exact ⟨text, options.offset, List.prefix_append _ _⟩
  | @offered text anchor width made refused outcome htext hanchor husable hmade =>
    have hfirst := (canvas.after (measuringCalls options text)).refusals.attempt_fst_prefix
      (textCalls options (feature.labelColor options) text (anchor + options.offset))
    have hmade : made = _ := (congrArg Prod.fst hmade).symm
    rw [hmade]
    exact ⟨text, _, (List.prefix_append_right_inj _).mpr hfirst⟩

/-! ### The pen -/

/-- What measuring and drawing a text ask of the pen, if the text has a given colour. -/
def Pen.Serves (options : LabelOptions α) (color : String) (pen : Pen α) : CanvasCall α → Prop
  | .measure _ => pen.font = options.font
  | .strokeText _ _ =>
    pen.font = options.font ∧ pen.opacity = 1 ∧ pen.lineWidth = options.textBorderWeight ∧
      pen.strokeStyle = options.textBorderColor
  | .fillText _ _ =>
    pen.font = options.font ∧ pen.opacity = 1 ∧ pen.lineWidth = options.textWeight ∧
      pen.fillStyle = color
  | _ => True

/-- A beginning of a list ends at one of its entries. -/
theorem eq_take_of_prefix {β : Type} {before whole : List β} {entry : β}
    (hbegins : before ++ [entry] <+: whole) :
    before = whole.take before.length ∧ whole[before.length]? = some entry := by
  obtain ⟨later, rfl⟩ := hbegins
  simp

/-- The pen serves each call made for a label, whatever it has been before. -/
theorem Pen.serves_of_prefix {color text : String} {position : Point α}
    {before : List (CanvasCall α)} {call : CanvasCall α}
    (hbegins : before ++ [call] <+: labelCalls options color text position) (pen : Pen α) :
    (pen.afterAll before).Serves options color call := by
  obtain ⟨hbefore, hcall⟩ := eq_take_of_prefix hbegins
  rw [hbefore]
  generalize before.length = count at hcall
  -- Only three of the nine calls look at the pen.
  match count, hcall with
  | 0, hcall | 1, hcall | 3, hcall | 4, hcall | 6, hcall | 7, hcall =>
    obtain rfl := Option.some.inj hcall
    trivial
  | 2, hcall =>
    obtain rfl := Option.some.inj hcall
    rfl
  | 5, hcall | 8, hcall =>
    obtain rfl := Option.some.inj hcall
    exact ⟨rfl, rfl, rfl, rfl⟩
  | count + 9, hcall => cases hcall

/-- The pen serves each call that is made for a label. -/
theorem LabelCalls.serves {before : List (CanvasCall α)} {call : CanvasCall α}
    (hcalls : LabelCalls canvas options placed feature attempt)
    (hbegins : before ++ [call] <+: attempt.calls) (pen : Pen α) :
    (pen.afterAll before).Serves options (feature.labelColor options) call := by
  obtain ⟨text, position, hbegun⟩ := hcalls.exists_begun
  exact Pen.serves_of_prefix (hbegins.trans hbegun) pen

/-! ### The text -/

/-- A text that is filled for a label is the feature's, at the corner of the box that the label was
given, and the line around it has been drawn just before without a refusal. -/
theorem LabelCalls.exists_of_fillText {before : List (CanvasCall α)} {text : String}
    {position : Point α} (hcalls : LabelCalls canvas options placed feature attempt)
    (hbegins : before ++ [.fillText text position] <+: attempt.calls) :
    feature.labelText? = some text ∧
      (∃ anchor width, feature.anchor? = some anchor ∧ usableWidth width = true ∧
        position = anchor + options.offset ∧
        attempt.placed = placed.push (labelBox anchor options.offset width)) ∧
      ∃ earlier between, before = earlier ++ .strokeText text position :: between ∧
        (∀ call ∈ between, call.textPoint? = none) ∧
        canvas.refusals earlier (.strokeText text position) = none := by
  cases hcalls with
  | silent => simp at hbegins
  | measured =>
    have hmem := hbegins.subset (List.mem_append_right before List.mem_cons_self)
    simp [measuringCalls, measuringSetup] at hmem
  | @offered written anchor width made refused outcome htext hanchor husable hmade hdrawn =>
    have hfirst := congrArg Prod.fst hmade
    have hbegun : made <+: _ := hfirst ▸ Refusals.attempt_fst_prefix _ _
    obtain ⟨hbefore, hcall⟩ := eq_take_of_prefix
      (hbegins.trans ((List.prefix_append_right_inj (measuringCalls options written)).mpr hbegun))
    have hlength : before.length + 1 ≤ 3 + made.length := by
      simpa [measuringCalls, measuringSetup, Nat.add_comm, Nat.add_left_comm] using
        hbegins.length_le
    generalize before.length = count at hbefore hcall hlength
    match count, hcall with
    | 8, hcall =>
      obtain ⟨rfl, rfl⟩ := CanvasCall.fillText.inj (Option.some.inj hcall).symm
      -- The text is filled last, so all calls before have been made.
      have hall : made = _ := hbegun.eq_of_length_le (by simp [textCalls]; omega)
      have haccepted : canvas.refusals.after (measuringCalls options text)
          [.lineWidth options.textBorderWeight, .strokeStyle options.textBorderColor]
          (.strokeText text (anchor + options.offset)) = none :=
        Refusals.eq_none_of_attempt (hfirst.trans hall) (List.cons_ne_nil _ _)
      refine ⟨htext, ⟨anchor, width, hanchor, husable, rfl, rfl⟩,
        measuringCalls options text ++ _,
        [.fillStyle (feature.labelColor options), .lineWidth options.textWeight], hbefore, ?_,
        haccepted⟩
      simp [CanvasCall.textPoint?]
    | count + 9, hcall => cases hcall

omit [Scalar α] in
/-- Of the calls that draw a text the last one fills it, so nothing is filled if one is refused. -/
theorem Canvas.filled_of_perform {color text : String} {position : Point α}
    {made : List (CanvasCall α)} {refused : Option (Refusal α)}
    (hmade : canvas.perform (textCalls options color text position) = (made, refused)) :
    canvas.filled made = if refused.isNone then [text] else [] := by
  have hfirst := congrArg Prod.fst hmade
  cases refused with
  | none =>
    have hall : textCalls options color text position = made :=
      (Refusals.attempt_fst_of_none (congrArg Prod.snd hmade)).symm.trans hfirst
    have haccepted := Refusals.accepted_of_attempt (congrArg Prod.snd hmade)
    rw [← hall, filled, haccepted]
    rfl
  | some refusal =>
    have hbegun : made <+: _ := hfirst ▸ Refusals.attempt_fst_prefix _ _
    have hmost : made.dropLast <+: _ :=
      List.prefix_take_iff.mpr ⟨(List.dropLast_prefix made).trans hbegun, by
        simpa [textCalls] using hbegun.length_le⟩
    have hunfilled : ∀ call ∈ made.dropLast, call.filled? = none := by
      intro call hcall
      have hcall := hmost.subset hcall
      simp only [textCalls, List.take, List.mem_cons, List.not_mem_nil, or_false] at hcall
      rcases hcall with rfl | rfl | rfl | rfl | rfl <;> rfl
    have haccepted : canvas.refusals.accepted made = made.dropLast := by
      have hrefused := Refusals.accepted_of_refused (congrArg Prod.snd hmade)
      rwa [show (canvas.refusals.attempt _).1 = made from hfirst] at hrefused
    rw [filled, haccepted]
    exact List.filterMap_eq_nil_iff.mpr hunfilled

/-- The text of a feature is to be seen just if its label counts as drawn. -/
theorem LabelCalls.filled_eq (hcalls : LabelCalls canvas options placed feature attempt) :
    (canvas.filled attempt.calls).map some =
      if attempt.outcome.isDrawn then [feature.labelText?] else [] := by
  have hmeasuring : ∀ text, canvas.filled (measuringCalls options text) = [] := fun text ↦
    Canvas.filled_eq_nil (by simp [measuringCalls, measuringSetup, CanvasCall.filled?])
  cases hcalls with
  | silent hdrawn =>
    rw [hdrawn]
    rfl
  | measured htext hdrawn =>
    rw [hmeasuring, hdrawn]
    rfl
  | offered htext hanchor husable hmade hdrawn =>
    rw [Canvas.filled_append, hmeasuring, Canvas.filled_of_perform hmade, hdrawn, htext,
      List.nil_append]
    split_ifs
    · rfl
    · rfl

end LabelledMap
