import LabelledMap.Proofs.Label.Calls
import LabelledMap.Proofs.Layer.Runs
import LabelledMap.Proofs.Overlay.WholePixels

/-!
# Texts in their place

A text is drawn at a point of the layer. Where it is seen depends on the size of the element, on the
number of device pixels behind it, on its placement, and on the scale and displacement of its
context, all of which a pass sets one after the other. `Element.Prepared` says that they are set for
a layout. In exact arithmetic everything drawn on such an element is seen at the point it is drawn
at, if the number of device pixels is exact (`Element.Prepared.shownAt_eq`).

Any call may be refused, so a pass can end between any two of these settings. `Layer.setupCalls` are
the calls for them, and they leave the element prepared whatever it was before
(`Element.prepared_setup`): resizing makes the context forget what passes before have done to it.
A pass makes all of them before it draws (`Layer.drawPass_of_prepared`), or draws nothing
(`Layer.drawPass_of_unprepared`), and drawing does not move the context
(`Renderer.movesContext_drawFeatures`). So each text of a run is in its
place (`Layer.texts_in_place`). There are such texts: a pass draws its first label unless something
is refused (`Layer.fillText_mem_drawPass`).
-/

set_option autoImplicit false

namespace LabelledMap

variable {α : Type}

/-! ### Drawing -/

section Drawing

variable [Scalar α]

/-- Drawing a label leaves the context where it is. -/
theorem movesContext_drawLabel {canvas : Canvas α} {options : LabelOptions α}
    {placed : PlacedLabels α} {feature : Feature α} {call : CanvasCall α}
    (hcall : call ∈ (drawLabel canvas options placed feature).calls) :
    call.movesContext = false := by
  obtain ⟨text, position, hbegun⟩ :=
    (labelCalls_drawLabel canvas options placed feature).exists_begun
  have hmoves : ∀ made ∈ labelCalls options (feature.labelColor options) text position,
      made.movesContext = false := by
    simp [labelCalls, measuringCalls, measuringSetup, textCalls, CanvasCall.movesContext]
  exact hmoves call (hbegun.subset hcall)

/-- Drawing features leaves the context where it is. -/
theorem Renderer.movesContext_drawFeatures {renderer : Renderer α} {canvas : Canvas α}
    {features : List (Feature α)} {call : CanvasCall α}
    (hcall : call ∈ (renderer.drawFeatures canvas features).1) : call.movesContext = false := by
  induction features generalizing renderer canvas with
  | nil => exact absurd hcall List.not_mem_nil
  | cons feature rest ih =>
    rw [drawFeatures_cons] at hcall
    rcases List.mem_append.mp hcall with hfirst | hrest
    · exact movesContext_drawLabel hfirst
    · exact ih hrest

/-- A call that does not move the context leaves the element. -/
theorem Element.after_draw {call : CanvasCall α} (hcall : call.movesContext = false)
    (element : Element α) : element.after (.draw call) = element := by
  cases call with
  | scale | translate => cases hcall
  | font | measure | alpha | lineWidth | strokeStyle | fillStyle | strokeText | fillText => rfl

/-- Calls that do not move the context leave the element. -/
theorem Browser.elementAfter_map_draw {calls : List (CanvasCall α)}
    (hcalls : ∀ call ∈ calls, call.movesContext = false) (browser : Browser α)
    (element : Element α) : browser.elementAfter element (calls.map .draw) = element := by
  refine browser.elementAfter_keeps (fun shown ↦ shown) (fun call hcall shown ↦ ?_) element
  obtain ⟨drawing, hdrawing, rfl⟩ := List.mem_map.mp hcall
  exact Element.after_draw (hcalls drawing hdrawing) shown

end Drawing

/-! ### Preparing the element -/

namespace Layer

variable [Scalar α]

/-- The calls that prepare the element for a pass: those that lay it out, and those that move its
context. -/
def setupCalls (options : LabelOptions α) (layout : Layout α) : List (BrowserCall α) :=
  layoutCalls options layout ++ (Renderer.contextSetup layout).map .draw

/-- Preparing the element draws nothing: it moves the context at most. -/
theorem movesContext_of_mem_setupCalls {options : LabelOptions α} {layout : Layout α}
    {call : CanvasCall α} (hcall : .draw call ∈ setupCalls options layout) :
    call.movesContext = true := by
  rcases List.mem_append.mp hcall with hlaid | hmoved
  · simp [layoutCalls] at hlaid
  · obtain ⟨move, hmove, heq⟩ := List.mem_map.mp hmoved
    obtain rfl := BrowserCall.draw.inj heq
    exact Renderer.movesContext_contextSetup layout hmove

/-- A pass whose element can be prepared goes on to draw the features. -/
theorem drawPass_of_prepared {layer : Layer α} {browser : Browser α} {frame : Frame α}
    (haccepted : (browser.perform
      (setupCalls layer.renderer.options (layer.renderer.layoutFor frame))).2 = none)
    (features : List (Feature α)) :
    let layout := layer.renderer.layoutFor frame
    let setup := setupCalls layer.renderer.options layout
    let page := browser.after (layoutCalls layer.renderer.options layout)
    let drawing := (layer.renderer.beginPass frame).drawFeatures
      (page.canvas.after (Renderer.contextSetup layout)) features
    layer.drawPass browser frame features =
      ⟨setup ++ drawing.1.map .draw, .ok drawing.2.1, ⟨drawing.2.2⟩⟩ := by
  intro layout setup page drawing
  unfold setupCalls Browser.perform at haccepted
  cases hlaid : (browser.perform (layoutCalls layer.renderer.options layout)).2 with
  | some refusal =>
    rw [Refusals.attempt_append_of_refused hlaid] at haccepted
    exact absurd (hlaid.symm.trans haccepted) (Option.some_ne_none refusal)
  | none =>
    rw [Refusals.attempt_append_of_accepted hlaid] at haccepted
    have hmoved : (page.canvas.perform (Renderer.contextSetup layout)).2 = none :=
      (congrArg Prod.snd (page.perform_map_draw _)).symm.trans haccepted
    rw [drawPass_of_accepted hlaid]
    dsimp only
    rw [Renderer.drawLabels_of_accepted hmoved]
    simp only [List.map_append, ← List.append_assoc]
    rfl

/-- A pass whose element cannot be prepared has begun, and is ended by the refused call. -/
theorem drawPass_of_unprepared {layer : Layer α} {browser : Browser α} {frame : Frame α}
    {refusal : Refusal α}
    (hrefused : (browser.perform
      (setupCalls layer.renderer.options (layer.renderer.layoutFor frame))).2 = some refusal)
    (features : List (Feature α)) :
    layer.drawPass browser frame features =
      ⟨(browser.perform (setupCalls layer.renderer.options (layer.renderer.layoutFor frame))).1,
        .error (.refused refusal), ⟨layer.renderer.beginPass frame⟩⟩ := by
  let layout := layer.renderer.layoutFor frame
  let page := browser.after (layoutCalls layer.renderer.options layout)
  unfold setupCalls Browser.perform at hrefused ⊢
  cases hlaid : (browser.perform (layoutCalls layer.renderer.options layout)).2 with
  | some found =>
    rw [Refusals.attempt_append_of_refused hlaid] at hrefused ⊢
    exact drawPass_of_refused hrefused features
  | none =>
    rw [Refusals.attempt_append_of_accepted hlaid] at hrefused ⊢
    have hmoved := page.perform_map_draw (Renderer.contextSetup layout)
    have hmovedRefused : (page.canvas.perform (Renderer.contextSetup layout)).2 = some refusal :=
      (congrArg Prod.snd hmoved).symm.trans hrefused
    rw [drawPass_of_accepted hlaid]
    dsimp only
    rw [Renderer.drawLabels_of_refused hmovedRefused]
    exact congrArg (fun calls ↦ LayerReport.mk (_ ++ calls) _ _) (congrArg Prod.fst hmoved).symm

end Layer

namespace Element

/-- The element is laid out for a layout, and its context takes layer coordinates to the device
pixels where they belong. -/
structure Prepared (element : Element ℝ) (layout : Layout ℝ) : Prop where
  deviceWidth : element.deviceWidth = layout.deviceWidth
  deviceHeight : element.deviceHeight = layout.deviceHeight
  size : element.size = layout.size
  pivot : element.pivot = ⟨0, 0⟩
  placement : element.placement = .unscaled layout.position
  context : ∀ point, element.context point = layout.pixelRatio • (layout.origin + point)

/-- Preparing the element for a layout succeeds whatever has been done to it before. -/
theorem prepared_setup (options : LabelOptions ℝ) (layout : Layout ℝ) (element : Element ℝ) :
    ((Layer.setupCalls options layout).foldl after element).Prepared layout := by
  let laid := (Layer.layoutCalls options layout).foldl after element
  have hpivot : laid.pivot = ⟨0, 0⟩ := Point.ext Exact.zero_eq Exact.zero_eq
  unfold Layer.setupCalls
  rw [List.foldl_append]
  change (((Renderer.contextSetup layout).map .draw).foldl after laid).Prepared layout
  unfold Renderer.contextSetup
  split_ifs with hratio
  · exact ⟨rfl, rfl, rfl, hpivot, rfl, fun point ↦ rfl⟩
  · have hone : layout.pixelRatio = 1 := by simpa using hratio
    refine ⟨rfl, rfl, rfl, hpivot, rfl, fun point ↦ ?_⟩
    change layout.origin + point = layout.pixelRatio • (layout.origin + point)
    rw [hone]
    ext
    · exact (one_mul _).symm
    · exact (one_mul _).symm

/-- What is drawn on a prepared element is seen where it is drawn, if the layout is sharp. -/
theorem Prepared.shownAt_eq {element : Element ℝ} {layout : Layout ℝ}
    (hprepared : element.Prepared layout) (hsharp : layout.Sharp) (point : Point ℝ) :
    element.shownAt point = point := by
  -- The device pixels are stretched back by what the context has scaled.
  have hstretch : ∀ side drawn : ℝ, 0 < side →
      layout.pixelRatio * drawn * side / (side * layout.pixelRatio) = drawn := by
    intro side drawn hside
    have hratio := hsharp.pixelRatio_pos
    field_simp
  have hx := hstretch layout.size.x (layout.origin.x + point.x) hsharp.width_pos
  have hy := hstretch layout.size.y (layout.origin.y + point.y) hsharp.height_pos
  rw [← hsharp.deviceWidth] at hx
  rw [← hsharp.deviceHeight] at hy
  unfold shownAt
  rw [hprepared.deviceWidth, hprepared.deviceHeight, hprepared.size, hprepared.pivot,
    hprepared.placement, hprepared.context]
  simp only [Placement.unscaled, Exact.one_eq, Point.smul_x, Point.smul_y, Point.add_x,
    Point.add_y]
  change layout.position + (⟨0 * layout.size.x, 0 * layout.size.y⟩ : Point ℝ) + (1 : ℝ) •
    ((⟨_ / (layout.deviceWidth.toNat : ℝ), _ / (layout.deviceHeight.toNat : ℝ)⟩ : Point ℝ) - _) =
      point
  rw [hx, hy, hsharp.origin]
  ext
  · simp
  · simp

end Element

/-! ### The first label of a pass -/

section FirstLabel

variable [Scalar α]

/-- A label of a usable width is drawn if nothing is placed yet and the canvas allows it. -/
theorem fillText_mem_drawLabel {canvas : Canvas α}
    (hallows : ∀ earlier call, canvas.refuses earlier call = none) {feature : Feature α}
    {text : String} (htext : feature.labelText? = some text) {anchor : Point α}
    (hanchor : feature.anchor? = some anchor) {options : LabelOptions α} {width : α}
    (hwidth : canvas.measure (measuringSetup options) text = .ok width)
    (husable : usableWidth width = true) :
    .fillText text (anchor + options.offset) ∈ (drawLabel canvas options ∅ feature).calls := by
  have hoffer : ∀ box : Rect α, (∅ : PlacedLabels α).offer box options.collision = .placed := by
    intro box
    unfold PlacedLabels.offer
    split_ifs
    · rfl
    · rfl
  have hafter : ∀ made calls, (canvas.after made).perform calls = (calls, none) :=
    fun made ↦ Canvas.perform_of_allows fun earlier call ↦ hallows (made ++ earlier) call
  unfold drawLabel
  simp [htext, hanchor, hwidth, husable, hafter, hoffer, textCalls]

/-- A pass draws its first label, if it has a usable width and the browser allows everything. -/
theorem Layer.fillText_mem_drawPass (layer : Layer α) {browser : Browser α}
    (hallows : ∀ earlier call, browser.refuses earlier call = none) (feature : Feature α)
    {text : String} (htext : feature.labelText? = some text) {anchor : Point α}
    (hanchor : feature.anchor? = some anchor) {width : α}
    (hwidth : ∀ earlier, browser.measure earlier text = .ok width)
    (husable : usableWidth width = true) (frame : Frame α) (rest : List (Feature α)) :
    .draw (.fillText text (anchor + layer.renderer.options.offset)) ∈
      (layer.drawPass browser frame (feature :: rest)).calls := by
  have hcanvas : ∀ (made : List (BrowserCall α)) earlier call,
      (browser.after made).canvas.refuses earlier call = none :=
    fun made earlier call ↦ hallows (made ++ earlier.map BrowserCall.draw) (.draw call)
  let layout := layer.renderer.layoutFor frame
  let page := (browser.after (Layer.layoutCalls layer.renderer.options layout)).canvas
  let canvas := page.after (Renderer.contextSetup layout)
  have hlabel : .fillText text (anchor + layer.renderer.options.offset) ∈
      (drawLabel canvas layer.renderer.options ∅ feature).calls :=
    fillText_mem_drawLabel
      (fun earlier call ↦ hcanvas _ (Renderer.contextSetup layout ++ earlier) call)
      htext hanchor (hwidth _) husable
  rw [Layer.drawPass_of_accepted (congrArg Prod.snd (Browser.perform_of_allows hallows _))]
  dsimp only
  rw [Renderer.drawLabels_of_accepted
    (congrArg Prod.snd (Canvas.perform_of_allows (hcanvas _) _)), Renderer.drawFeatures_cons]
  exact List.mem_append_right _ (List.mem_map_of_mem (List.mem_append_right _
    (List.mem_append_left _ hlabel)))

end FirstLabel

/-! ### Texts of a run -/

namespace Layer

/-- Only passes draw. -/
theorem Operation.Makes.exists_drawPass_eq [Scalar α] {layer : Layer α} {operation : Operation α}
    {call : CanvasCall α} (hmakes : operation.Makes layer (.draw call)) :
    ∃ frame features, operation = .drawPass frame features := by
  cases operation with
  | drawPass frame features => exact ⟨frame, features, rfl⟩
  | init => simp [Makes, elementSetup] at hmakes
  | follow center zoom =>
    obtain ⟨placement, hplacement⟩ := hmakes
    cases hplacement
  | movePointerAt | movePointer | losePointer =>
    obtain ⟨action, haction⟩ := hmakes
    unfold cursorCall? at haction
    split at haction <;> cases haction
  | setDevicePixelRatio | setBusy | setOptions | assignOptions => exact hmakes.elim

/-- A pass draws texts only on an element that is prepared for its layout. -/
theorem prepared_of_text {layer : Layer ℝ} {browser : Browser ℝ} {frame : Frame ℝ}
    {features : List (Feature ℝ)} {made more : List (BrowserCall ℝ)} {text : CanvasCall ℝ}
    {point : Point ℝ}
    (hcalls : (layer.drawPass browser frame features).calls = made ++ .draw text :: more)
    (htext : text.textPoint? = some point) (element : Element ℝ) :
    (browser.elementAfter element made).Prepared (layer.renderer.layoutFor frame) := by
  have hsetup : .draw text ∉
      setupCalls layer.renderer.options (layer.renderer.layoutFor frame) := by
    intro hmem
    rw [CanvasCall.textPoint?_of_movesContext (movesContext_of_mem_setupCalls hmem)] at htext
    cases htext
  let setup := setupCalls layer.renderer.options (layer.renderer.layoutFor frame)
  cases hprepared : (browser.perform setup).2 with
  | some refusal =>
    rw [drawPass_of_unprepared hprepared] at hcalls
    have hmade : (browser.perform setup).1 = made ++ .draw text :: more := hcalls
    exact absurd ((browser.refusals.attempt_fst_prefix setup).subset
      (hmade ▸ List.mem_append_right made List.mem_cons_self)) hsetup
  | none =>
    rw [drawPass_of_prepared hprepared] at hcalls
    rcases exists_of_append_eq_append_cons hcalls with ⟨rest, hin⟩ | ⟨drawn, rfl, hdrawn⟩
    · exact absurd (by simp [hin]) hsetup
    · obtain ⟨before, rest, hdrawing, rfl, -⟩ := List.map_eq_append_iff.mp hdrawn
      have hbefore : ∀ call ∈ before, call.movesContext = false := fun call hcall ↦
        Renderer.movesContext_drawFeatures (hdrawing ▸ List.mem_append_left rest hcall)
      rw [Browser.elementAfter_append, Browser.elementAfter_of_perform hprepared,
        Browser.elementAfter_map_draw hbefore]
      exact Element.prepared_setup _ _ element

/-- A pass is for a padded frame whose layout fits. -/
def Operation.Fits (layer : Layer ℝ) : Operation ℝ → Prop
  | drawPass frame _ => frame.IsPadded ∧ (layer.renderer.layoutFor frame).Fits
  | _ => True

/-- Each text of a run is seen at the point it is drawn at, whatever has happened before. Assumes:
each pass of the run is for a padded frame that has an area and whose device pixels can be counted.
The browser may refuse any call at any time. The element, as it is when the text is drawn, then
shows the point of the text at that point of the layer. The text is drawn by one of the passes, and
the element is prepared for the layout of that pass alone, as if no pass had been before it. -/
theorem texts_in_place (layer : Layer ℝ) (browser : Browser ℝ) (element : Element ℝ)
    {operations : List (Operation ℝ)}
    (hfits : ∀ earlier operation later, operations = earlier ++ operation :: later →
      operation.Fits (layer.run browser earlier).layer)
    {before later : List (BrowserCall ℝ)} {text : CanvasCall ℝ} {point : Point ℝ}
    (hcalls : (layer.run browser operations).calls = before ++ .draw text :: later)
    (htext : text.textPoint? = some point) :
    let shown := browser.elementAfter element before
    shown.shownAt point = point ∧
      ∃ earlier frame features rest, operations = earlier ++ .drawPass frame features :: rest ∧
        (layer.run browser earlier).calls <+: before ∧
        (before ++ [.draw text]) <+:
          (layer.run browser (earlier ++ [.drawPass frame features])).calls ∧
        shown.Prepared ((layer.run browser earlier).layer.renderer.layoutFor frame) := by
  intro shown
  obtain ⟨earlier, operation, rest, made, more, hsplit, rfl, hmade⟩ :=
    exists_operation_of_calls_eq hcalls
  have hmem : .draw text ∈ ((layer.run browser earlier).report browser operation).calls := by
    rw [hmade]
    exact List.mem_append_right made List.mem_cons_self
  obtain ⟨frame, features, rfl⟩ := (Operation.makes_of_mem_calls hmem).exists_drawPass_eq
  obtain ⟨hpadded, hlayout⟩ := hfits earlier _ rest hsplit
  have hprepared : shown.Prepared ((layer.run browser earlier).layer.renderer.layoutFor frame) := by
    unfold shown
    rw [Browser.elementAfter_append]
    exact prepared_of_text hmade htext _
  refine ⟨hprepared.shownAt_eq (hlayout.sharp hpadded) point, earlier, frame, features, rest,
    hsplit, List.prefix_append _ _, ?_, hprepared⟩
  rw [run_concat, List.append_assoc]
  change _ <+: (layer.run browser earlier).calls ++ _
  rw [List.prefix_append_right_inj, hmade]
  exact ⟨more, by simp⟩

/-- The browser refuses to displace the context of the first pass, once it has been scaled. The text
of the second pass is seen where it is drawn all the same. -/
theorem texts_in_place_interrupted :
    let layer : Layer ℝ := ⟨.new .standard 32⟩
    let element : Element ℝ := ⟨[], 0, 0, ⟨1, 1⟩, ⟨0.5, 0.5⟩, .unscaled ⟨7, 7⟩, fun point ↦ -point⟩
    let browser : Browser ℝ :=
      { context := .planar
        measure := fun _ _ ↦ .ok 7
        refuses := fun earlier _ ↦ if earlier.length = 8 then some .null else none
        window := none
        date := 0 }
    let pass : Operation ℝ := .drawPass (.padded ⟨0, 0⟩ ⟨200, 100⟩ 0.1 ⟨-22.68, 118.35⟩ 7)
      [.labelledCircle 1 ⟨0, 0⟩ "Perth"]
    ∃ before later point,
      (layer.run browser [.setDevicePixelRatio 2, pass, pass]).calls =
          before ++ .draw (.fillText "Perth" point) :: later ∧
        (browser.elementAfter element before).shownAt point = point := by
  intro layer element browser pass
  let frame : Frame ℝ := .padded ⟨0, 0⟩ ⟨200, 100⟩ 0.1 ⟨-22.68, 118.35⟩ 7
  have hcorner : (⟨0, 0⟩ : Point ℝ) - (0.1 : ℝ) • ⟨200, 100⟩ = ⟨(-20 : ℤ), (-10 : ℤ)⟩ := by
    ext
    · norm_num
    · norm_num
  have hextent : (1 + 2 * (0.1 : ℝ)) • (⟨200, 100⟩ : Point ℝ) = ⟨(240 : ℤ), (120 : ℤ)⟩ := by
    ext
    · norm_num
    · norm_num
  have hsize : frame.bounds.size = ⟨(240 : ℤ), (120 : ℤ)⟩ :=
    Frame.size_padded_of_whole hcorner hextent (by norm_num) (by norm_num) _ _
  have hlayout : ∀ devicePixelRatio, (Layout.ofFrame frame devicePixelRatio).Fits := by
    refine Layout.fits_of_mul_two_lt ?_ ?_ ?_ ?_
    all_goals
      rw [hsize]
      norm_num [UInt32.size]
  have hratio : ((layer.setDevicePixelRatio 2).renderer.layoutFor frame).pixelRatio = 2 :=
    if_pos (by change (((1 : ℕ) : ℝ)) < 2; norm_num)
  -- Two of the calls of the first pass are made on the context, the second of them in vain.
  have hinterrupted : (layer.run browser [.setDevicePixelRatio 2, pass]).calls.length = 9 := by
    simp [run, History.next, pass, History.report, Operation.perform, drawPass, Browser.perform,
      LayerReport.silent, layoutCalls, Refusals.attempt, Browser.refusals, BrowserCall.refusable,
      browser, Refusals.after, Browser.after, Renderer.drawLabels, Canvas.perform, Canvas.refusals,
      Browser.canvas, Renderer.contextSetup, frame, hratio, CanvasCall.refusable]
  obtain ⟨first, hfirst⟩ : ∃ first, layer.run browser [.setDevicePixelRatio 2, pass] = first :=
    ⟨_, rfl⟩
  rw [hfirst] at hinterrupted
  have hallows : ∀ earlier call, (browser.after first.calls).refuses earlier call = none := by
    intro earlier call
    have hne : (first.calls ++ earlier).length ≠ 8 := by
      rw [List.length_append, hinterrupted]
      omega
    exact if_neg hne
  let point : Point ℝ := ⟨0, 0⟩ + first.layer.renderer.options.offset
  have husable : usableWidth (7 : ℝ) = true := by
    simp [usableWidth, Scalar.isFinite]
  have hfill : .draw (.fillText "Perth" point) ∈ (first.report browser pass).calls :=
    first.layer.fillText_mem_drawPass hallows (.labelledCircle 1 ⟨0, 0⟩ "Perth") rfl rfl
      (fun _ ↦ rfl) husable frame []
  obtain ⟨made, more, hmade⟩ := List.append_of_mem hfill
  have hcalls : (layer.run browser [.setDevicePixelRatio 2, pass, pass]).calls =
      (first.calls ++ made) ++ .draw (.fillText "Perth" point) :: more := by
    rw [List.append_assoc, ← hmade, ← hfirst]
    rfl
  have hfits : ∀ earlier operation later,
      [.setDevicePixelRatio 2, pass, pass] = earlier ++ operation :: later →
        operation.Fits (layer.run browser earlier).layer := by
    intro earlier operation later hsplit
    have hmem : operation ∈ [.setDevicePixelRatio 2, pass, pass] := by simp [hsplit]
    simp only [List.mem_cons, List.not_mem_nil, or_false, or_self] at hmem
    rcases hmem with rfl | rfl
    · trivial
    · exact ⟨⟨_, _, _, _, _, rfl⟩, hlayout _⟩
  exact ⟨first.calls ++ made, more, point, hcalls,
    (texts_in_place layer browser element hfits hcalls rfl).1⟩

end Layer

end LabelledMap
