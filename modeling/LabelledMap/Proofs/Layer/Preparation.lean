import LabelledMap.Decimal.Double
import LabelledMap.Proofs.Layer.TextsInPlace
import LabelledMap.Proofs.Renderer.Settings
import LabelledMap.Scalar.Double

/-!
# Passes that cannot be prepared

Before it draws, a pass prepares its surface: the layer gives the element its size, order and
position, and the renderer moves the context. Any of these calls may be refused, and the renderer
has begun the pass by then. `Refusals.StopsAt` is the first refusal among calls made in order, and a
pass fails just if its preparation is stopped in this way (`Renderer.drawPass_eq_error_iff`,
`Layer.drawPass_eq_error_iff`); labels that cannot be drawn are no reason.

What a failed pass leaves is a renderer without labels, counts and targets, which has the settings
and the hovered feature that it had before (`Renderer.Undrawn`). Only the settings matter to later
passes (`Renderer.SameSettings`), so these go as if the failed pass had not been tried, whatever is
done in between. As for the element, a pass that is prepared sets all that an unfinished preparation
may have left (`Element.after_setup_congr`). `Layer.prepared_or_undrawn` states this of renderers
and of layers.
-/

set_option autoImplicit false

namespace LabelledMap

variable {α : Type}

/-! ### The first refusal -/

/-- Of calls made in order, a call is the first one that is refused. -/
structure Refusals.StopsAt {call reason : Type} (refusals : Refusals call reason)
    (calls before : List call) (next : call) (why : reason) : Prop where
  begun : before ++ [next] <+: calls
  accepted : ∀ earlier between later, before = earlier ++ between :: later →
    refusals earlier between = none
  refused : refusals before next = some why

/-- Calls are attempted up to the first one that is refused. -/
theorem Refusals.attempt_eq_some_iff {call reason : Type} {refusals : Refusals call reason}
    {calls made : List call} {why : reason} :
    refusals.attempt calls = (made, some why) ↔
      ∃ before next, refusals.StopsAt calls before next why ∧ made = before ++ [next] := by
  constructor
  · intro hattempt
    induction calls generalizing refusals made with
    | nil => cases hattempt
    | cons first rest ih =>
      unfold attempt at hattempt
      cases hfirst : refusals [] first with
      | some reason =>
        simp only [hfirst, Prod.mk.injEq, Option.some.injEq] at hattempt
        obtain ⟨rfl, rfl⟩ := hattempt
        refine ⟨[], first, ⟨List.prefix_append [first] rest, ?_, hfirst⟩, rfl⟩
        intro earlier between later hnil
        exact absurd hnil (by simp)
      | none =>
        simp only [hfirst, Prod.mk.injEq] at hattempt
        obtain ⟨rfl, hrefused⟩ := hattempt
        obtain ⟨before, next, hstops, hmade⟩ := ih (Prod.ext rfl hrefused)
        refine ⟨first :: before, next, ⟨?_, ?_, hstops.refused⟩, congrArg (List.cons first) hmade⟩
        · exact (List.prefix_cons_inj first).mpr hstops.begun
        · intro earlier between later hsplit
          cases earlier with
          | nil =>
            obtain ⟨rfl, -⟩ := List.cons.inj hsplit
            exact hfirst
          | cons call earlier =>
            obtain ⟨rfl, hrest⟩ := List.cons.inj hsplit
            exact hstops.accepted earlier between later hrest
  · rintro ⟨before, next, hstops, rfl⟩
    obtain ⟨⟨rest, rfl⟩, haccepted, hrefused⟩ := hstops
    induction before generalizing refusals with
    | nil =>
      simp only [List.nil_append, List.cons_append, attempt]
      rw [hrefused]
    | cons first before ih =>
      have hfirst : refusals [] first = none := haccepted [] first before rfl
      have hlater : (refusals.after [first]).attempt (before ++ [next] ++ rest) =
          (before ++ [next], some why) :=
        ih (fun earlier between later hsplit ↦
          haccepted (first :: earlier) between later (by rw [hsplit]; rfl)) hrefused
      simp only [List.cons_append, attempt, hfirst, hlater]

/-- Calls are attempted to their end or up to the first one that is refused. -/
theorem Refusals.attempt_cases {call reason : Type} (refusals : Refusals call reason)
    (calls : List call) :
    (refusals.attempt calls).2 = none ∨
      ∃ before next why, refusals.StopsAt calls before next why := by
  cases hrefused : (refusals.attempt calls).2 with
  | none => exact Or.inl rfl
  | some why =>
    obtain ⟨before, next, hstops, -⟩ := attempt_eq_some_iff.mp (Prod.ext rfl hrefused)
    exact Or.inr ⟨before, next, why, hstops⟩

/-! ### What a failed pass leaves -/

/-- Nothing is drawn and nothing can be touched, and apart from the pass all is as it was. -/
structure Renderer.Undrawn [Scalar α] (before after : Renderer α) : Prop where
  placed : after.placed = ∅
  counts : after.counts = {}
  click : ∀ point, after.click point = []
  hovered : after.hovered = before.hovered
  settings : after.SameSettings before

namespace Renderer

variable [Scalar α]

theorem undrawn_beginPass (renderer : Renderer α) (frame : Frame α) :
    Undrawn renderer (renderer.beginPass frame) where
  placed := rfl
  counts := rfl
  click _ := rfl
  hovered := rfl
  settings := sameSettings_beginPass renderer frame

/-- A pass on a context that refuses to be moved is ended by the first refusal. -/
theorem drawPass_of_stopsAt {renderer : Renderer α} {canvas : Canvas α} {frame : Frame α}
    {before : List (CanvasCall α)} {call : CanvasCall α} {why : Refusal α}
    (hstops : canvas.refusals.StopsAt (contextSetup (renderer.layoutFor frame)) before call why)
    (features : List (Feature α)) :
    renderer.drawPass canvas frame features =
      ⟨before ++ [call], .error (.refused why), renderer.beginPass frame⟩ := by
  have hperformed : canvas.perform (contextSetup (renderer.layoutFor frame)) =
      (before ++ [call], some why) := Refusals.attempt_eq_some_iff.mpr ⟨before, call, hstops, rfl⟩
  unfold drawPass
  rw [drawLabels_of_refused (congrArg Prod.snd hperformed), hperformed]

/-- A pass fails just if the context cannot be moved, whatever is to be drawn. -/
theorem drawPass_eq_error_iff {renderer : Renderer α} {canvas : Canvas α} {frame : Frame α}
    {features : List (Feature α)} {fault : CanvasFault α} :
    (renderer.drawPass canvas frame features).result = .error fault ↔
      ∃ before call why, fault = .refused why ∧
        canvas.refusals.StopsAt (contextSetup (renderer.layoutFor frame)) before call why := by
  constructor
  · intro hfault
    rcases canvas.refusals.attempt_cases (contextSetup (renderer.layoutFor frame)) with
      haccepted | ⟨before, call, why, hstops⟩
    · unfold drawPass at hfault
      rw [drawLabels_of_accepted haccepted] at hfault
      cases hfault
    · rw [drawPass_of_stopsAt hstops] at hfault
      exact ⟨before, call, why, (Except.error.inj hfault).symm, hstops⟩
  · rintro ⟨before, call, why, rfl, hstops⟩
    rw [drawPass_of_stopsAt hstops]

end Renderer

/-! ### Layers -/

namespace Layer

variable [Scalar α]

/-- A pass on an element that cannot be prepared is ended by the first refusal. -/
theorem drawPass_of_stopsAt {layer : Layer α} {browser : Browser α} {frame : Frame α}
    {before : List (BrowserCall α)} {call : BrowserCall α} {why : Refusal α}
    (hstops : browser.refusals.StopsAt
      (setupCalls layer.renderer.options (layer.renderer.layoutFor frame)) before call why)
    (features : List (Feature α)) :
    layer.drawPass browser frame features =
      ⟨before ++ [call], .error (.refused why), ⟨layer.renderer.beginPass frame⟩⟩ := by
  have hperformed : browser.perform
      (setupCalls layer.renderer.options (layer.renderer.layoutFor frame)) =
        (before ++ [call], some why) := Refusals.attempt_eq_some_iff.mpr ⟨before, call, hstops, rfl⟩
  rw [drawPass_of_unprepared (congrArg Prod.snd hperformed), hperformed]

/-- A pass fails just if its element cannot be prepared, whatever is to be drawn. -/
theorem drawPass_eq_error_iff {layer : Layer α} {browser : Browser α} {frame : Frame α}
    {features : List (Feature α)} {fault : CanvasFault α} :
    (layer.drawPass browser frame features).result = .error fault ↔
      ∃ before call why, fault = .refused why ∧ browser.refusals.StopsAt
        (setupCalls layer.renderer.options (layer.renderer.layoutFor frame)) before call why := by
  constructor
  · intro hfault
    rcases browser.refusals.attempt_cases
        (setupCalls layer.renderer.options (layer.renderer.layoutFor frame)) with
      haccepted | ⟨before, call, why, hstops⟩
    · rw [drawPass_of_prepared haccepted] at hfault
      cases hfault
    · rw [drawPass_of_stopsAt hstops] at hfault
      exact ⟨before, call, why, (Except.error.inj hfault).symm, hstops⟩
  · rintro ⟨before, call, why, rfl, hstops⟩
    rw [drawPass_of_stopsAt hstops]

/-- What can be refused while the element is prepared is a rule of its style or a move of its
context. -/
theorem eq_style_or_draw_of_stopsAt {browser : Browser α} {options : LabelOptions α}
    {layout : Layout α} {before : List (BrowserCall α)} {call : BrowserCall α} {why : Refusal α}
    (hstops : browser.refusals.StopsAt (setupCalls options layout) before call why) :
    (∃ rule, call = .style rule) ∨ ∃ move, call = .draw move ∧ move.movesContext = true := by
  have hrefusable : call.refusable = true := by
    have hrefused := hstops.refused
    unfold Browser.refusals at hrefused
    split_ifs at hrefused with hcall
    exact hcall
  have hmem : call ∈ setupCalls options layout :=
    hstops.begun.subset (List.mem_append_right before List.mem_cons_self)
  rcases List.mem_append.mp hmem with hlaid | hmoved
  · simp only [layoutCalls, List.mem_cons, List.not_mem_nil, or_false] at hlaid
    rcases hlaid with rfl | rfl | rfl | rfl | rfl | rfl | rfl
    · cases hrefusable
    · cases hrefusable
    all_goals exact Or.inl ⟨_, rfl⟩
  · obtain ⟨move, hmove, rfl⟩ := List.mem_map.mp hmoved
    exact Or.inr ⟨move, rfl, Renderer.movesContext_contextSetup layout hmove⟩

end Layer

/-- Preparing an element sets all of it but its classes, whatever it has been before. -/
theorem Element.after_setup_congr [Scalar α] {first second : Element α}
    (hclasses : first.classes = second.classes) (options : LabelOptions α) (layout : Layout α) :
    (Layer.setupCalls options layout).foldl after first =
      (Layer.setupCalls options layout).foldl after second := by
  have hlaid : (Layer.layoutCalls options layout).foldl after first =
      (Layer.layoutCalls options layout).foldl after second := by
    cases first
    cases second
    obtain rfl := hclasses
    rfl
  unfold Layer.setupCalls
  rw [List.foldl_append, List.foldl_append, hlaid]

namespace Layer

variable [Scalar α]

/-- A pass that does not fail leaves the same element, whatever the element has been before but for
its classes. -/
theorem elementAfter_drawPass_congr {layer : Layer α} {browser : Browser α} {frame : Frame α}
    {features : List (Feature α)} {outcomes : List (LabelOutcome α)}
    (hresult : (layer.drawPass browser frame features).result = .ok outcomes)
    {first second : Element α} (hclasses : first.classes = second.classes) :
    browser.elementAfter first (layer.drawPass browser frame features).calls =
      browser.elementAfter second (layer.drawPass browser frame features).calls := by
  rcases browser.refusals.attempt_cases
      (setupCalls layer.renderer.options (layer.renderer.layoutFor frame)) with
    haccepted | ⟨before, call, why, hstops⟩
  · have hdrawn : ∀ shown : Element α,
        browser.elementAfter shown (layer.drawPass browser frame features).calls =
          (setupCalls layer.renderer.options (layer.renderer.layoutFor frame)).foldl
            Element.after shown := by
      intro shown
      rw [drawPass_of_prepared haccepted, Browser.elementAfter_append,
        Browser.elementAfter_map_draw fun call ↦ Renderer.movesContext_drawFeatures,
        Browser.elementAfter_of_perform haccepted]
    rw [hdrawn, hdrawn, Element.after_setup_congr hclasses]
  · rw [drawPass_of_stopsAt hstops] at hresult
    cases hresult

/-! ### Later passes -/

/-- A pass leaves the settings. -/
theorem sameSettings_drawPass (layer : Layer α) (browser : Browser α) (frame : Frame α)
    (features : List (Feature α)) :
    Renderer.SameSettings (layer.drawPass browser frame features).layer.renderer
      layer.renderer := by
  obtain ⟨placed, targets, counts, hkept⟩ := layer.drawPass_keeps browser frame features
  rw [hkept]
  exact ⟨rfl, rfl, rfl, rfl, rfl⟩

omit [Scalar α] in
/-- Performing calls leaves the layer. -/
theorem layer_performing {answer : Type} (layer : Layer α) (browser : Browser α)
    (calls : List (BrowserCall α)) (value : answer) :
    (layer.performing browser calls value).layer = layer :=
  (layer.performing_keeps browser calls value).2

end Layer

section Later

variable [Analytic α]

/-- The layer once operations have been done, each on a browser of its own. -/
def Layer.afterAll (layer : Layer α) (steps : List (Browser α × Layer.Operation α)) : Layer α :=
  steps.foldl (fun layer step ↦ (step.2.perform layer step.1).layer) layer

/-- Every pass goes alike on two renderers, whatever is done to both before. They may have different
features hovered. -/
def Renderer.PassesAlike (first second : Renderer α) : Prop :=
  ∀ (operations : List (Operation α)) (canvas : Canvas α) (frame : Frame α)
    (features : List (Feature α)),
    let pass := (first.run operations).drawPass canvas frame features
    let other := (second.run operations).drawPass canvas frame features
    pass.calls = other.calls ∧ pass.result = other.result ∧
      pass.renderer = { other.renderer with hovered := (first.run operations).hovered }

/-- Every pass goes alike on two layers, whatever is done to both before, and shows the same on
their elements, however these have been left. The layers may have different features hovered, and
different classes for it. -/
def Layer.PassesAlike (first second : Layer α) : Prop :=
  ∀ (steps : List (Browser α × Operation α)) (browser : Browser α) (frame : Frame α)
    (features : List (Feature α)),
    let pass := (first.afterAll steps).drawPass browser frame features
    let other := (second.afterAll steps).drawPass browser frame features
    pass.calls = other.calls ∧ pass.result = other.result ∧
      pass.layer.renderer =
        { other.layer.renderer with hovered := (first.afterAll steps).renderer.hovered } ∧
      ∀ outcomes, pass.result = .ok outcomes → ∀ shown otherShown : Element α,
        shown.classes = otherShown.classes →
          browser.elementAfter shown pass.calls = browser.elementAfter otherShown other.calls

namespace Renderer.SameSettings

theorem passesAlike {first second : Renderer α} (hsame : SameSettings first second) :
    PassesAlike first second :=
  fun operations canvas frame features ↦ (hsame.run operations).drawPass canvas frame features

variable {first second : Layer α}

/-- An operation on a layer does the same to the settings. -/
theorem perform (hsame : SameSettings first.renderer second.renderer) (browser : Browser α)
    (operation : Layer.Operation α) :
    SameSettings (operation.perform first browser).layer.renderer
      (operation.perform second browser).layer.renderer := by
  have hfollow : ∀ (layer : Layer α) (center : LatLng α) (zoom : α),
      (layer.follow browser center zoom).layer = layer := by
    intro layer center zoom
    unfold Layer.follow
    cases layer.renderer.placement? center zoom with
    | none => rfl
    | some placement => exact Layer.layer_performing _ _ _ _
  cases operation with
  | init =>
    change SameSettings (first.init browser).layer.renderer (second.init browser).layer.renderer
    unfold Layer.init
    rw [Layer.layer_performing, Layer.layer_performing]
    exact hsame
  | follow center zoom =>
    change SameSettings (first.follow browser center zoom).layer.renderer
      (second.follow browser center zoom).layer.renderer
    rw [hfollow, hfollow]
    exact hsame
  | drawPass frame features =>
    exact (first.sameSettings_drawPass browser frame features).trans
      (hsame.trans (second.sameSettings_drawPass browser frame features).symm)
  | movePointerAt point now =>
    change SameSettings (Layer.performing _ _ _ _).layer.renderer
      (Layer.performing _ _ _ _).layer.renderer
    rw [Layer.layer_performing, Layer.layer_performing]
    exact hsame.movePointer point now
  | movePointer point window date =>
    change SameSettings (Layer.performing _ _ _ _).layer.renderer
      (Layer.performing _ _ _ _).layer.renderer
    rw [Layer.layer_performing, Layer.layer_performing]
    exact hsame.movePointer point _
  | losePointer =>
    change SameSettings (Layer.performing _ _ _ _).layer.renderer
      (Layer.performing _ _ _ _).layer.renderer
    rw [Layer.layer_performing, Layer.layer_performing]
    exact hsame.losePointer
  | setDevicePixelRatio ratio => exact { hsame with devicePixelRatio := rfl }
  | setBusy busy => exact { hsame with busy := rfl }
  | setOptions options => exact hsame.setOptions options
  | assignOptions options => exact { hsame with options := rfl }

/-- Layers with the same settings have the same settings after the same operations. -/
theorem afterAll (hsame : SameSettings first.renderer second.renderer)
    (steps : List (Browser α × Layer.Operation α)) :
    SameSettings (first.afterAll steps).renderer (second.afterAll steps).renderer := by
  induction steps generalizing first second with
  | nil => exact hsame
  | cons step rest ih => exact ih (hsame.perform step.1 step.2)

/-- A pass does the same on both layers, and leaves the same but for the hovered feature. -/
theorem drawPass_layer (hsame : SameSettings first.renderer second.renderer) (browser : Browser α)
    (frame : Frame α) (features : List (Feature α)) :
    let pass := first.drawPass browser frame features
    let other := second.drawPass browser frame features
    pass.calls = other.calls ∧ pass.result = other.result ∧
      pass.layer.renderer = { other.layer.renderer with hovered := first.renderer.hovered } := by
  obtain ⟨hlayout, hbegun⟩ := hsame.beginPass frame
  have hsettings : SameSettings (first.renderer.beginPass frame)
      (second.renderer.beginPass frame) := { hsame with }
  have hcalls : Layer.layoutCalls first.renderer.options (first.renderer.layoutFor frame) =
      Layer.layoutCalls second.renderer.options (second.renderer.layoutFor frame) := by
    rw [hsame.options, hlayout]
  cases hlaid : (browser.perform
    (Layer.layoutCalls second.renderer.options (second.renderer.layoutFor frame))).2 with
  | some refusal =>
    rw [Layer.drawPass_of_refused (hcalls ▸ hlaid), Layer.drawPass_of_refused hlaid, hcalls]
    exact ⟨rfl, rfl, hsettings.eq_of_samePass hbegun⟩
  | none =>
    obtain ⟨hdrawing, hresult, hfinal⟩ := hsettings.drawLabels hbegun
      (browser.after (Layer.layoutCalls second.renderer.options
        (second.renderer.layoutFor frame))).canvas (second.renderer.layoutFor frame) features
    rw [Layer.drawPass_of_accepted (hcalls ▸ hlaid), Layer.drawPass_of_accepted hlaid, hcalls,
      hlayout]
    exact ⟨congrArg (fun calls ↦ _ ++ calls.map BrowserCall.draw) hdrawing, hresult, hfinal⟩

theorem passesAlike_layer (hsame : SameSettings first.renderer second.renderer) :
    Layer.PassesAlike first second := by
  intro steps browser frame features
  obtain ⟨hcalls, hresult, hfinal⟩ :=
    (hsame.afterAll steps).drawPass_layer browser frame features
  refine ⟨hcalls, hresult, hfinal, fun outcomes houtcomes shown otherShown hclasses ↦ ?_⟩
  rw [← hcalls]
  exact Layer.elementAfter_drawPass_congr houtcomes hclasses

end Renderer.SameSettings

/-- A pass prepares its surface or draws nothing, on any renderer and on any layer, whatever has
been done to it, whatever is to be drawn and whichever calls are refused. It fails just if a call is
refused by which it moves the context, or by which the layer gives the element its style; the first
one refused ends it and is the reason. A pass that fails has moved the context at most: it has
measured and drawn no text. It leaves no labels, counts or targets, so that no click finds anything,
and the hovered feature and the settings as they were. Later passes go as if it had not been tried:
the next one altogether, and one after other operations up to the feature that is hovered then. -/
theorem Layer.prepared_or_undrawn (renderer : Renderer α) (canvas : Canvas α) (browser : Browser α)
    (frame : Frame α) (features : List (Feature α)) :
    (let pass := renderer.drawPass canvas frame features
      let setup := Renderer.contextSetup (renderer.layoutFor frame)
      (∀ fault, pass.result = .error fault ↔ ∃ before call why, fault = .refused why ∧
        canvas.refusals.StopsAt setup before call why ∧ call.movesContext = true) ∧
      ∀ fault, pass.result = .error fault →
        (∀ call ∈ pass.calls, call.movesContext = true) ∧
        renderer.Undrawn pass.renderer ∧ pass.renderer.drawPass = renderer.drawPass ∧
        pass.renderer.PassesAlike renderer) ∧
    (let layer : Layer α := ⟨renderer⟩
      let pass := layer.drawPass browser frame features
      let setup := setupCalls renderer.options (renderer.layoutFor frame)
      (∀ fault, pass.result = .error fault ↔ ∃ before call why, fault = .refused why ∧
        browser.refusals.StopsAt setup before call why ∧
          ((∃ rule, call = .style rule) ∨
            ∃ move, call = .draw move ∧ move.movesContext = true)) ∧
      ∀ fault, pass.result = .error fault →
        (∀ call, .draw call ∈ pass.calls → call.movesContext = true) ∧
        renderer.Undrawn pass.layer.renderer ∧ pass.layer.drawPass = layer.drawPass ∧
        pass.layer.PassesAlike layer) := by
  have hundrawn := renderer.undrawn_beginPass frame
  refine ⟨⟨fun fault ↦ ?_, fun fault hfault ↦ ?_⟩, fun fault ↦ ?_, fun fault hfault ↦ ?_⟩
  · rw [Renderer.drawPass_eq_error_iff]
    constructor
    · rintro ⟨before, call, why, hfault, hstops⟩
      exact ⟨before, call, why, hfault, hstops, Renderer.movesContext_contextSetup _
        (hstops.begun.subset (List.mem_append_right before List.mem_cons_self))⟩
    · rintro ⟨before, call, why, hfault, hstops, -⟩
      exact ⟨before, call, why, hfault, hstops⟩
  · obtain ⟨before, call, why, rfl, hstops⟩ := Renderer.drawPass_eq_error_iff.mp hfault
    rw [Renderer.drawPass_of_stopsAt hstops]
    exact ⟨fun made hmade ↦ Renderer.movesContext_contextSetup _ (hstops.begun.subset hmade),
      hundrawn, rfl, hundrawn.settings.passesAlike⟩
  · rw [drawPass_eq_error_iff]
    constructor
    · rintro ⟨before, call, why, hfault, hstops⟩
      exact ⟨before, call, why, hfault, hstops, eq_style_or_draw_of_stopsAt hstops⟩
    · rintro ⟨before, call, why, hfault, hstops, -⟩
      exact ⟨before, call, why, hfault, hstops⟩
  · obtain ⟨before, call, why, rfl, hstops⟩ := drawPass_eq_error_iff.mp hfault
    rw [drawPass_of_stopsAt hstops]
    exact ⟨fun made hmade ↦ movesContext_of_mem_setupCalls (hstops.begun.subset hmade),
      hundrawn, rfl, hundrawn.settings.passesAlike_layer⟩

/-- A pass on a layer whose circle is hovered is stopped by the ninth call, which displaces the
context. The circle cannot be clicked then, but it is still hovered, and the next pass draws as it
would have before. -/
theorem Layer.prepared_or_undrawn_interrupted :
    let browser : Browser Float :=
      { context := .planar
        measure := fun _ _ ↦ .ok 7
        refuses := fun _ _ ↦ none
        window := none
        date := 0 }
    let failing := { browser with
      refuses := fun earlier _ ↦ if earlier.length = 8 then some .null else none }
    let frame : Frame Float := .padded ⟨0, 0⟩ ⟨200, 100⟩ 0.1 ⟨-22.68, 118.35⟩ 7
    let features : List (Feature Float) := [.labelledCircle 1 ⟨0, 0⟩ "Perth"]
    let layer := (Layer.run ⟨.new .standard 32⟩ browser
      [.setDevicePixelRatio 2, .drawPass frame features, .movePointerAt ⟨0, 0⟩ 0]).layer
    let pass := layer.drawPass failing frame features
    layer.click ⟨0, 0⟩ = [.clicked 1] ∧ pass.result.toBool = false ∧ pass.calls.length = 9 ∧
      pass.layer.click ⟨0, 0⟩ = [] ∧ pass.layer.renderer.hovered = some 1 ∧
      pass.layer.drawPass browser frame features = layer.drawPass browser frame features := by
  intro browser failing frame features layer pass
  have hfailed : pass.result.toBool = false := by decide +kernel
  obtain ⟨fault, hfault⟩ : ∃ fault, pass.result = .error fault := by
    cases hresult : pass.result with
    | error fault => exact ⟨fault, rfl⟩
    | ok outcomes =>
      rw [hresult] at hfailed
      cases hfailed
  have hfails : ∀ shown : Layer Float,
      (shown.drawPass failing frame features).result = .error fault →
      (shown.drawPass failing frame features).layer.click ⟨0, 0⟩ = [] ∧
        (shown.drawPass failing frame features).layer.renderer.hovered = shown.renderer.hovered ∧
        (shown.drawPass failing frame features).layer.drawPass browser frame features =
          shown.drawPass browser frame features := by
    intro shown hresult
    obtain ⟨-, hundrawn, hlater, -⟩ := (prepared_or_undrawn shown.renderer browser.canvas failing
      frame features).2.2 fault hresult
    exact ⟨hundrawn.click ⟨0, 0⟩, hundrawn.hovered,
      congrArg (fun draw ↦ draw browser frame features) hlater⟩
  obtain ⟨hclick, hhovered, hlater⟩ := hfails layer hfault
  have hbefore : layer.renderer.hovered = some 1 := by decide +kernel
  exact ⟨by decide +kernel, hfailed, by decide +kernel, hclick, hhovered.trans hbefore, hlater⟩

end Later

end LabelledMap
