import LabelledMap.Decimal.Double
import LabelledMap.Proofs.Renderer.Runs
import LabelledMap.Scalar.Double

/-!
# What a pass depends on

A pass reads the options and the device pixel ratio, the frame, the features and what the canvas
answers. It does not read what earlier passes have left, nor what the pointer has done. The reason
is that beginning a pass brings any two renderers with the same options and device pixel ratio to
agree on all that the rest of the pass reads (`Renderer.samePass_beginPass`). `Renderer.SamePass` is
this agreement. Each part of a pass keeps it and does the same on both sides (`SamePass.perform`),
and everything else that may come between keeps it on its own side
(`SamePass.perform_of_not_isPart`).

A host may call the parts of a pass itself, with the pointer moving in between: `PassCall` lists
what can be called then, and `Renderer.goThrough` makes such calls. A whole pass is its parts
without anything in between (`Renderer.goThrough_features`), so `Renderer.pass_of_inputs` says what
two passes have in common both of whole passes and of passes with the pointer in between.
-/

set_option autoImplicit false

namespace LabelledMap.Renderer

variable {α : Type}

/-- Two renderers agree on all that a pass reads and on all that it leaves. Nothing is said of the
pointer and of the projection. -/
structure SamePass (first second : Renderer α) : Prop where
  options : first.options = second.options
  devicePixelRatio : first.devicePixelRatio = second.devicePixelRatio
  placed : first.placed = second.placed
  counts : first.counts = second.counts
  targets : first.targets = second.targets
  layout : first.layout = second.layout
  drawnView : first.drawnView = second.drawnView

/-- A call to a renderer while a pass goes on. -/
inductive PassCall (α : Type) where
  /-- The context is prepared for a layout. -/
  | prepare (layout : Layout α)
  /-- The shape of a feature is about to be drawn. -/
  | beforeShape (feature : Feature α)
  /-- The shape of a feature has been drawn, and its label is due. -/
  | afterShape (feature : Feature α)
  | movePointer (point : Point α) (now : α)
  | losePointer
  | click (point : Point α)
  | setBusy (busy : Bool)

/-- Whether a call is a part of the pass, and not something that comes between. -/
def PassCall.isPart : PassCall α → Bool
  | prepare _ | beforeShape _ | afterShape _ => true
  | movePointer _ _ | losePointer | click _ | setBusy _ => false

/-- The parts that features have in a pass, in drawing order. -/
def PassCall.ofFeatures (features : List (Feature α)) : List (PassCall α) :=
  features.flatMap fun feature ↦ [.beforeShape feature, .afterShape feature]

theorem PassCall.isPart_of_mem_ofFeatures {features : List (Feature α)} {call : PassCall α}
    (hcall : call ∈ ofFeatures features) : call.isPart = true := by
  obtain ⟨feature, -, hcall⟩ := List.mem_flatMap.mp hcall
  simp only [List.mem_cons, List.not_mem_nil, or_false] at hcall
  rcases hcall with rfl | rfl
  · rfl
  · rfl

/-- What a part of a pass answers. -/
inductive PassAnswer (α : Type) where
  /-- Whether the context could be prepared, or why not. -/
  | prepared (refused : Option (Refusal α))
  | labelled (outcome : LabelOutcome α)

/-- How far a pass has come: the calls made to the canvas, the answers of its parts and the
renderer. -/
structure PassProgress (α : Type) where
  calls : List (CanvasCall α)
  answers : List (PassAnswer α)
  renderer : Renderer α

section Progress

variable [Scalar α]

/-- What a call does. The answers of calls that come between belong to the pointer, not to the pass.
-/
def PassCall.perform (renderer : Renderer α) (canvas : Canvas α) : PassCall α → PassProgress α
  | prepare layout =>
    let (made, refused) := canvas.perform (contextSetup layout)
    ⟨made, [.prepared refused], renderer⟩
  | beforeShape feature => ⟨[], [], renderer.addTarget feature⟩
  | afterShape feature =>
    let attempt := renderer.attemptLabel canvas feature
    ⟨attempt.calls, [.labelled attempt.outcome], renderer.afterAttempt attempt⟩
  | movePointer point now => ⟨[], [], (renderer.movePointer point now).2⟩
  | losePointer => ⟨[], [], renderer.losePointer.2⟩
  | click _ => ⟨[], [], renderer⟩
  | setBusy busy => ⟨[], [], { renderer with busy }⟩

/-- What calls do in order. -/
def goThrough (renderer : Renderer α) (canvas : Canvas α) : List (PassCall α) → PassProgress α
  | [] => ⟨[], [], renderer⟩
  | call :: rest =>
    let done := call.perform renderer canvas
    let later := done.renderer.goThrough (canvas.after done.calls) rest
    ⟨done.calls ++ later.calls, done.answers ++ later.answers, later.renderer⟩

/-- Drawing features is going through their parts of a pass. -/
theorem goThrough_features (renderer : Renderer α) (canvas : Canvas α)
    (features : List (Feature α)) :
    renderer.goThrough canvas (PassCall.ofFeatures features) =
      let drawn := renderer.drawFeatures canvas features
      ⟨drawn.1, drawn.2.1.map .labelled, drawn.2.2⟩ := by
  induction features generalizing renderer canvas with
  | nil => rfl
  | cons feature rest ih =>
    unfold PassCall.ofFeatures at ih ⊢
    rw [List.flatMap_cons, drawFeatures_cons]
    simp only [List.cons_append, List.nil_append, goThrough, PassCall.perform, Canvas.after_nil, ih,
      List.map_cons]

end Progress

namespace SamePass

variable [Scalar α] {first second : Renderer α}

/-- A click does the same. -/
theorem click_eq (hsame : SamePass first second) (point : Point α) :
    first.click point = second.click point := by
  unfold click touched?
  rw [hsame.targets, hsame.options]

/-- A part of a pass does the same and leaves the same. -/
theorem perform (hsame : SamePass first second) (canvas : Canvas α) {call : PassCall α}
    (hpart : call.isPart = true) :
    (call.perform first canvas).calls = (call.perform second canvas).calls ∧
      (call.perform first canvas).answers = (call.perform second canvas).answers ∧
      SamePass (call.perform first canvas).renderer (call.perform second canvas).renderer := by
  cases call with
  | prepare layout => exact ⟨rfl, rfl, hsame⟩
  | beforeShape feature =>
    refine ⟨rfl, rfl, { hsame with counts := ?_, targets := ?_ }⟩
    · simp only [PassCall.perform, addTarget, hsame.counts]
    · simp only [PassCall.perform, addTarget, hsame.targets]
  | afterShape feature =>
    have hattempt : first.attemptLabel canvas feature = second.attemptLabel canvas feature := by
      unfold attemptLabel
      rw [hsame.options, hsame.placed]
    simp only [PassCall.perform, hattempt, true_and]
    refine { hsame with placed := rfl, counts := ?_ }
    simp only [afterAttempt, hsame.counts]
  | movePointer | losePointer | click | setBusy => cases hpart

/-- What comes between the parts of a pass calls nothing and leaves what the pass reads. -/
theorem perform_of_not_isPart (hsame : SamePass first second) (canvas : Canvas α)
    {call : PassCall α} (hbetween : call.isPart = false) :
    (call.perform first canvas).calls = [] ∧ (call.perform first canvas).answers = [] ∧
      SamePass (call.perform first canvas).renderer second := by
  cases call with
  | prepare | beforeShape | afterShape => cases hbetween
  | movePointer point now =>
    obtain ⟨throttle, hovered, hkept⟩ := movePointer_keeps first point now
    refine ⟨rfl, rfl, ?_⟩
    change SamePass (first.movePointer point now).2 second
    rw [hkept]
    exact { hsame with }
  | losePointer => exact ⟨rfl, rfl, { hsame with }⟩
  | click point => exact ⟨rfl, rfl, hsame⟩
  | setBusy busy => exact ⟨rfl, rfl, { hsame with }⟩

/-- Going through a pass does the same and leaves the same as going through its parts alone. -/
theorem goThrough_filter (hsame : SamePass first second) (canvas : Canvas α)
    (calls : List (PassCall α)) :
    let mixed := first.goThrough canvas calls
    let alone := second.goThrough canvas (calls.filter (·.isPart))
    mixed.calls = alone.calls ∧ mixed.answers = alone.answers ∧
      SamePass mixed.renderer alone.renderer := by
  -- The two renderers agree before each part, whatever came between.
  induction calls generalizing first second canvas with
  | nil => exact ⟨rfl, rfl, hsame⟩
  | cons call rest ih =>
    cases hpart : call.isPart with
    | true =>
      obtain ⟨hcalls, hanswers, hnext⟩ := hsame.perform canvas hpart
      obtain ⟨hlaterCalls, hlaterAnswers, hfinal⟩ :=
        ih hnext (canvas.after (call.perform second canvas).calls)
      rw [List.filter_cons_of_pos hpart]
      simp only [Renderer.goThrough, hcalls, hanswers, hlaterCalls, hlaterAnswers, true_and]
      exact hfinal
    | false =>
      obtain ⟨hcalls, hanswers, hnext⟩ := hsame.perform_of_not_isPart canvas hpart
      rw [List.filter_cons_of_neg (by rw [hpart]; exact Bool.false_ne_true)]
      simp only [Renderer.goThrough, hcalls, hanswers, Canvas.after_nil, List.nil_append]
      exact ih hnext canvas

/-- Drawing features does the same and leaves the same. -/
theorem drawFeatures (hsame : SamePass first second) (canvas : Canvas α)
    (features : List (Feature α)) :
    let drawn := first.drawFeatures canvas features
    let other := second.drawFeatures canvas features
    drawn.1 = other.1 ∧ drawn.2.1 = other.2.1 ∧ SamePass drawn.2.2 other.2.2 := by
  have hparts := hsame.goThrough_filter canvas (PassCall.ofFeatures features)
  rw [List.filter_eq_self.mpr fun _ ↦ PassCall.isPart_of_mem_ofFeatures, goThrough_features,
    goThrough_features] at hparts
  obtain ⟨hcalls, hanswers, hfinal⟩ := hparts
  refine ⟨hcalls, ?_, hfinal⟩
  exact (List.map_inj_right fun _ _ heq ↦ PassAnswer.labelled.inj heq).mp hanswers

/-- Preparing a context and drawing features does the same and leaves the same. -/
theorem drawLabels (hsame : SamePass first second) (canvas : Canvas α) (layout : Layout α)
    (features : List (Feature α)) :
    let pass := first.drawLabels canvas layout features
    let other := second.drawLabels canvas layout features
    pass.calls = other.calls ∧ pass.result = other.result ∧
      SamePass pass.renderer other.renderer := by
  cases hsetup : (canvas.perform (contextSetup layout)).2 with
  | none =>
    obtain ⟨hcalls, houtcomes, hfinal⟩ :=
      hsame.drawFeatures (canvas.after (contextSetup layout)) features
    rw [drawLabels_of_accepted hsetup, drawLabels_of_accepted hsetup]
    exact ⟨congrArg (contextSetup layout ++ ·) hcalls, congrArg Except.ok houtcomes, hfinal⟩
  | some refusal =>
    rw [drawLabels_of_refused hsetup, drawLabels_of_refused hsetup]
    exact ⟨rfl, rfl, hsame⟩

end SamePass

variable [Scalar α]

/-- However two renderers differ, they agree once they have begun the same pass. Assumes: they have
the same options and device pixel ratio. -/
theorem samePass_beginPass {first second : Renderer α} (hoptions : first.options = second.options)
    (hratio : first.devicePixelRatio = second.devicePixelRatio) (frame : Frame α) :
    SamePass (first.beginPass frame) (second.beginPass frame) where
  options := hoptions
  devicePixelRatio := hratio
  placed := rfl
  counts := rfl
  targets := rfl
  layout := by
    change some (first.layoutFor frame) = some (second.layoutFor frame)
    unfold layoutFor
    rw [hratio]
  drawnView := rfl

/-- A pass depends on its own inputs only. Assumes: two renderers have the same options and the same
device pixel ratio after any two runs. With the same frame, features and canvas a whole pass makes
the same calls and has the same result on both, and leaves the same boxes, counts, targets, layout
and drawn view, so that every click does the same. The same is true of a pass whose parts the host
calls itself, in any order, also if the pointer moves, leaves or clicks and the map becomes busy or
idle between them on one side and nothing comes between them on the other. -/
theorem pass_of_inputs (first second : Renderer α) (operations history : List (Operation α))
    (hoptions : (first.run operations).options = (second.run history).options)
    (hratio : (first.run operations).devicePixelRatio = (second.run history).devicePixelRatio)
    (canvas : Canvas α) (frame : Frame α) :
    (∀ features : List (Feature α),
      let pass := (first.run operations).drawPass canvas frame features
      let other := (second.run history).drawPass canvas frame features
      pass.calls = other.calls ∧ pass.result = other.result ∧
        SamePass pass.renderer other.renderer ∧
        ∀ point, pass.renderer.click point = other.renderer.click point) ∧
    ∀ calls : List (PassCall α),
      let mixed := ((first.run operations).beginPass frame).goThrough canvas calls
      let alone := ((second.run history).beginPass frame).goThrough canvas
        (calls.filter (·.isPart))
      mixed.calls = alone.calls ∧ mixed.answers = alone.answers ∧
        SamePass mixed.renderer alone.renderer ∧
        ∀ point, mixed.renderer.click point = alone.renderer.click point := by
  have hbegun : SamePass ((first.run operations).beginPass frame)
      ((second.run history).beginPass frame) := samePass_beginPass hoptions hratio frame
  have hlayout : (first.run operations).layoutFor frame = (second.run history).layoutFor frame :=
    Option.some.inj hbegun.layout
  refine ⟨fun features ↦ ?_, fun calls ↦ ?_⟩
  · unfold drawPass
    rw [hlayout]
    obtain ⟨hcalls, hresult, hfinal⟩ :=
      hbegun.drawLabels canvas ((second.run history).layoutFor frame) features
    exact ⟨hcalls, hresult, hfinal, hfinal.click_eq⟩
  · obtain ⟨hcalls, hanswers, hfinal⟩ := hbegun.goThrough_filter canvas calls
    exact ⟨hcalls, hanswers, hfinal, hfinal.click_eq⟩

/-- A renderer that has left a pass unfinished, with a feature hovered and the map busy, goes
through the next pass as a new one does, although the pointer leaves and clicks in the middle of it;
and so it does if the pass is drawn at once. -/
theorem pass_of_inputs_unfinished :
    let start : Renderer Float := .new .standard 32
    let frame : Frame Float := .padded ⟨0, 0⟩ ⟨200, 100⟩ 0.1 ⟨-22.68, 118.35⟩ 7
    let perth : Feature Float := .labelledCircle 1 ⟨0, 0⟩ "Perth"
    let used := start.run
      [.beginPass frame, .addTarget perth, .movePointer ⟨0, 0⟩ 0, .setBusy true]
    let canvas : Canvas Float := .monospaced 7 [] []
    used.hovered = some 1 ∧ used.targets.length = 1 ∧
      (let pass := used.drawPass canvas frame [perth]
        let other := start.drawPass canvas frame [perth]
        pass.calls = other.calls ∧ pass.result = other.result ∧
          pass.result = .ok [.drawn (labelBox ⟨0, 0⟩ ⟨8, 5⟩ 35)] ∧
          pass.renderer.counts = { features := 1, drawn := 1 } ∧
          pass.renderer.click ⟨0, 0⟩ = [.clicked 1]) ∧
      let mixed := (used.beginPass frame).goThrough canvas
        [.losePointer, .beforeShape perth, .click ⟨0, 0⟩, .afterShape perth]
      let alone := (start.beginPass frame).goThrough canvas [.beforeShape perth, .afterShape perth]
      mixed.calls = alone.calls ∧ mixed.renderer.placed = alone.renderer.placed ∧
        mixed.renderer.counts = { features := 1, drawn := 1 } ∧
        mixed.renderer.click ⟨0, 0⟩ = [.clicked 1] := by
  intro start frame perth used canvas
  let begun := (start.beginPass frame).addTarget perth
  obtain ⟨throttle, hovered, hkept⟩ := movePointer_keeps begun ⟨0, 0⟩ 0
  have hused : used = { (begun.movePointer ⟨0, 0⟩ 0).2 with busy := true } := rfl
  have hoptions : used.options = start.options := by rw [hused, hkept]; rfl
  have hratio : used.devicePixelRatio = start.devicePixelRatio := by rw [hused, hkept]; rfl
  obtain ⟨hwhole, hparts⟩ := pass_of_inputs start start _ [] hoptions hratio canvas frame
  refine ⟨by decide +kernel, by decide +kernel, ?whole, ?parts⟩
  case whole =>
    obtain ⟨hcalls, hresult, hsame, hclick⟩ := hwhole [perth]
    refine ⟨hcalls, hresult, hresult.trans ?_, hsame.counts.trans ?_, (hclick ⟨0, 0⟩).trans ?_⟩
    all_goals decide +kernel
  case parts =>
    obtain ⟨hcalls, -, hsame, hclick⟩ :=
      hparts [.losePointer, .beforeShape perth, .click ⟨0, 0⟩, .afterShape perth]
    refine ⟨hcalls, hsame.placed, hsame.counts.trans ?_, (hclick ⟨0, 0⟩).trans ?_⟩
    all_goals decide +kernel

end LabelledMap.Renderer
