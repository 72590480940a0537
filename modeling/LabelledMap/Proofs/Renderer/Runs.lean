import LabelledMap.Proofs.Pass.Steps
import Mathlib.Data.List.Induction

/-!
# Runs of a renderer

Everything that can be done to a renderer, in any order. A `Renderer.Operation` is one call that may
change it; `Renderer.run` applies a list of them. Calls that only ask, such as where the overlay
goes or what a click does, are not operations.

What the renderer remembers of the view it was drawn for, and of the overlay's layout, is that of
the last pass that was begun, whatever else has been done since (`Renderer.remembered_run`).

Some laws are about what has been done since a certain kind of operation. `Renderer.noted` takes
notes along a run, and what fits a renderer and its notes at every operation does so over a run
(`Renderer.noted_run`).
-/

set_option autoImplicit false

namespace LabelledMap.Renderer

variable {α : Type} [Scalar α]

/-- A call that may change a renderer. -/
inductive Operation (α : Type) where
  /-- Other options, which are refused unless they can be drawn with. -/
  | setOptions (options : LabelOptions α)
  /-- Other options, whatever they are. -/
  | assignOptions (options : LabelOptions α)
  | setDevicePixelRatio (ratio : α)
  | setProjection (projection : Projection α)
  | setBusy (busy : Bool)
  | beginPass (frame : Frame α)
  | addTarget (feature : Feature α)
  | attemptLabel (canvas : Canvas α) (feature : Feature α)
  | drawLabels (canvas : Canvas α) (layout : Layout α) (features : List (Feature α))
  | drawPass (canvas : Canvas α) (frame : Frame α) (features : List (Feature α))
  | movePointer (point : Point α) (now : α)
  | losePointer

namespace Operation

/-- The renderer after an operation. -/
def apply (renderer : Renderer α) : Operation α → Renderer α
  | setOptions options => (renderer.setOptions options).toOption.getD renderer
  | assignOptions options => { renderer with options }
  | setDevicePixelRatio ratio => { renderer with devicePixelRatio := ratio }
  | setProjection projection => { renderer with projection }
  | setBusy busy => { renderer with busy }
  | beginPass frame => renderer.beginPass frame
  | addTarget feature => renderer.addTarget feature
  | attemptLabel canvas feature => renderer.afterAttempt (renderer.attemptLabel canvas feature)
  | drawLabels canvas layout features => (renderer.drawLabels canvas layout features).renderer
  | drawPass canvas frame features => (renderer.drawPass canvas frame features).renderer
  | movePointer point now => (renderer.movePointer point now).2
  | losePointer => renderer.losePointer.2

omit [Scalar α] in
/-- The frame of the pass that an operation begins. -/
def frame? : Operation α → Option (Frame α)
  | beginPass frame | drawPass _ frame _ => some frame
  | _ => none

end Operation

/-- The renderer after operations in order. -/
def run (renderer : Renderer α) (operations : List (Operation α)) : Renderer α :=
  operations.foldl Operation.apply renderer

omit [Scalar α] in
/-- The frame of the last pass that operations begin. -/
def lastFrame? (operations : List (Operation α)) : Option (Frame α) :=
  operations.reverse.findSome? Operation.frame?

/-! ### Notes along a run -/

/-- What has been noted after a run, where `note` adds to the notes what an operation does to a
renderer. -/
def noted {β : Type} (note : Renderer α → Operation α → β → β) (renderer : Renderer α) (notes : β) :
    List (Operation α) → β
  | [] => notes
  | operation :: rest =>
    noted note (operation.apply renderer) (note renderer operation notes) rest

/-- What fits a renderer and its notes fits them after every run if it does after every operation.
-/
theorem noted_run {β : Type} {note : Renderer α → Operation α → β → β}
    {Fits : Renderer α → β → Prop}
    (hstep : ∀ renderer notes operation, Fits renderer notes →
      Fits (operation.apply renderer) (note renderer operation notes))
    {renderer : Renderer α} {notes : β} (hfits : Fits renderer notes)
    (operations : List (Operation α)) :
    Fits (renderer.run operations) (renderer.noted note notes operations) := by
  induction operations generalizing renderer notes with
  | nil => exact hfits
  | cons operation rest ih => exact ih (hstep renderer notes operation hfits)

/-! ### What is remembered of the last pass -/

/-- Setting options changes at most the options. -/
theorem apply_setOptions (renderer : Renderer α) (options : LabelOptions α) :
    ∃ kept, (Operation.setOptions options).apply renderer = { renderer with options := kept } := by
  change ∃ kept, (renderer.setOptions options).toOption.getD renderer = _
  unfold setOptions
  cases options.validate with
  | error fault => exact ⟨renderer.options, rfl⟩
  | ok valid => exact ⟨options, rfl⟩

/-- A sample of the pointer changes at most the throttle and the hovered feature. -/
theorem movePointer_keeps (renderer : Renderer α) (point : Point α) (now : α) :
    ∃ throttle hovered,
      (renderer.movePointer point now).2 = { renderer with throttle, hovered } := by
  unfold movePointer
  split_ifs
  · exact ⟨_, _, rfl⟩
  · exact ⟨_, _, rfl⟩
  · exact ⟨_, _, rfl⟩

/-- An operation that begins no pass keeps what is remembered of the last one. -/
theorem apply_of_frame_eq_none (renderer : Renderer α) {operation : Operation α}
    (hframe : operation.frame? = none) :
    (operation.apply renderer).drawnView = renderer.drawnView ∧
      (operation.apply renderer).layout = renderer.layout := by
  cases operation with
  | beginPass frame => cases hframe
  | drawPass canvas frame features => cases hframe
  | setOptions options =>
    obtain ⟨kept, hkept⟩ := apply_setOptions renderer options
    rw [hkept]
    exact ⟨rfl, rfl⟩
  | drawLabels canvas layout features =>
    obtain ⟨placed, targets, counts, hkept⟩ := drawLabels_keeps renderer canvas layout features
    simp only [Operation.apply, hkept, and_self]
  | movePointer point now =>
    obtain ⟨throttle, hovered, hkept⟩ := movePointer_keeps renderer point now
    simp only [Operation.apply, hkept, and_self]
  | _ => exact ⟨rfl, rfl⟩

/-- An operation that begins a pass leaves what is remembered of its frame. -/
theorem apply_of_frame_eq_some (renderer : Renderer α) {operation : Operation α}
    {frame : Frame α} (hframe : operation.frame? = some frame) :
    (operation.apply renderer).drawnView = some (.ofFrame frame) ∧
      (operation.apply renderer).layout = some (renderer.layoutFor frame) := by
  cases operation with
  | beginPass begun =>
    obtain rfl : begun = frame := Option.some.inj hframe
    exact ⟨rfl, rfl⟩
  | drawPass canvas begun features =>
    obtain rfl : begun = frame := Option.some.inj hframe
    obtain ⟨placed, targets, counts, hkept⟩ := renderer.drawPass_keeps canvas begun features
    simp only [Operation.apply, hkept]
    exact ⟨rfl, rfl⟩
  | _ => cases hframe

/-- What a renderer remembers after a run is of the last pass that was begun. -/
theorem remembered_run (renderer : Renderer α) {operations : List (Operation α)} {frame : Frame α}
    (hframe : lastFrame? operations = some frame) :
    (renderer.run operations).drawnView = some (.ofFrame frame) ∧
      ∃ ratio, (renderer.run operations).layout = some (.ofFrame frame ratio) := by
  -- From the end: the last operation begins the pass, or it keeps what is remembered.
  induction operations using List.reverseRecOn with
  | nil => cases hframe
  | append_singleton before last ih =>
    unfold run at ih ⊢
    rw [List.foldl_append, List.foldl_cons, List.foldl_nil]
    unfold lastFrame? at hframe ih
    rw [List.reverse_concat, List.findSome?_cons] at hframe
    cases hlast : last.frame? with
    | none =>
      rw [hlast] at hframe
      obtain ⟨hdrawn, hlayout⟩ :=
        apply_of_frame_eq_none (before.foldl Operation.apply renderer) hlast
      rw [hdrawn, hlayout]
      exact ih hframe
    | some begun =>
      rw [hlast] at hframe
      obtain rfl : begun = frame := Option.some.inj hframe
      obtain ⟨hdrawn, hlayout⟩ :=
        apply_of_frame_eq_some (before.foldl Operation.apply renderer) hlast
      exact ⟨hdrawn, _, hlayout⟩

end LabelledMap.Renderer
