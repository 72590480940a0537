import LabelledMap.Proofs.Surface.Element

/-!
# Pens

A context keeps its font, its opacity, its line width and its two colours from one call to the next,
so what a text looks like depends on every call made before. `Pen` holds these five, and
`Pen.after` is what a call does to them: setting one of them stores it, all other calls leave them
alone. Setting one cannot be refused (`CanvasCall.refusable`), so the pen after a list of calls does
not depend on the canvas.

Which texts are to be seen does. Calls are made up to the first one refused, so a call that was
followed by another was accepted (`Refusals.eq_none_of_attempt`). `Canvas.filled` are the texts that
a canvas has filled.
-/

set_option autoImplicit false

namespace LabelledMap

variable {α : Type}

/-- What a context draws texts with. -/
structure Pen (α : Type) where
  font : String
  opacity : α
  lineWidth : α
  strokeStyle : String
  fillStyle : String

/-- The pen after a call. -/
def Pen.after (pen : Pen α) : CanvasCall α → Pen α
  | .font name => { pen with font := name }
  | .alpha opacity => { pen with opacity }
  | .lineWidth width => { pen with lineWidth := width }
  | .strokeStyle color => { pen with strokeStyle := color }
  | .fillStyle color => { pen with fillStyle := color }
  | .measure _ | .strokeText _ _ | .fillText _ _ | .scale _ _ | .translate _ => pen

/-- The pen once calls have been made. -/
def Pen.afterAll (pen : Pen α) (calls : List (CanvasCall α)) : Pen α := calls.foldl after pen

theorem Pen.afterAll_append (pen : Pen α) (first second : List (CanvasCall α)) :
    pen.afterAll (first ++ second) = (pen.afterAll first).afterAll second :=
  List.foldl_append

namespace CanvasCall

/-- The point at which the call draws a text, if it draws one. -/
def textPoint? : CanvasCall α → Option (Point α)
  | strokeText _ position | fillText _ position => some position
  | _ => none

/-- The text that the call fills, if it fills one. -/
def filled? : CanvasCall α → Option String
  | fillText text _ => some text
  | _ => none

/-- Whether the call changes the coordinates of the context. -/
def movesContext : CanvasCall α → Bool
  | scale _ _ | translate _ => true
  | _ => false

theorem textPoint?_of_movesContext {call : CanvasCall α} (hmoves : call.movesContext = true) :
    call.textPoint? = none := by
  cases call with
  | strokeText | fillText => cases hmoves
  | font | measure | alpha | lineWidth | strokeStyle | fillStyle | scale | translate => rfl

theorem filled?_of_movesContext {call : CanvasCall α} (hmoves : call.movesContext = true) :
    call.filled? = none := by
  cases call with
  | fillText => cases hmoves
  | font | measure | alpha | lineWidth | strokeStyle | fillStyle | strokeText | scale | translate =>
    rfl

end CanvasCall

/-- A call that is attempted and followed by another has been accepted. -/
theorem Refusals.eq_none_of_attempt {call reason : Type} {refusals : Refusals call reason}
    {calls earlier later : List call} {next : call}
    (hmade : (refusals.attempt calls).1 = earlier ++ next :: later) (hlater : later ≠ []) :
    refusals earlier next = none := by
  induction calls generalizing refusals earlier with
  | nil => simp [attempt] at hmade
  | cons first rest ih =>
    unfold attempt at hmade
    cases hfirst : refusals [] first with
    | some reason =>
      -- The refused call is the last one, so nothing has been made after it.
      cases earlier with
      | nil => exact absurd (List.cons.inj (by simpa [hfirst] using hmade)).2.symm hlater
      | cons call earlier => simp [hfirst] at hmade
    | none =>
      simp only [hfirst] at hmade
      cases earlier with
      | nil =>
        obtain ⟨rfl, -⟩ := List.cons.inj hmade
        exact hfirst
      | cons call earlier =>
        obtain ⟨rfl, hrest⟩ := List.cons.inj hmade
        have haccepted : (refusals.after [first]) earlier next = none := ih hrest
        exact haccepted

/-- The texts that a canvas has filled in a list of calls, one after the other. -/
def Canvas.filled (canvas : Canvas α) (calls : List (CanvasCall α)) : List String :=
  (canvas.refusals.accepted calls).filterMap CanvasCall.filled?

theorem Canvas.filled_append (canvas : Canvas α) (first second : List (CanvasCall α)) :
    canvas.filled (first ++ second) =
      canvas.filled first ++ (canvas.after first).filled second := by
  unfold filled
  rw [Refusals.accepted_append, List.filterMap_append]
  rfl

theorem Canvas.filled_eq_nil {canvas : Canvas α} {calls : List (CanvasCall α)}
    (hcalls : ∀ call ∈ calls, call.filled? = none) : canvas.filled calls = [] :=
  List.filterMap_eq_nil_iff.mpr fun call hcall ↦
    hcalls call ((Refusals.accepted_sublist _ _).subset hcall)

end LabelledMap
