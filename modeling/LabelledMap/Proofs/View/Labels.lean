import LabelledMap.Decimal.Double
import LabelledMap.Proofs.Pass.Labelling
import LabelledMap.Proofs.View.Runs
import LabelledMap.Scalar.Double

/-!
# Labels stay while places arrive

The labels of a view are placed in the order in which their places arrived, and a view that takes in
a response only grows at its end. So the features to be drawn are the old ones and then those of new
places (`MapView.Grows.features_eq`): new filter rows hide nothing and bring nothing back. On a
canvas that answers by the text the old features then have the labels they had, in the same boxes.

`MapView.labels_stable` says so of every view that can be reached and of every response.
-/

set_option autoImplicit false

namespace LabelledMap.MapView

variable {α : Type} {view next : MapView α} {added : List (Place α)} {offered : List Language}

/-- The filters let the same places through. -/
theorem Grows.shows_eq (hgrows : view.Grows added offered next) : next.shows = view.shows := by
  funext place
  unfold shows
  rw [hgrows.filters.isEnabled_eq, hgrows.filters.isEnabled_eq]

/-- The features of the new places that the filters let through come after the old features. -/
theorem Grows.features_eq [Scalar α] (hgrows : view.Grows added offered next)
    (project : LatLng α → Point α) :
    next.features project =
      view.features project ++ (added.filter next.shows).map (dot project) := by
  unfold features
  rw [hgrows.places, List.filter_append, List.map_append, hgrows.shows_eq]

/-- Labels that are shown stay while places arrive. Assumes: the view can be reached from a view
without places. Every response is taken in, and behind the places of the view come some of the
response that it did not know. Behind the old features come those of new places, for every
projection. So two passes for one frame, before and after, with the same options and pixel ratio,
give the old features the same outcomes, and the boxes placed before come first, on a canvas that
answers by the text: on the same canvas, or after any calls if it does not look back at all. -/
theorem labels_stable [Scalar α] [Legible α] (view : MapView α) (hview : view.Reachable)
    (response : Response α) :
    ∃ summary next added, view.ingest response = .ok (summary, next) ∧
      next.places = view.places ++ added ∧ added.Sublist response.places ∧
      (∀ place ∈ added, view.place? place.id = none) ∧
      ∀ project : LatLng α → Point α,
        next.features project =
            view.features project ++ (added.filter next.shows).map (dot project) ∧
          ∀ (first second : Renderer α) (canvas : Canvas α) (made : List (CanvasCall α))
            (frame : Frame α), second.options = first.options →
            second.devicePixelRatio = first.devicePixelRatio → canvas.TextOnly →
            made = [] ∨ canvas.Steady →
            let before := first.drawPass canvas frame (view.features project)
            let after := second.drawPass (canvas.after made) frame (next.features project)
            after.result.map (·.take (view.features project).length) = before.result ∧
              before.renderer.placed.boxes <+: after.renderer.placed.boxes := by
  obtain ⟨summary, next, added, hingest, hgrows, hadded⟩ := ingest_grows hview.sound response
  refine ⟨summary, next, added, hingest, hgrows.places, hadded, hgrows.fresh, fun project ↦ ?_⟩
  have hfeatures := hgrows.features_eq project
  refine ⟨hfeatures, ?_⟩
  intro first second canvas made frame hoptions hratio htext hmade
  rw [hfeatures]
  exact htext.drawPass_extend hoptions hratio hmade frame _ _

/-- A place arrives after another has been drawn, with a copy of the other that lies elsewhere and
is in another category. The copy is left out, and the label of the first place stays in its box. -/
theorem labels_stable_copy :
    let start : MapView Float := .new .standard
    let perth : Place Float :=
      { id := 1, location := ⟨-31.95, 115.86⟩, names := [⟨"Perth", ⟨1, "English", "red"⟩⟩] }
    let cossack : Place Float :=
      { id := 2, location := ⟨-20.68, 117.19⟩, names := [⟨"Cossack", ⟨1, "English", "blue"⟩⟩] }
    let copy : Place Float := { perth with location := ⟨0, 0⟩, category := "town" }
    let canvas : Canvas Float := .monospaced 7 [] []
    let frame : Frame Float := .padded ⟨0, 0⟩ ⟨200, 100⟩ 0.1 ⟨-22.68, 118.35⟩ 7
    let project : LatLng Float → Point Float := fun place ↦ ⟨place.lng, -place.lat⟩
    let pass := fun (view : MapView Float) canvas ↦
      view.renderer.drawPass canvas frame (view.features project)
    let box : Rect Float := labelBox ⟨115.86, 31.95⟩ ⟨10, 5⟩ 35
    ∃ view summary next, start.run [.ingest { places := [perth] }, .takeMarkers] = .ok view ∧
      view.ingest { places := [copy, cossack] } = .ok (summary, next) ∧
      summary = { received := 2, new := 1, total := 2 } ∧
      let before := pass view canvas
      let after := view.renderer.drawPass (canvas.after before.calls) frame (next.features project)
      before.result = .ok [.drawn box] ∧ before.renderer.placed.boxes = [box] ∧
        after.result.map (·.take 1) = .ok [.drawn box] ∧
        [box] <+: after.renderer.placed.boxes := by
  intro start perth cossack copy canvas frame project pass box
  have hsummary :
      ((start.run [.ingest { places := [perth] }, .takeMarkers]).toOption.bind fun view ↦
        (view.ingest { places := [copy, cossack] }).toOption.map Prod.fst) =
          some { received := 2, new := 1, total := 2 } := by
    decide +kernel
  have hpass :
      ((start.run [.ingest { places := [perth] }, .takeMarkers]).toOption.map fun view ↦
        ((view.features project).length, (pass view canvas).result,
          (pass view canvas).renderer.placed.boxes)) = some (1, .ok [.drawn box], [box]) := by
    decide +kernel
  cases hrun : start.run [.ingest { places := [perth] }, .takeMarkers] with
  | error fault =>
    rw [hrun] at hsummary
    cases hsummary
  | ok view =>
    obtain ⟨summary, next, added, hingest, -, -, -, hpasses⟩ :=
      labels_stable view ⟨.standard, _, hrun⟩ { places := [copy, cossack] }
    simp only [hrun, hingest, Except.toOption, Option.bind_some, Option.map_some,
      Option.some.injEq, Prod.mk.injEq] at hsummary hpass
    obtain ⟨hcount, hdrawn, hboxes⟩ := hpass
    have hsteady : canvas.Steady := Canvas.steady_monospaced 7 [] []
    obtain ⟨houtcomes, hplaced⟩ := (hpasses project).2 view.renderer view.renderer canvas
      (pass view canvas).calls frame rfl rfl hsteady.toTextOnly (Or.inr hsteady)
    rw [hcount] at houtcomes
    exact ⟨view, summary, next, rfl, hingest, hsummary, hdrawn, hboxes, houtcomes.trans hdrawn,
      hboxes ▸ hplaced⟩

end LabelledMap.MapView
