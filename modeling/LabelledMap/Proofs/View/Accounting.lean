import LabelledMap.Proofs.View.Runs
import Mathlib.Data.Finset.Card

/-!
# What a view has received

However the places of responses repeat and contradict each other, within a response or from one to
the next, and however markers are taken in between: a view has the first copy of each place that it
has received, in the order of arrival, and hands over one marker for each (`MapView.accounting`).
-/

set_option autoImplicit false

namespace LabelledMap.MapView

variable {α : Type} [Legible α]

omit [Legible α] in
/-- The summary of a response tells by how much the number of places has grown. -/
theorem ingest_summary {view : MapView α} (hview : view.Sound) (response : Response α) :
    ∃ summary next, view.ingest response = .ok (summary, next) ∧
      summary.received = response.places.length ∧ next.count = view.count + summary.new ∧
      summary.total = next.count := by
  obtain ⟨next, hnext, hgrows⟩ := ingest_spec hview response
  refine ⟨_, next, hnext, rfl, ?_, rfl⟩
  unfold count
  rw [hgrows.order hview, List.length_append, List.length_map]

/-- What a view has after any run. No run is ended. The places are the first copies of those that
were received, in the order of arrival, no two with the same identifier; each is found under its
identifier, and nothing under others; they are as many as identifiers were received. The markers
that were taken, and after them those still to be taken, are one for each place in the order of
places, with its location and its icon; if they are taken once more, all of these have been taken
and none is left, and nothing else has changed. Of any further response, and so of each one in the
run, the summary tells how many places it held, how many more there are and how many there are
then. -/
theorem accounting (options : MapOptions α) (operations : List (Operation α)) :
    ∃ view, (new options).run operations = .ok view ∧
      view.places = firstCopies (·.id) (received operations) ∧
      (view.places.map (·.id)).Nodup ∧
      (∀ id, view.place? id = (received operations).find? (·.id == id)) ∧
      view.count = ((received operations).map (·.id)).toFinset.card ∧
      (new options).taken operations ++ view.markers =
        view.places.map (fun place ↦ ⟨place.id, place.location, place.icon⟩) ∧
      ((new options).taken (operations ++ [.takeMarkers]) =
          view.places.map (fun place ↦ ⟨place.id, place.location, place.icon⟩) ∧
        (new options).run (operations ++ [.takeMarkers]) = .ok { view with markers := [] }) ∧
      ∀ response, ∃ summary next, view.ingest response = .ok (summary, next) ∧
        summary.received = response.places.length ∧ next.count = view.count + summary.new ∧
        summary.total = next.count := by
  obtain ⟨view, hrun, hadvances⟩ := run_advances (sound_new options) operations
  have hplaces : view.places = firstCopies (·.id) (received operations) := by
    rw [hadvances.places]
    exact newcomers_nil _
  have hnodup : (view.places.map (·.id)).Nodup := hplaces ▸ nodup_map_firstCopies _ _
  have hmarkers : (new options).taken operations ++ view.markers =
      view.places.map fun place ↦ ⟨place.id, place.location, place.icon⟩ := by
    rw [hadvances.markers, hplaces, ← newcomers_nil]
    rfl
  refine ⟨view, hrun, hplaces, hnodup, fun id ↦ ?_, ?_, hmarkers, ⟨?_, ?_⟩,
    ingest_summary hadvances.sound⟩
  · rw [hadvances.sound.cache, hplaces]
    exact find_firstCopies _ _ id
  · have hids : ((received operations).map (·.id)).toFinset = view.order.toFinset := by
      ext id
      rw [List.mem_toFinset, List.mem_toFinset, ← hadvances.sound.order, hplaces,
        mem_map_firstCopies]
    rw [hids, List.toFinset_card_of_nodup hadvances.sound.nodup]
    rfl
  · rw [taken_append hrun, ← hmarkers]
    change (new options).taken operations ++ (view.markers ++ []) = _
    rw [List.append_nil]
  · rw [run_append hrun]
    rfl

end LabelledMap.MapView
