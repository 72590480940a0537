import LabelledMap.Proofs.Pass.Labelling
import LabelledMap.Scalar.Double
import Mathlib.Data.List.TFAE
import Mathlib.Tactic.TFAE

/-!
# Labels that fail

A label can fail at three points: while its text is measured, while the line around it is drawn, and
while it is filled. A label that fails at the first has asked for no box, and the pass goes on as if
its feature were not there. One that fails later has got its box before, and keeps it: nothing is
seen of it, but labels that come later may be left out for its sake.

`failures_isolated_tfae` says exactly when failures are without consequence, on a canvas that
answers by the text. The number of boxes is the number of labels drawn and of those refused in the
drawing; the labels that failed to be measured can always be left out; and that no label was refused
in the drawing is the same as each of: every failed label left the boxes as it found them, the pass
without the failed features goes as before for all others, there are as many boxes as labels drawn.
-/

set_option autoImplicit false

namespace LabelledMap

variable {α : Type} [Scalar α] {canvas : Canvas α} {options : LabelOptions α}

/-- Whether the label of a feature failed although it had asked for a box. -/
def refusedInDrawing (canvas : Canvas α) (options : LabelOptions α)
    (entry : Feature α × LabelOutcome α) : Bool :=
  entry.2.isFailed && (askedBox? canvas options entry.1).isSome

/-- The boxes placed are those of the labels drawn and of the labels refused in the drawing. -/
theorem size_labelAll (placed : PlacedLabels α) (features : List (Feature α)) :
    let labelled := labelAll canvas options placed features
    labelled.2.size = placed.size + labelled.1.countP (·.isDrawn) +
      (features.zip labelled.1).countP (refusedInDrawing canvas options) := by
  induction features generalizing placed with
  | nil => rfl
  | cons feature rest ih =>
    have hstep : (drawLabel canvas options placed feature).placed.size = placed.size +
        (if (drawLabel canvas options placed feature).outcome.isDrawn then 1 else 0) +
        (if refusedInDrawing canvas options
          (feature, (drawLabel canvas options placed feature).outcome) then 1 else 0) :=
      (labelStep_drawLabel canvas options placed feature).size_eq
    simp only [labelAll, List.zip_cons_cons, List.countP_cons, ih, hstep]
    omega

/-- A failed label is refused in the drawing unless it asked for no box. -/
theorem not_refusedInDrawing_iff {entry : Feature α × LabelOutcome α} :
    refusedInDrawing canvas options entry = false ↔
      (entry.2.isFailed = true → askedBox? canvas options entry.1 = none) := by
  unfold refusedInDrawing
  cases entry.2.isFailed <;> simp

section Passes

variable {renderer : Renderer α} {frame : Frame α} {features : List (Feature α)}
  {outcomes : List (LabelOutcome α)}

/-- Where the context can be prepared for one list of features, every pass is a labelling. -/
theorem Canvas.TextOnly.drawPass_eq_labelAll (htext : canvas.TextOnly)
    (hresult : (renderer.drawPass canvas frame features).result = .ok outcomes)
    (other : List (Feature α)) :
    (renderer.drawPass canvas frame other).result =
        .ok (labelAll canvas renderer.options ∅ other).1 ∧
      (renderer.drawPass canvas frame other).renderer.placed =
        (labelAll canvas renderer.options ∅ other).2 :=
  htext.drawPass_again rfl (Or.inl rfl) hresult other

/-- The boxes placed by a pass are those of the labels drawn and of the labels refused in the
drawing. -/
theorem size_drawPass (htext : canvas.TextOnly)
    (hresult : (renderer.drawPass canvas frame features).result = .ok outcomes) :
    (renderer.drawPass canvas frame features).renderer.placed.size =
      (renderer.drawPass canvas frame features).renderer.counts.drawn +
        (features.zip outcomes).countP (refusedInDrawing canvas renderer.options) := by
  obtain ⟨houtcomes, hplaced⟩ := htext.drawPass_eq_labelAll hresult features
  obtain rfl : outcomes = (labelAll canvas renderer.options ∅ features).1 :=
    Except.ok.inj (hresult.symm.trans houtcomes)
  rw [Renderer.drawn_of_drawPass_eq_ok hresult, hplaced, size_labelAll]
  congr 1
  exact Nat.zero_add _

/-- A pass goes as before without features that failed before they asked for a box. Assumes: each
feature that does not have the property is one of those. -/
theorem drawPass_filter (htext : canvas.TextOnly)
    (hresult : (renderer.drawPass canvas frame features).result = .ok outcomes)
    (property : Feature α × LabelOutcome α → Bool)
    (hidle : ∀ entry ∈ features.zip outcomes, property entry = false →
      askedBox? canvas renderer.options entry.1 = none) :
    let kept := (features.zip outcomes).filter property
    (renderer.drawPass canvas frame (kept.map Prod.fst)).result = .ok (kept.map Prod.snd) ∧
      (renderer.drawPass canvas frame (kept.map Prod.fst)).renderer.placed =
        (renderer.drawPass canvas frame features).renderer.placed := by
  obtain ⟨houtcomes, hplaced⟩ := htext.drawPass_eq_labelAll hresult features
  obtain rfl : outcomes = (labelAll canvas renderer.options ∅ features).1 :=
    Except.ok.inj (hresult.symm.trans houtcomes)
  intro kept
  obtain ⟨hresultKept, hplacedKept⟩ := htext.drawPass_eq_labelAll hresult (kept.map Prod.fst)
  have hkept := labelAll_filter property fun entry hentry hflag ↦
    Or.inl (hidle entry hentry hflag)
  rw [hresultKept, hplacedKept, hplaced, hkept]
  exact ⟨rfl, rfl⟩

/-- No label was refused in the drawing just if there are as many boxes as labels counted as drawn.
-/
theorem size_eq_drawn_iff (htext : canvas.TextOnly)
    (hresult : (renderer.drawPass canvas frame features).result = .ok outcomes) :
    (renderer.drawPass canvas frame features).renderer.placed.size =
        (renderer.drawPass canvas frame features).renderer.counts.drawn ↔
      ∀ entry ∈ features.zip outcomes, refusedInDrawing canvas renderer.options entry = false := by
  rw [size_drawPass htext hresult, Nat.add_eq_left, List.countP_eq_zero]
  simp only [Bool.not_eq_true]

/-- One feature of a pass makes a step by what it asks for at any time. -/
theorem labelStep_of_textOnly (htext : canvas.TextOnly)
    (hresult : (renderer.drawPass canvas frame features).result = .ok outcomes) {index : Nat}
    {feature : Feature α} {outcome : LabelOutcome α} (hfeature : features[index]? = some feature)
    (houtcome : outcomes[index]? = some outcome) :
    LabelStep renderer.options.collision
      (renderer.drawPass canvas frame (features.take index)).renderer.placed
      (askedBox? canvas renderer.options feature) outcome
      (renderer.drawPass canvas frame (features.take (index + 1))).renderer.placed := by
  have hindex : index < features.length := (List.getElem?_eq_some_iff.mp hfeature).1
  obtain ⟨found, hfound, hstep⟩ := Renderer.labelStep_drawPass hresult hindex
  obtain rfl : outcome = found := Option.some.inj (houtcome.symm.trans hfound)
  unfold Renderer.askedBox? at hstep
  rwa [hfeature, Option.bind_some, htext.askedBox?_after] at hstep

/-- No label was refused in the drawing just if every failed label left the boxes as they were. -/
theorem placed_unchanged_iff (htext : canvas.TextOnly)
    (hresult : (renderer.drawPass canvas frame features).result = .ok outcomes) :
    (∀ index outcome, outcomes[index]? = some outcome → outcome.isFailed = true →
      (renderer.drawPass canvas frame (features.take (index + 1))).renderer.placed =
        (renderer.drawPass canvas frame (features.take index)).renderer.placed) ↔
      ∀ entry ∈ features.zip outcomes, refusedInDrawing canvas renderer.options entry = false := by
  constructor
  · rintro hstill ⟨feature, outcome⟩ hentry
    obtain ⟨index, hindex⟩ := List.mem_iff_getElem?.mp hentry
    obtain ⟨hfeature, houtcome⟩ := List.getElem?_zip_eq_some.mp hindex
    have hsize := (labelStep_of_textOnly htext hresult hfeature houtcome).size_eq
    rw [not_refusedInDrawing_iff]
    intro hfailed
    rw [hstill index outcome houtcome hfailed, hfailed] at hsize
    cases hasked : askedBox? canvas renderer.options feature with
    | none => rfl
    | some box =>
      simp only [hasked, Option.isSome_some, Bool.and_self, ↓reduceIte] at hsize
      omega
  · intro hnone index outcome houtcome hfailed
    have hindex : index < features.length :=
      Renderer.length_of_drawPass_eq_ok hresult ▸ (List.getElem?_eq_some_iff.mp houtcome).1
    have hfeature := List.getElem?_eq_getElem hindex
    have hentry : (features[index], outcome) ∈ features.zip outcomes :=
      List.mem_of_getElem? (List.getElem?_zip_eq_some.mpr ⟨hfeature, houtcome⟩)
    have hasked := not_refusedInDrawing_iff.mp (hnone _ hentry) hfailed
    exact (labelStep_of_textOnly htext hresult hfeature houtcome).placed_eq (Or.inl hasked)

omit [Scalar α] in
/-- The drawn labels are among those that have not failed. -/
theorem countP_isDrawn_unfailed (hlength : outcomes.length = features.length) :
    (((features.zip outcomes).filter fun entry ↦ !entry.2.isFailed).map Prod.snd).countP
        (·.isDrawn) = outcomes.countP (·.isDrawn) := by
  have hdrawn : ∀ outcome : LabelOutcome α,
      (outcome.isDrawn && !outcome.isFailed) = outcome.isDrawn := by
    intro outcome
    cases outcome <;> rfl
  calc (((features.zip outcomes).filter fun entry ↦ !entry.2.isFailed).map Prod.snd).countP
        (·.isDrawn)
      = ((features.zip outcomes).map Prod.snd).countP (·.isDrawn) := by
        simp only [List.countP_map, List.countP_filter, Function.comp_def, hdrawn]
    _ = outcomes.countP (·.isDrawn) := by rw [List.map_snd_zip (Nat.le_of_eq hlength)]

/-- If the pass without the failed features places the same boxes, there are as many boxes as labels
counted as drawn. -/
theorem size_eq_drawn_of_unfailed (htext : canvas.TextOnly)
    (hresult : (renderer.drawPass canvas frame features).result = .ok outcomes)
    (hunfailed : let unfailed := (features.zip outcomes).filter fun entry ↦ !entry.2.isFailed
      (renderer.drawPass canvas frame (unfailed.map Prod.fst)).result =
          .ok (unfailed.map Prod.snd) ∧
        (renderer.drawPass canvas frame (unfailed.map Prod.fst)).renderer.placed =
          (renderer.drawPass canvas frame features).renderer.placed) :
    (renderer.drawPass canvas frame features).renderer.placed.size =
      (renderer.drawPass canvas frame features).renderer.counts.drawn := by
  obtain ⟨hresultUnfailed, hplaced⟩ := hunfailed
  have hsize := (size_eq_drawn_iff htext hresultUnfailed).mpr fun entry hentry ↦ by
    rw [List.zip_map', List.map_id'' fun _ ↦ rfl] at hentry
    rw [not_refusedInDrawing_iff]
    intro hfailed
    simp [hfailed] at hentry
  rw [← hplaced, hsize, Renderer.drawn_of_drawPass_eq_ok hresultUnfailed,
    Renderer.drawn_of_drawPass_eq_ok hresult,
    countP_isDrawn_unfailed (Renderer.length_of_drawPass_eq_ok hresult)]

/-- When failures are without consequence, on a canvas that answers by the text. Assumes: the
context could be prepared. The boxes in place are those of the labels drawn and of the labels
refused in the drawing, and features that failed to be measured can be left out. That no label was
refused in the drawing says as much as each of: every failed label left the boxes as they were
before it; without the failed features all others have the same outcomes and the same boxes are
placed; there are as many boxes as labels counted as drawn. -/
theorem failures_isolated_tfae (renderer : Renderer α) (canvas : Canvas α) (frame : Frame α)
    (features : List (Feature α)) (outcomes : List (LabelOutcome α)) (htext : canvas.TextOnly)
    (hresult : (renderer.drawPass canvas frame features).result = .ok outcomes) :
    let pass := fun list ↦ renderer.drawPass canvas frame list
    let entries := features.zip outcomes
    let refused := refusedInDrawing canvas renderer.options
    let measured := entries.filter fun entry ↦ !entry.2.isFailed || refused entry
    let unfailed := entries.filter fun entry ↦ !entry.2.isFailed
    (pass features).renderer.placed.size =
        (pass features).renderer.counts.drawn + entries.countP refused ∧
      (pass (measured.map Prod.fst)).result = .ok (measured.map Prod.snd) ∧
      (pass (measured.map Prod.fst)).renderer.placed = (pass features).renderer.placed ∧
      List.TFAE [
        ∀ entry ∈ entries, refused entry = false,
        ∀ index outcome, outcomes[index]? = some outcome → outcome.isFailed = true →
          (pass (features.take (index + 1))).renderer.placed =
            (pass (features.take index)).renderer.placed,
        (pass (unfailed.map Prod.fst)).result = .ok (unfailed.map Prod.snd) ∧
          (pass (unfailed.map Prod.fst)).renderer.placed = (pass features).renderer.placed,
        (pass features).renderer.placed.size = (pass features).renderer.counts.drawn] := by
  intro pass entries refused measured unfailed
  have hmeasured := drawPass_filter htext hresult (fun entry ↦ !entry.2.isFailed || refused entry)
    fun entry _ hflag ↦ by
      simp only [Bool.or_eq_false_iff, Bool.not_eq_false'] at hflag
      exact not_refusedInDrawing_iff.mp hflag.2 hflag.1
  refine ⟨size_drawPass htext hresult, hmeasured.1, hmeasured.2, ?_⟩
  tfae_have 2 ↔ 1 := placed_unchanged_iff htext hresult
  tfae_have 4 ↔ 1 := size_eq_drawn_iff htext hresult
  tfae_have 3 → 4 := size_eq_drawn_of_unfailed htext hresult
  tfae_have 1 → 3 := fun hnone ↦ drawPass_filter htext hresult _ fun entry hentry hflag ↦
    not_refusedInDrawing_iff.mp (hnone entry hentry) (by simpa using hflag)
  tfae_finish

/-- A label that cannot be measured is without consequence: the one that would meet its box is
drawn. -/
theorem failures_isolated_unmeasured :
    let renderer : Renderer Float := .new .standard 32
    let canvas : Canvas Float := .monospaced 7 ["Perth"] []
    let frame : Frame Float := .padded ⟨0, 0⟩ ⟨200, 100⟩ 0.1 ⟨-22.68, 118.35⟩ 7
    let features : List (Feature Float) :=
      [.labelledCircle 1 ⟨0, 0⟩ "Perth", .labelledCircle 2 ⟨5, 0⟩ "Cossack"]
    let pass := fun list ↦ renderer.drawPass canvas frame list
    canvas.TextOnly ∧ (pass features).renderer.counts = { features := 2, drawn := 1, failed := 1 } ∧
      ∃ outcomes, (pass features).result = .ok outcomes ∧
        let unfailed := (features.zip outcomes).filter fun entry ↦ !entry.2.isFailed
        (pass (unfailed.map Prod.fst)).result = .ok (unfailed.map Prod.snd) ∧
          (pass (unfailed.map Prod.fst)).renderer.placed = (pass features).renderer.placed := by
  intro renderer canvas frame features pass
  have htext : canvas.TextOnly := (Canvas.steady_monospaced 7 ["Perth"] []).toTextOnly
  have hsize : (pass features).renderer.placed.size = (pass features).renderer.counts.drawn := by
    decide +kernel
  refine ⟨htext, by decide +kernel, ?_⟩
  cases hresult : (pass features).result with
  | error fault =>
    have hok : (pass features).result.toBool = true := by decide +kernel
    rw [hresult] at hok
    cases hok
  | ok outcomes =>
    have htfae :=
      (failures_isolated_tfae renderer canvas frame features outcomes htext hresult).2.2.2
    exact ⟨outcomes, rfl, (htfae.out 3 2).mp hsize⟩

/-- A label that cannot be filled is not: it keeps its box though nothing is drawn, and the label
that meets the box is left out, which is drawn where the first label is not tried. -/
theorem refused_label_displaces :
    let renderer : Renderer Float := .new .standard 32
    let canvas : Canvas Float := .monospaced 7 [] ["Perth"]
    let frame : Frame Float := .padded ⟨0, 0⟩ ⟨200, 100⟩ 0.1 ⟨-22.68, 118.35⟩ 7
    let perth : Feature Float := .labelledCircle 1 ⟨0, 0⟩ "Perth"
    let cossack : Feature Float := .labelledCircle 2 ⟨5, 0⟩ "Cossack"
    let pass := fun list ↦ renderer.drawPass canvas frame list
    canvas.TextOnly ∧
      (pass [perth]).renderer.counts = { features := 1, failed := 1 } ∧
      (pass []).renderer.placed.size = 0 ∧ (pass [perth]).renderer.placed.size = 1 ∧
      (pass [perth, cossack]).renderer.counts = { features := 2, collided := 1, failed := 1 } ∧
      (pass [perth, cossack]).renderer.placed.size = 1 ∧
      (pass [cossack]).renderer.counts = { features := 1, drawn := 1 } := by
  intro renderer canvas frame perth cossack pass
  refine ⟨(Canvas.steady_monospaced 7 [] ["Perth"]).toTextOnly, ?_⟩
  decide +kernel

end Passes

end LabelledMap
