import LabelledMap.Proofs.Pass.Steps

/-!
# Labelling on a canvas that answers by the text

On a canvas that answers by the text, what becomes of a pass's labels does not depend on the calls
it makes: `labelAll` goes through the features with the boxes placed so far and one canvas that
never changes. `Canvas.TextOnly.result_drawPass` and `Canvas.TextOnly.placed_drawPass` say that a
pass has the outcomes and places the boxes that `labelAll` computes, unless its context cannot be
prepared.

Two passes are then compared by comparing two runs of `labelAll`. Features that take up no room can
be left out one and all, in any selection, without consequence for the others (`labelAll_select`).
More features at the end leave the first outcomes and boxes as they are (`labelAll_append`,
`prefix_boxes_labelAll`), also in a later pass (`Canvas.TextOnly.drawPass_extend`).
-/

set_option autoImplicit false

namespace LabelledMap

variable {α : Type} [Scalar α]

/-! ### Labels in order -/

/-- The outcomes of the labels of features in order, and the boxes placed after them. -/
def labelAll (canvas : Canvas α) (options : LabelOptions α) (placed : PlacedLabels α) :
    List (Feature α) → List (LabelOutcome α) × PlacedLabels α
  | [] => ([], placed)
  | feature :: rest =>
    let attempt := drawLabel canvas options placed feature
    let later := labelAll canvas options attempt.placed rest
    (attempt.outcome :: later.1, later.2)

variable {canvas : Canvas α} {options : LabelOptions α}

theorem labelAll_append (placed : PlacedLabels α) (first second : List (Feature α)) :
    labelAll canvas options placed (first ++ second) =
      let begun := labelAll canvas options placed first
      let rest := labelAll canvas options begun.2 second
      (begun.1 ++ rest.1, rest.2) := by
  induction first generalizing placed with
  | nil => rfl
  | cons feature first ih => simp only [List.cons_append, labelAll, ih]

@[simp] theorem length_labelAll (placed : PlacedLabels α) (features : List (Feature α)) :
    (labelAll canvas options placed features).1.length = features.length := by
  induction features generalizing placed with
  | nil => rfl
  | cons feature rest ih => simp only [labelAll, List.length_cons, ih]

/-- Boxes are placed behind those placed before. -/
theorem prefix_boxes_labelAll (placed : PlacedLabels α) (features : List (Feature α)) :
    placed.boxes <+: (labelAll canvas options placed features).2.boxes := by
  induction features generalizing placed with
  | nil => exact List.prefix_refl _
  | cons feature rest ih =>
    exact (labelStep_drawLabel canvas options placed feature).prefix_boxes.trans (ih _)

/-! ### Leaving features out -/

/-- The items whose flag is set. -/
def select {ι : Type} (keep : List Bool) (items : List ι) : List ι :=
  ((items.zip keep).filter (·.2)).map Prod.fst

theorem select_cons {ι : Type} (flag : Bool) (keep : List Bool) (item : ι) (items : List ι) :
    select (flag :: keep) (item :: items) =
      if flag then item :: select keep items else select keep items := by
  unfold select
  cases flag <;> simp

/-- Selecting by a property is filtering. -/
theorem select_map_map {ι κ : Type} (property : ι → Bool) (image : ι → κ) (items : List ι) :
    select (items.map property) (items.map image) = (items.filter property).map image := by
  induction items with
  | nil => rfl
  | cons item items ih =>
    rw [List.map_cons, List.map_cons, select_cons, List.filter_cons, ih]
    split_ifs <;> rfl

/-- Features that take up no room can be left out in any selection: the others have the outcomes
they had with them, and the same boxes are placed. Assumes: a flag for each feature, and that each
feature without its flag set asks for no box or collides. -/
theorem labelAll_select {keep : List Bool} {features : List (Feature α)} {placed : PlacedLabels α}
    (hlength : keep.length = features.length)
    (hidle : ∀ entry ∈ (features.zip (labelAll canvas options placed features).1).zip keep,
      entry.2 = false → askedBox? canvas options entry.1.1 = none ∨
        ∃ index, entry.1.2 = .collided index) :
    labelAll canvas options placed (select keep features) =
      (select keep (labelAll canvas options placed features).1,
        (labelAll canvas options placed features).2) := by
  induction features generalizing keep placed with
  | nil => simp [select, labelAll]
  | cons feature rest ih =>
    cases keep with
    | nil => simp at hlength
    | cons flag keep =>
      simp only [labelAll, List.zip_cons_cons, List.forall_mem_cons] at hidle ⊢
      obtain ⟨hfirst, hrest⟩ := hidle
      have hlater := ih (Nat.succ.inj hlength) hrest
      rw [select_cons, select_cons]
      cases flag with
      | true => simp only [↓reduceIte, labelAll, hlater]
      | false =>
        -- The feature has left the boxes alone, so the rest is labelled from the same boxes.
        have hstill := (labelStep_drawLabel canvas options placed feature).placed_eq (hfirst rfl)
        simp only [hstill] at hlater
        simp only [Bool.false_eq_true, ↓reduceIte, hstill, hlater]

/-- Features that take up no room can be left out by their outcomes. Assumes: each feature that does
not have the property asks for no box or collides. -/
theorem labelAll_filter {features : List (Feature α)} {placed : PlacedLabels α}
    (property : Feature α × LabelOutcome α → Bool)
    (hidle : ∀ entry ∈ features.zip (labelAll canvas options placed features).1,
      property entry = false → askedBox? canvas options entry.1 = none ∨
        ∃ index, entry.2 = .collided index) :
    let kept := (features.zip (labelAll canvas options placed features).1).filter property
    labelAll canvas options placed (kept.map Prod.fst) =
      (kept.map Prod.snd, (labelAll canvas options placed features).2) := by
  have hlength : features.length = (labelAll canvas options placed features).1.length :=
    (length_labelAll placed features).symm
  generalize hentries : features.zip (labelAll canvas options placed features).1 = entries at hidle
  have hfirst : entries.map Prod.fst = features := by
    rw [← hentries, List.map_fst_zip (Nat.le_of_eq hlength)]
  have hsecond : entries.map Prod.snd = (labelAll canvas options placed features).1 := by
    rw [← hentries, List.map_snd_zip (Nat.le_of_eq hlength.symm)]
  have hkeep : (entries.map property).length = features.length := by
    rw [← hfirst, List.length_map, List.length_map]
  have hselect := labelAll_select hkeep fun entry hentry hflag ↦ by
    rw [hentries, ← List.map_id entries, List.map_map, List.zip_map'] at hentry
    obtain ⟨pair, hpair, rfl⟩ := List.mem_map.mp hentry
    exact hidle pair hpair hflag
  rw [← hsecond, ← hfirst, select_map_map, select_map_map, hfirst] at hselect
  exact hselect

/-! ### Passes -/

namespace Canvas.TextOnly

/-- Labels have the same outcomes whatever was drawn before. -/
theorem labelAll_after (htext : canvas.TextOnly) (made : List (CanvasCall α))
    (placed : PlacedLabels α) (features : List (Feature α)) :
    labelAll (canvas.after made) options placed features =
      labelAll canvas options placed features := by
  induction features generalizing placed with
  | nil => rfl
  | cons feature rest ih =>
    obtain ⟨houtcome, hplaced⟩ := htext.drawLabel_after made options placed feature
    simp only [labelAll, houtcome, hplaced, ih]

/-- Drawing features does what labelling does to outcomes and boxes. -/
theorem drawFeatures_eq (htext : canvas.TextOnly) (renderer : Renderer α)
    (features : List (Feature α)) :
    ((renderer.drawFeatures canvas features).2.1,
        (renderer.drawFeatures canvas features).2.2.placed) =
      labelAll canvas renderer.options renderer.placed features := by
  induction features generalizing renderer canvas with
  | nil => rfl
  | cons feature rest ih =>
    have hrest := ih (htext.after
      (drawLabel canvas renderer.options renderer.placed feature).calls)
      ((renderer.addTarget feature).afterAttempt
        ((renderer.addTarget feature).attemptLabel canvas feature))
    rw [htext.labelAll_after] at hrest
    simp only [Prod.ext_iff] at hrest
    simp only [labelAll, Renderer.drawFeatures_cons]
    exact Prod.ext (congrArg (List.cons _) hrest.1) hrest.2

/-- Drawing features is labelling them from no boxes where a pass has begun, whatever has been
called before. -/
theorem drawFeatures_beginPass (htext : canvas.TextOnly) (made : List (CanvasCall α))
    (renderer : Renderer α) (frame : Frame α) (features : List (Feature α)) :
    let drawing := (renderer.beginPass frame).drawFeatures (canvas.after made) features
    (drawing.2.1, drawing.2.2.placed) = labelAll canvas renderer.options ∅ features := by
  rw [← htext.labelAll_after made]
  exact (htext.after made).drawFeatures_eq (renderer.beginPass frame) features

/-- The result of a pass is the labelling of its features, unless the context cannot be prepared. -/
theorem result_drawPass (htext : canvas.TextOnly) (renderer : Renderer α) (frame : Frame α)
    (features : List (Feature α)) :
    (renderer.drawPass canvas frame features).result =
      match (canvas.perform (Renderer.contextSetup (renderer.layoutFor frame))).2 with
      | some refusal => .error (.refused refusal)
      | none => .ok (labelAll canvas renderer.options ∅ features).1 := by
  unfold Renderer.drawPass
  cases hsetup : (canvas.perform (Renderer.contextSetup (renderer.layoutFor frame))).2 with
  | some refusal => rw [Renderer.drawLabels_of_refused hsetup]
  | none =>
    rw [Renderer.drawLabels_of_accepted hsetup, ← htext.drawFeatures_beginPass _ renderer frame]

/-- The boxes placed by a pass are those of the labelling of its features, unless the context cannot
be prepared. -/
theorem placed_drawPass (htext : canvas.TextOnly) (renderer : Renderer α) (frame : Frame α)
    (features : List (Feature α)) :
    (renderer.drawPass canvas frame features).renderer.placed =
      match (canvas.perform (Renderer.contextSetup (renderer.layoutFor frame))).2 with
      | some _ => ∅
      | none => (labelAll canvas renderer.options ∅ features).2 := by
  unfold Renderer.drawPass
  cases hsetup : (canvas.perform (Renderer.contextSetup (renderer.layoutFor frame))).2 with
  | some refusal =>
    rw [Renderer.drawLabels_of_refused hsetup]
    rfl
  | none =>
    rw [Renderer.drawLabels_of_accepted hsetup, ← htext.drawFeatures_beginPass _ renderer frame]

end Canvas.TextOnly

/-- A canvas whose answers do not depend on earlier calls can be prepared at any time or never. -/
theorem Canvas.Steady.perform_contextSetup_after (hsteady : canvas.Steady)
    (made : List (CanvasCall α)) (layout : Layout α) :
    ((canvas.after made).perform (Renderer.contextSetup layout)).2 =
      (canvas.perform (Renderer.contextSetup layout)).2 := by
  refine Canvas.perform_snd_congr fun next hnext _ earlier other ↦ ?_
  change canvas.refuses (made ++ earlier) next = canvas.refuses other next
  have hcall : next = .scale layout.pixelRatio layout.pixelRatio ∨
      next = .translate layout.origin := by
    unfold Renderer.contextSetup at hnext
    split_ifs at hnext
    · simpa using hnext
    · exact Or.inr (List.mem_singleton.mp hnext)
  rcases hcall with rfl | rfl
  · rw [hsteady.scale, hsteady.scale other]
  · rw [hsteady.translate, hsteady.translate other]

/-- Once a context could be prepared, every pass for the same frame is a labelling, also a later
one. Assumes: the pixel ratio is the same, and the canvas is as it was before the first pass or does
not look back at all. -/
theorem Canvas.TextOnly.drawPass_again (htext : canvas.TextOnly) {first second : Renderer α}
    (hratio : second.devicePixelRatio = first.devicePixelRatio) {made : List (CanvasCall α)}
    (hmade : made = [] ∨ canvas.Steady) {frame : Frame α} {features : List (Feature α)}
    {outcomes : List (LabelOutcome α)}
    (hresult : (first.drawPass canvas frame features).result = .ok outcomes)
    (other : List (Feature α)) :
    let pass := second.drawPass (canvas.after made) frame other
    pass.result = .ok (labelAll canvas second.options ∅ other).1 ∧
      pass.renderer.placed = (labelAll canvas second.options ∅ other).2 := by
  intro pass
  have hlayout : second.layoutFor frame = first.layoutFor frame := by
    unfold Renderer.layoutFor
    rw [hratio]
  have hsetup : ((canvas.after made).perform (Renderer.contextSetup (first.layoutFor frame))).2 =
      (canvas.perform (Renderer.contextSetup (first.layoutFor frame))).2 := by
    rcases hmade with rfl | hsteady
    · rfl
    · exact hsteady.perform_contextSetup_after made _
  have hlater := htext.after made
  rw [htext.result_drawPass] at hresult
  unfold pass
  rw [hlater.result_drawPass, hlater.placed_drawPass, hlayout, hsetup, htext.labelAll_after]
  cases haccepted : (canvas.perform (Renderer.contextSetup (first.layoutFor frame))).2 with
  | some refusal => simp [haccepted] at hresult
  | none => exact ⟨rfl, rfl⟩

/-- More features at the end of a pass, which may be a later one, leave the outcomes of the others
and their boxes as they were. Assumes: the options and the pixel ratio are the same, and the canvas
is as it was before the first pass or does not look back at all. -/
theorem Canvas.TextOnly.drawPass_extend (htext : canvas.TextOnly) {first second : Renderer α}
    (hoptions : second.options = first.options)
    (hratio : second.devicePixelRatio = first.devicePixelRatio) {made : List (CanvasCall α)}
    (hmade : made = [] ∨ canvas.Steady) (frame : Frame α) (old new : List (Feature α)) :
    let before := first.drawPass canvas frame old
    let after := second.drawPass (canvas.after made) frame (old ++ new)
    after.result.map (·.take old.length) = before.result ∧
      before.renderer.placed.boxes <+: after.renderer.placed.boxes := by
  intro before after
  have hlayout : second.layoutFor frame = first.layoutFor frame := by
    unfold Renderer.layoutFor
    rw [hratio]
  have hsetup : ((canvas.after made).perform (Renderer.contextSetup (first.layoutFor frame))).2 =
      (canvas.perform (Renderer.contextSetup (first.layoutFor frame))).2 := by
    rcases hmade with rfl | hsteady
    · rfl
    · exact hsteady.perform_contextSetup_after made _
  have hlater := htext.after made
  simp only [before, after, htext.result_drawPass, htext.placed_drawPass, hlater.result_drawPass,
    hlater.placed_drawPass, hlayout, hsetup, hoptions, htext.labelAll_after, labelAll_append]
  cases (canvas.perform (Renderer.contextSetup (first.layoutFor frame))).2 with
  | some refusal => exact ⟨rfl, List.prefix_refl _⟩
  | none =>
    refine ⟨congrArg Except.ok ?_, prefix_boxes_labelAll _ _⟩
    exact List.take_left' (length_labelAll _ _)

end LabelledMap
