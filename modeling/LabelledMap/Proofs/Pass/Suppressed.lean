import LabelledMap.Proofs.Pass.Labelling
import LabelledMap.Scalar.Double
import Mathlib.Data.List.Forall2

/-!
# Labels left out

A label is left out without a failure if it has no text, no anchor, or no room. Such a label asks
for no box or meets one that is placed already, and leaves nothing behind
(`LabelStep.idle_of_isSuppressed`). So a pass can be repeated without any selection of these
features, and for the others nothing changes.

With collisions allowed, all labels find room. The boxes of such a pass and of one that avoids
collisions are different before every label, so the two are run side by side
(`drawLabel_unrestricted`): what one label finds with collisions avoided it finds without, unless it
collides, and the boxes placed in the first pass are always among those placed in the second, in the
same order (`labelAll_unrestricted`).

`suppressed_without_influence` states both laws of whole passes on a canvas that answers by the
text.
-/

set_option autoImplicit false

namespace LabelledMap

variable {α : Type}

/-! ### Labels that leave nothing behind -/

/-- Whether a label was left out although nothing failed. -/
def LabelOutcome.isSuppressed : LabelOutcome α → Bool
  | .noText | .noAnchor | .collided _ => true
  | .drawn _ | .failed _ => false

variable [Scalar α] {canvas : Canvas α} {options : LabelOptions α}

/-- A label that was left out has asked for no box or has collided. -/
theorem LabelStep.idle_of_isSuppressed {avoid : Bool} {placed next : PlacedLabels α}
    {asked : Option (Rect α)} {outcome : LabelOutcome α}
    (hstep : LabelStep avoid placed asked outcome next)
    (hsuppressed : outcome.isSuppressed = true) :
    asked = none ∨ ∃ index, outcome = .collided index := by
  cases hstep with
  | noText | noAnchor => exact Or.inl rfl
  | collided => exact Or.inr ⟨_, rfl⟩
  | unmeasured | drawn | refused => cases hsuppressed

/-- The label of each feature makes a step from some boxes to others. -/
theorem exists_labelStep_of_mem_labelAll {features : List (Feature α)} {placed : PlacedLabels α}
    {entry : Feature α × LabelOutcome α}
    (hentry : entry ∈ features.zip (labelAll canvas options placed features).1) :
    ∃ before after, LabelStep options.collision before (askedBox? canvas options entry.1) entry.2
      after := by
  induction features generalizing placed with
  | nil => exact absurd hentry List.not_mem_nil
  | cons feature rest ih =>
    rcases List.mem_cons.mp hentry with rfl | hlater
    · exact ⟨placed, _, labelStep_drawLabel canvas options placed feature⟩
    · exact ih hlater

/-! ### Passes that allow collisions -/

/-- Where collisions are allowed, a label that does not collide otherwise has the same outcome, and
boxes that were among others stay among them. -/
theorem drawLabel_unrestricted (canvas : Canvas α) (options : LabelOptions α)
    {placed other : PlacedLabels α} (hplaced : placed.boxes.Sublist other.boxes)
    (feature : Feature α) :
    let attempt := drawLabel canvas options placed feature
    let free := drawLabel canvas { options with collision := false } other feature
    ((∃ index, attempt.outcome = .collided index) ∨ free.outcome = attempt.outcome) ∧
      attempt.placed.boxes.Sublist free.placed.boxes := by
  intro attempt free
  unfold attempt free drawLabel
  cases feature.labelText? with
  | none => exact ⟨Or.inr rfl, hplaced⟩
  | some text =>
    cases feature.anchor? with
    | none => exact ⟨Or.inr rfl, hplaced⟩
    | some anchor =>
      dsimp only
      have hsetup : measuringSetup { options with collision := false } = measuringSetup options :=
        rfl
      have hcalls : ∀ color position, textCalls { options with collision := false } color text
          position = textCalls options color text position := fun _ _ ↦ rfl
      rw [hsetup]
      cases canvas.measure (measuringSetup options) text with
      | error refusal => exact ⟨Or.inr rfl, hplaced⟩
      | ok width =>
        dsimp only
        split_ifs with husable
        · have hfree : ∀ box : Rect α, other.offer box false = .placed := fun box ↦ rfl
          rw [hfree]
          cases placed.offer (labelBox anchor options.offset width) options.collision with
          | collided index =>
            exact ⟨Or.inl ⟨index, rfl⟩, hplaced.trans (List.sublist_append_left _ _)⟩
          | placed =>
            dsimp only
            rw [hcalls]
            exact ⟨Or.inr rfl, hplaced.append_right _⟩
        · exact ⟨Or.inr rfl, hplaced⟩

/-- Where collisions are allowed, the labels that do not collide otherwise have the same outcomes,
and their boxes are among those placed. -/
theorem labelAll_unrestricted (canvas : Canvas α) (options : LabelOptions α)
    {placed other : PlacedLabels α} (hplaced : placed.boxes.Sublist other.boxes)
    (features : List (Feature α)) :
    let labelled := labelAll canvas options placed features
    let free := labelAll canvas { options with collision := false } other features
    List.Forall₂ (fun outcome freely ↦ (∃ index, outcome = .collided index) ∨ freely = outcome)
        labelled.1 free.1 ∧
      labelled.2.boxes.Sublist free.2.boxes := by
  induction features generalizing placed other with
  | nil => exact ⟨List.Forall₂.nil, hplaced⟩
  | cons feature rest ih =>
    obtain ⟨houtcome, hnext⟩ := drawLabel_unrestricted canvas options hplaced feature
    obtain ⟨hrest, hfinal⟩ := ih hnext
    exact ⟨List.Forall₂.cons houtcome hrest, hfinal⟩

/-! ### Passes -/

/-- Labels that are left out have no influence, on a canvas that answers by the text. Assumes: the
context of the first pass could be prepared. The second pass is for the same frame and on the same
kind of display; the canvas is as it was before the first pass or does not look back at all. If the
options are the same, any selection of the features without a text, without an anchor or without
room can be left out: the others have the outcomes they had, and the same boxes are placed. If the
second pass allows collisions and is the same otherwise, every feature whose label did not collide
has the outcome it had, and the boxes placed in the first pass are among those of the second. -/
theorem suppressed_without_influence (first second : Renderer α) (canvas : Canvas α)
    (made : List (CanvasCall α)) (frame : Frame α) (features : List (Feature α))
    (outcomes : List (LabelOutcome α)) (htext : canvas.TextOnly)
    (hresult : (first.drawPass canvas frame features).result = .ok outcomes)
    (hratio : second.devicePixelRatio = first.devicePixelRatio)
    (hmade : made = [] ∨ canvas.Steady) :
    let pass := first.drawPass canvas frame features
    let again := fun list ↦ second.drawPass (canvas.after made) frame list
    (second.options = first.options → ∀ keep : List Bool, keep.length = features.length →
      (∀ entry ∈ (features.zip outcomes).zip keep, entry.2 = false →
        entry.1.2.isSuppressed = true) →
      (again (select keep features)).result = .ok (select keep outcomes) ∧
        (again (select keep features)).renderer.placed = pass.renderer.placed) ∧
    (second.options = { first.options with collision := false } →
      ∃ free, (again features).result = .ok free ∧
        (∀ (index : Nat) (outcome : LabelOutcome α), outcomes[index]? = some outcome →
          (∀ number, outcome ≠ .collided number) → free[index]? = some outcome) ∧
        pass.renderer.placed.boxes.Sublist (again features).renderer.placed.boxes) := by
  intro pass again
  obtain ⟨houtcomes, hplaced⟩ := htext.drawPass_again rfl (Or.inl rfl) hresult features
  obtain rfl : outcomes = (labelAll canvas first.options ∅ features).1 :=
    Except.ok.inj (hresult.symm.trans houtcomes)
  have hagain := htext.drawPass_again hratio hmade hresult
  refine ⟨fun hoptions keep hlength hidle ↦ ?_, fun hoptions ↦ ?_⟩
  · have hselect := labelAll_select hlength fun entry hentry hflag ↦ by
      obtain ⟨before, after, hstep⟩ :=
        exists_labelStep_of_mem_labelAll (List.of_mem_zip hentry).1
      exact hstep.idle_of_isSuppressed (hidle entry hentry hflag)
    obtain ⟨hresultAgain, hplacedAgain⟩ := hagain (select keep features)
    rw [hoptions, hselect] at hresultAgain hplacedAgain
    exact ⟨hresultAgain, hplacedAgain.trans hplaced.symm⟩
  · obtain ⟨hresultAgain, hplacedAgain⟩ := hagain features
    rw [hoptions] at hresultAgain hplacedAgain
    obtain ⟨hsame, hboxes⟩ := labelAll_unrestricted canvas first.options
      (List.Sublist.refl (∅ : PlacedLabels α).boxes) features
    refine ⟨_, hresultAgain, fun index outcome houtcome hroom ↦ ?_, ?_⟩
    · obtain ⟨hindex, rfl⟩ := List.getElem?_eq_some_iff.mp houtcome
      have hfree := hsame.length_eq ▸ hindex
      rw [List.getElem?_eq_getElem hfree]
      rcases hsame.get hindex hfree with ⟨number, hcollided⟩ | heq
      · exact absurd hcollided (hroom number)
      · exact congrArg some heq
    · change (first.drawPass canvas frame features).renderer.placed.boxes.Sublist _
      rw [hplacedAgain]
      exact hplaced ▸ hboxes

/-- Four features, of which the second has no room and the third no text. The pass repeated without
these two does the same for the others, and with collisions allowed the second is drawn as well. -/
theorem suppressed_without_influence_crowded :
    let start : Renderer Float := .new .standard 32
    let canvas : Canvas Float := .monospaced 7 [] []
    let frame : Frame Float := .padded ⟨0, 0⟩ ⟨200, 100⟩ 0.1 ⟨-22.68, 118.35⟩ 7
    let features : List (Feature Float) := [.labelledCircle 1 ⟨0, 0⟩ "Perth",
      .labelledCircle 2 ⟨5, 0⟩ "Cossack", .circle 3 ⟨50, 0⟩ 5, .labelledCircle 4 ⟨100, 0⟩ "Dampier"]
    let pass := start.drawPass canvas frame features
    let keep := [true, false, false, true]
    let again := pass.renderer.drawPass (canvas.after pass.calls) frame (select keep features)
    let allowing : Renderer Float :=
      { start with options := { start.options with collision := false } }
    let freely := allowing.drawPass canvas frame features
    canvas.Steady ∧
      pass.renderer.counts = { features := 4, drawn := 2, collided := 1, unlabelled := 1 } ∧
      freely.renderer.counts = { features := 4, drawn := 3, unlabelled := 1 } ∧
      ∃ outcomes free, pass.result = .ok outcomes ∧ again.result = .ok (select keep outcomes) ∧
        again.renderer.placed = pass.renderer.placed ∧ freely.result = .ok free ∧
        ∀ (index : Nat) (box : Rect Float), outcomes[index]? = some (.drawn box) →
          free[index]? = some (.drawn box) := by
  intro start canvas frame features pass keep again allowing freely
  have hsteady : canvas.Steady := Canvas.steady_monospaced 7 [] []
  refine ⟨hsteady, by decide +kernel, by decide +kernel, ?_⟩
  have hidle : pass.result.toOption.map (fun outcomes ↦ ((features.zip outcomes).zip keep).all
      fun entry ↦ entry.2 || entry.1.2.isSuppressed) = some true := by decide +kernel
  cases hresult : pass.result with
  | error fault => simp [hresult, Except.toOption] at hidle
  | ok outcomes =>
    rw [hresult] at hidle
    have hflags := List.all_eq_true.mp (Option.some.inj hidle)
    obtain ⟨placed, targets, counts, hkept⟩ := start.drawPass_keeps canvas frame features
    have hoptions : pass.renderer.options = start.options :=
      (congrArg Renderer.options hkept).trans rfl
    have hratio : pass.renderer.devicePixelRatio = start.devicePixelRatio :=
      (congrArg Renderer.devicePixelRatio hkept).trans rfl
    obtain ⟨hselected, hplaced⟩ :=
      (suppressed_without_influence start pass.renderer canvas pass.calls frame features outcomes
        hsteady.toTextOnly hresult hratio (Or.inr hsteady)).1 hoptions keep rfl
        fun entry hentry hflag ↦ by simpa [hflag] using hflags entry hentry
    obtain ⟨free, hfree, houtcomes, -⟩ :=
      (suppressed_without_influence start allowing canvas [] frame features outcomes
        hsteady.toTextOnly hresult rfl (Or.inl rfl)).2 rfl
    exact ⟨outcomes, free, rfl, hselected, hplaced, hfree, fun index box hdrawn ↦
      houtcomes index _ hdrawn fun number heq ↦ by cases heq⟩

end LabelledMap
