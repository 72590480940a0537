import LabelledMap.Decimal.Double
import LabelledMap.Proofs.Overlay.Alignment
import LabelledMap.Scalar.Double

/-!
# Changing the options between two passes

What was drawn in the last pass was drawn with the options of that time. A change of options takes
effect on most of it at the next pass only, but two options are read whenever the renderer is asked:
the padding, by the placement of the overlay while the map moves, and the tolerance, by each look at
what the pointer touches. `Interim` lists what can be asked between two passes, `Renderer.answers`
is what is answered, and `Renderer.SameBetween` relates two renderers that differ in their options
only.

`Renderer.answers_setOptions_iff` says exactly when a change of options is without effect until the
next pass: when every placement and every touch is the same with the new padding and tolerance.
Options that keep the two are such a change, and options that keep one of them are as long as
nothing is asked that reads the other. In exact arithmetic another padding always shows, unless the
window is empty (`Placement.following_padding_iff`): the overlay jumps by the difference, as far as
the map has been zoomed since (`Placement.topLeft_following_sub`).
-/

set_option autoImplicit false

namespace LabelledMap

/-- A call between two passes. -/
inductive Interim (α : Type) where
  /-- Where the overlay goes while the map moves to a centre and zoom level. -/
  | follow (center : LatLng α) (zoom : α)
  | movePointer (point : Point α) (now : α)
  | losePointer
  | click (point : Point α)

/-- What is answered between two passes. -/
inductive InterimAnswer (α : Type) where
  | placement (placement? : Option (Placement α))
  | actions (actions : List Action)

namespace Interim

variable {α : Type}

/-- Whether a call asks for a placement. -/
def follows : Interim α → Bool
  | follow _ _ => true
  | movePointer _ _ | losePointer | click _ => false

/-- Whether a call asks what the pointer touches. -/
def touches : Interim α → Bool
  | movePointer _ _ | click _ => true
  | follow _ _ | losePointer => false

/-- What a call answers, and the renderer after it. -/
def perform [Analytic α] (renderer : Renderer α) : Interim α → InterimAnswer α × Renderer α
  | follow center zoom => (.placement (renderer.placement? center zoom), renderer)
  | movePointer point now =>
    let moved := renderer.movePointer point now
    (.actions moved.1, moved.2)
  | losePointer =>
    let left := renderer.losePointer
    (.actions left.1, left.2)
  | click point => (.actions (renderer.click point), renderer)

end Interim

namespace Renderer

variable {α : Type}

/-- What calls between two passes answer, in order. -/
def answers [Analytic α] (renderer : Renderer α) : List (Interim α) → List (InterimAnswer α)
  | [] => []
  | call :: rest =>
    let done := call.perform renderer
    done.1 :: answers done.2 rest

/-! ### Two renderers after the same pass -/

/-- Two renderers remember the same pass and the same pointer, whatever their options are. -/
structure SameBetween (first second : Renderer α) : Prop where
  projection : first.projection = second.projection
  drawnView : first.drawnView = second.drawnView
  targets : first.targets = second.targets
  throttle : first.throttle = second.throttle
  hovered : first.hovered = second.hovered
  busy : first.busy = second.busy

theorem sameBetween_options (renderer : Renderer α) (options : LabelOptions α) :
    SameBetween { renderer with options } renderer :=
  ⟨rfl, rfl, rfl, rfl, rfl, rfl⟩

variable [Analytic α] {first second : Renderer α}

/-- A sample of the pointer has the same effect on two renderers where it touches the same. -/
theorem SameBetween.movePointer (hsame : SameBetween first second) {point : Point α}
    (htouched : first.touched? point = second.touched? point) (now : α) :
    (first.movePointer point now).1 = (second.movePointer point now).1 ∧
      SameBetween (first.movePointer point now).2 (second.movePointer point now).2 := by
  unfold Renderer.movePointer
  rw [hsame.busy, hsame.throttle, hsame.hovered, htouched]
  split_ifs
  · exact ⟨rfl, hsame⟩
  · exact ⟨rfl, { hsame with throttle := rfl, hovered := rfl, busy := rfl }⟩
  · exact ⟨rfl, hsame⟩

/-- A call between passes has the same effect on two renderers, if the placements are the same where
it asks for one, and the touches where it asks for them. -/
theorem SameBetween.perform (hsame : SameBetween first second) {call : Interim α}
    (hplacement : call.follows = true → first.placement? = second.placement?)
    (htouched : call.touches = true → first.touched? = second.touched?) :
    (call.perform first).1 = (call.perform second).1 ∧
      SameBetween (call.perform first).2 (call.perform second).2 := by
  cases call with
  | follow center zoom =>
    have hfollow : first.placement? center zoom = second.placement? center zoom := by
      rw [hplacement rfl]
    exact ⟨congrArg InterimAnswer.placement hfollow, hsame⟩
  | movePointer point now =>
    obtain ⟨hactions, hmoved⟩ := hsame.movePointer (congrFun (htouched rfl) point) now
    exact ⟨congrArg InterimAnswer.actions hactions, hmoved⟩
  | losePointer =>
    refine ⟨?_, { hsame with throttle := ?_, hovered := rfl }⟩
    · simp only [Interim.perform, Renderer.losePointer, hsame.hovered]
    · simp only [Interim.perform, Renderer.losePointer, hsame.throttle]
  | click point =>
    have hclick : first.click point = second.click point := by
      unfold Renderer.click
      rw [htouched rfl]
    exact ⟨congrArg InterimAnswer.actions hclick, hsame⟩

/-- A call between passes changes neither the placements nor the touches that come later. -/
theorem placement_touched_perform (renderer : Renderer α) (call : Interim α) :
    (call.perform renderer).2.placement? = renderer.placement? ∧
      (call.perform renderer).2.touched? = renderer.touched? := by
  cases call with
  | movePointer point now =>
    obtain ⟨throttle, hovered, hkept⟩ := movePointer_keeps renderer point now
    change (renderer.movePointer point now).2.placement? = _ ∧
      (renderer.movePointer point now).2.touched? = _
    rw [hkept]
    exact ⟨rfl, rfl⟩
  | follow | losePointer | click => exact ⟨rfl, rfl⟩

/-- Two renderers answer alike, if the placements are the same where any is asked for, and the
touches where any are asked for. -/
theorem SameBetween.answers_eq (hsame : SameBetween first second) {calls : List (Interim α)}
    (hplacement : (∃ call ∈ calls, call.follows = true) → first.placement? = second.placement?)
    (htouched : (∃ call ∈ calls, call.touches = true) → first.touched? = second.touched?) :
    first.answers calls = second.answers calls := by
  -- Each call leaves two renderers that are still related, and what both assumptions say of them.
  induction calls generalizing first second with
  | nil => rfl
  | cons call rest ih =>
    obtain ⟨hanswer, hnext⟩ := hsame.perform
      (fun hfollows ↦ hplacement ⟨call, List.mem_cons_self, hfollows⟩)
      (fun htouches ↦ htouched ⟨call, List.mem_cons_self, htouches⟩)
    obtain ⟨hfirstPlacement, hfirstTouched⟩ := placement_touched_perform first call
    obtain ⟨hsecondPlacement, hsecondTouched⟩ := placement_touched_perform second call
    refine congrArg₂ List.cons hanswer (ih hnext ?_ ?_)
    · rintro ⟨later, hlater, hfollows⟩
      rw [hfirstPlacement, hsecondPlacement]
      exact hplacement ⟨later, List.mem_cons_of_mem call hlater, hfollows⟩
    · rintro ⟨later, hlater, htouches⟩
      rw [hfirstTouched, hsecondTouched]
      exact htouched ⟨later, List.mem_cons_of_mem call hlater, htouches⟩

/-- Two renderers after the same pass always answer alike just if all their placements and touches
are the same. -/
theorem SameBetween.answers_eq_iff (hsame : SameBetween first second) :
    (∀ calls, first.answers calls = second.answers calls) ↔
      first.placement? = second.placement? ∧ first.touched? = second.touched? := by
  constructor
  · intro hanswers
    refine ⟨?_, ?_⟩
    · funext center zoom
      have hfollow := hanswers [.follow center zoom]
      exact InterimAnswer.placement.inj (List.cons.inj hfollow).1
    · funext point
      have hclick := hanswers [.click point]
      have hactions := InterimAnswer.actions.inj (List.cons.inj hclick).1
      have hlist : (first.touched? point).toList = (second.touched? point).toList :=
        (List.map_inj_right fun _ _ heq ↦ Action.clicked.inj heq).mp hactions
      simpa only [Option.head?_toList] using congrArg List.head? hlist
  · rintro ⟨hplacement, htouched⟩ calls
    exact hsame.answers_eq (fun _ ↦ hplacement) fun _ ↦ htouched

/-! ### Changes of options -/

/-- After a pass, the placements follow from the view drawn for and the padding. -/
theorem placement?_of_drawnView (renderer : Renderer α) {drawn : DrawnView α}
    (hdrawn : renderer.drawnView = some drawn) :
    renderer.placement? = fun center zoom ↦
      some (.following renderer.projection drawn renderer.options.padding center zoom) := by
  funext center zoom
  unfold placement?
  rw [hdrawn]
  rfl

/-- Options that are accepted take the place of those before, and nothing else changes. -/
theorem eq_of_setOptions_eq_ok {renderer changed : Renderer α} {options : LabelOptions α}
    (hchanged : renderer.setOptions options = .ok changed) :
    changed = { renderer with options } := by
  unfold setOptions at hchanged
  cases hvalid : options.validate with
  | error fault =>
    rw [hvalid] at hchanged
    cases hchanged
  | ok valid =>
    rw [hvalid] at hchanged
    exact (Except.ok.inj hchanged).symm

/-- When new options are without effect until the next pass. Assumes: a run of a renderer in which
a pass was begun. Options that are refused change nothing at all. After options that are accepted,
all calls until the next pass answer as they would have done with the options before, just if each
placement is the same with the new padding as with the old one and each point touches the same with
the new tolerance as with the old one. That is so for options with the same padding and tolerance,
however they differ otherwise; and calls that ask for no placement answer as before with the same
tolerance alone, as calls that ask for no touch do with the same padding alone. -/
theorem answers_setOptions_iff (start : Renderer α) (operations : List (Operation α))
    (frame : Frame α) (hlast : lastFrame? operations = some frame) (options : LabelOptions α) :
    let renderer := start.run operations
    let placed := Placement.following renderer.projection (.ofFrame frame)
    let touched := fun tolerance point ↦ Target.topmost? renderer.targets point tolerance
    (∀ fault, renderer.setOptions options = .error fault →
      (Operation.setOptions options).apply renderer = renderer) ∧
    ∀ changed, renderer.setOptions options = .ok changed →
      ((∀ calls, changed.answers calls = renderer.answers calls) ↔
        placed options.padding = placed renderer.options.padding ∧
          touched options.clickTolerance = touched renderer.options.clickTolerance) ∧
      ∀ calls : List (Interim α),
        ((∃ call ∈ calls, call.follows = true) → options.padding = renderer.options.padding) →
        ((∃ call ∈ calls, call.touches = true) →
          options.clickTolerance = renderer.options.clickTolerance) →
        changed.answers calls = renderer.answers calls := by
  intro renderer placed touched
  have hdrawn : renderer.drawnView = some (.ofFrame frame) := (remembered_run start hlast).1
  refine ⟨fun fault hfault ↦ ?_, fun changed hchanged ↦ ?_⟩
  · change (renderer.setOptions options).toOption.getD renderer = renderer
    rw [hfault]
    rfl
  · obtain rfl : changed = { renderer with options } := eq_of_setOptions_eq_ok hchanged
    have hsame := sameBetween_options renderer options
    -- Both renderers remember the frame's view, each with its own padding.
    have hbefore := renderer.placement?_of_drawnView hdrawn
    have hafter := placement?_of_drawnView { renderer with options } hdrawn
    refine ⟨?_, fun calls hpadding htolerance ↦
      hsame.answers_eq (fun hfollows ↦ ?_) fun htouches ↦ ?_⟩
    · rw [hsame.answers_eq_iff, hbefore, hafter]
      refine and_congr ?_ Iff.rfl
      simp only [funext_iff, Option.some.injEq, placed]
    · rw [hbefore, hafter]
      simp only [hpadding hfollows]
    · funext point
      exact congrArg (Target.topmost? renderer.targets point) (htolerance htouches)

/-- Colours and fonts can be changed at any time: until the next pass everything is answered as
before, while the overlay is zoomed and the pointer moves over it. -/
theorem answers_setOptions_iff_colors :
    let start : Renderer Float := .new .standard 32
    let frame : Frame Float := .padded ⟨0, 0⟩ ⟨200, 100⟩ 0.1 ⟨-22.68, 118.35⟩ 7
    let renderer := start.run [.beginPass frame, .addTarget (.circle 1 ⟨0, 0⟩ 5)]
    let options : LabelOptions Float :=
      { LabelOptions.standard with textColor := "red", font := "12px serif", textWeight := 3 }
    ∃ changed, renderer.setOptions options = .ok changed ∧ changed.options.font = "12px serif" ∧
      ∀ center, changed.answers
          [.follow center 8, .movePointer ⟨1, 1⟩ 0, .follow center 6.5, .click ⟨7, 0⟩] =
        renderer.answers
          [.follow center 8, .movePointer ⟨1, 1⟩ 0, .follow center 6.5, .click ⟨7, 0⟩] := by
  intro start frame renderer options
  have hchanges := (answers_setOptions_iff start
    [.beginPass frame, .addTarget (.circle 1 ⟨0, 0⟩ 5)] frame rfl options).2
  cases hchanged : renderer.setOptions options with
  | error fault =>
    have hok : (renderer.setOptions options).toBool = true := by decide +kernel
    rw [hchanged] at hok
    cases hok
  | ok changed =>
    have hfont : changed.options = options := by rw [eq_of_setOptions_eq_ok hchanged]
    exact ⟨changed, rfl, by rw [hfont], fun center ↦
      (hchanges changed hchanged).2 _ (fun _ ↦ rfl) fun _ ↦ rfl⟩

end Renderer

/-! ### Another padding, in exact arithmetic -/

namespace Placement

variable (projection : Projection ℝ) (drawn : DrawnView ℝ)

/-- With another padding the overlay is placed elsewhere, as far as the map has been zoomed since
the view it was drawn for. -/
theorem topLeft_following_sub (padding other : ℝ) (center : LatLng ℝ) (zoom : ℝ) :
    (following projection drawn other center zoom).topLeft -
        (following projection drawn padding center zoom).topLeft =
      ((1 - zoomScale zoom drawn.zoom) * (other - padding)) • drawn.window := by
  unfold following
  ext
  · simp only [Point.add_x, Point.sub_x, Point.smul_x]
    ring
  · simp only [Point.add_y, Point.sub_y, Point.smul_y]
    ring

/-- One level closer everything is twice as large. -/
theorem zoomScale_succ (zoom : ℝ) : zoomScale (zoom + 1) zoom = 2 := by
  change (2 : ℝ) ^ (zoom + 1 - zoom) = 2
  rw [add_sub_cancel_left, Real.rpow_one]

/-- All placements are the same with two paddings just if the paddings are, or there is no window
that they could extend. -/
theorem following_padding_iff (padding other : ℝ) :
    following projection drawn other = following projection drawn padding ↔
      other = padding ∨ drawn.window.x = 0 ∧ drawn.window.y = 0 := by
  constructor
  · intro hsame
    -- One level closer the placements differ by the difference of the paddings.
    have hcloser := topLeft_following_sub projection drawn padding other drawn.center
      (drawn.zoom + 1)
    rw [hsame, zoomScale_succ] at hcloser
    have hx := congrArg Point.x hcloser
    have hy := congrArg Point.y hcloser
    simp only [Point.sub_x, Point.sub_y, Point.smul_x, Point.smul_y] at hx hy
    simp only [sub_self, zero_eq_mul] at hx hy
    have hfactor : ((1 : ℝ) - 2) * (other - padding) = 0 → other = padding := fun hzero ↦ by
      linarith
    rcases hx with hzero | hx
    · exact Or.inl (hfactor hzero)
    · rcases hy with hzero | hy
      · exact Or.inl (hfactor hzero)
      · exact Or.inr ⟨hx, hy⟩
  · rintro (rfl | ⟨hx, hy⟩)
    · rfl
    · funext center zoom
      have hjump := topLeft_following_sub projection drawn padding other center zoom
      ext
      · have hjumpX := congrArg Point.x hjump
        rw [Point.sub_x, Point.smul_x, hx, mul_zero] at hjumpX
        exact sub_eq_zero.mp hjumpX
      · have hjumpY := congrArg Point.y hjump
        rw [Point.sub_y, Point.smul_y, hy, mul_zero] at hjumpY
        exact sub_eq_zero.mp hjumpY
      · rfl

end Placement

/-- In exact arithmetic options are accepted if nothing is negative and the font is not blank. -/
theorem LabelOptions.validate_eq_ok {options : LabelOptions ℝ}
    (hborder : 0 ≤ options.textBorderWeight) (htext : 0 ≤ options.textWeight)
    (hpadding : 0 ≤ options.padding) (htolerance : 0 ≤ options.clickTolerance)
    (hfont : isBlank options.font = false) : options.validate = .ok () := by
  have haccepted : ∀ (option : String) (value : ℝ), 0 ≤ value →
      requireNonNegative option value = .ok () := by
    intro option value hvalue
    unfold requireNonNegative
    rw [Exact.zero_eq, decide_eq_true hvalue]
    rfl
  unfold validate
  rw [haccepted _ _ hborder, haccepted _ _ htext, haccepted _ _ hpadding,
    haccepted _ _ htolerance, hfont]
  rfl

/-- New options do show before the next pass. After a pass over a circle with the standard options,
a padding of one half in place of one tenth moves the overlay by eighty pixels to the left and forty
upwards while the map is one level closer, and with a tolerance of three pixels a click beside the
circle hits it, which it missed. -/
theorem Renderer.setOptions_shows_at_once :
    let start : Renderer ℝ := .new .standard 32
    let frame : Frame ℝ := .padded ⟨0, 0⟩ ⟨200, 100⟩ 0.1 ⟨-22.68, 118.35⟩ 7
    let renderer := start.run [.beginPass frame, .addTarget (.circle 1 ⟨0, 0⟩ 5)]
    let options : LabelOptions ℝ :=
      { LabelOptions.standard with padding := 0.5, clickTolerance := 3 }
    ∃ changed, renderer.setOptions options = .ok changed ∧
      (∀ center, ∃ before after, renderer.answers [.follow center 8] = [.placement (some before)] ∧
        changed.answers [.follow center 8] = [.placement (some after)] ∧
        after.topLeft - before.topLeft = ⟨-80, -40⟩) ∧
      renderer.answers [.click ⟨7, 0⟩] = [.actions []] ∧
      changed.answers [.click ⟨7, 0⟩] = [.actions [.clicked 1]] := by
  intro start frame renderer options
  have hvalid : options.validate = .ok () := by
    refine LabelOptions.validate_eq_ok ?_ ?_ ?_ ?_ (by decide)
    · change (0 : ℝ) ≤ 2
      norm_num
    · change (0 : ℝ) ≤ 4
      norm_num
    · change (0 : ℝ) ≤ 0.5
      norm_num
    · change (0 : ℝ) ≤ 3
      norm_num
  have hdistance : (⟨7, 0⟩ : Point ℝ).distanceTo ⟨0, 0⟩ = 7 := by
    change √((0 - 7 : ℝ) ^ 2 + (0 - 0) ^ 2) = 7
    rw [Real.sqrt_eq_iff_mul_self_eq] <;> norm_num
  have hclick : ∀ tolerance : ℝ, Target.topmost? renderer.targets ⟨7, 0⟩ tolerance =
      if 7 ≤ 5 + tolerance then some 1 else none := by
    intro tolerance
    let circle : Target ℝ := ⟨1, .circle ⟨0, 0⟩ 5, Scalar.ofNat 1⟩
    have hcontains : circle.contains ⟨7, 0⟩ tolerance = decide (7 ≤ 5 + tolerance) := by
      change decide ((⟨7, 0⟩ : Point ℝ).distanceTo ⟨0, 0⟩ ≤ 5 + tolerance) = _
      rw [hdistance]
    change ([circle].find? (·.contains ⟨7, 0⟩ tolerance)).map (·.id) = _
    rw [List.find?_singleton, hcontains]
    by_cases hreach : 7 ≤ 5 + tolerance
    · rw [if_pos (decide_eq_true hreach), if_pos hreach]
      rfl
    · rw [if_neg (by simpa using hreach), if_neg hreach]
      rfl
  refine ⟨{ renderer with options }, ?_, fun center ↦ ?_, ?_, ?_⟩
  · unfold setOptions
    rw [hvalid]
    rfl
  · refine ⟨_, _, rfl, rfl, ?_⟩
    have hscale : zoomScale (8 : ℝ) (DrawnView.ofFrame frame).zoom = 2 := by
      change (2 : ℝ) ^ (8 - 7 : ℝ) = 2
      norm_num
    have hdrawn : (DrawnView.ofFrame frame).window = ⟨200, 100⟩ := rfl
    rw [Placement.topLeft_following_sub, hscale, hdrawn]
    ext
    · change (1 - 2) * ((0.5 : ℝ) - 0.1) * 200 = -80
      norm_num
    · change (1 - 2) * ((0.5 : ℝ) - 0.1) * 100 = -40
      norm_num
  · change [InterimAnswer.actions ((Target.topmost? renderer.targets ⟨7, 0⟩
      renderer.options.clickTolerance).toList.map .clicked)] = _
    have hmissed : ¬ 7 ≤ 5 + renderer.options.clickTolerance := by
      change ¬ (7 : ℝ) ≤ 5 + Nat.cast 0
      norm_num
    rw [hclick, if_neg hmissed]
    rfl
  · change [InterimAnswer.actions ((Target.topmost? renderer.targets ⟨7, 0⟩
      options.clickTolerance).toList.map .clicked)] = _
    have hhit : 7 ≤ 5 + options.clickTolerance := by
      change (7 : ℝ) ≤ 5 + 3
      norm_num
    rw [hclick, if_pos hhit]
    rfl

end LabelledMap
