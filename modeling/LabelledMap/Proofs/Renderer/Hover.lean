import LabelledMap.Decimal.Double
import LabelledMap.Proofs.Renderer.Runs
import LabelledMap.Scalar.Double

/-!
# What is told of hovering

The host of the map knows from actions alone which feature is hovered and what the pointer looks
like. A pass replaces the shapes that the pointer can touch and tells nothing, although the hovered
feature may be gone from them, and samples of the pointer are dropped while the map moves. So what
is told cannot be accounted for by the shapes. It is by the hovered feature: each operation tells
one of four things, which depend on that feature before and after it (`Operation.told_step`), and
over a run these add up to an account that is in balance at every moment (`hover_balanced`).
-/

set_option autoImplicit false

namespace LabelledMap

/-- Whether a feature is entered or left. -/
def Action.crosses : Action → Bool
  | .entered _ | .left _ => true
  | .clicked _ | .cursor _ => false

/-- The pointer's cursor after an action. -/
def Cursor.after (shown : Cursor) : Action → Cursor
  | .cursor next => next
  | _ => shown

/-- What is told at once when the hovered feature changes, or does not, from one to another. -/
inductive HoverStep : Option FeatureId → List Action → Option FeatureId → Prop where
  | stay (hovered : Option FeatureId) : HoverStep hovered [] hovered
  | enter (id : FeatureId) : HoverStep none [.cursor .interactive, .entered id] (some id)
  | leave (id : FeatureId) : HoverStep (some id) [.left id, .cursor .normal] none
  | change {id next : FeatureId} (hne : next ≠ id) :
      HoverStep (some id) [.left id, .cursor .interactive, .entered next] (some next)

theorem hoverStep_hoverActions (previous next : Option FeatureId) :
    HoverStep previous (hoverActions previous next) next := by
  unfold hoverActions
  split_ifs with heq
  · exact heq ▸ .stay next
  · cases previous with
    | none =>
      cases next with
      | none => exact absurd rfl heq
      | some id => exact .enter id
    | some id =>
      cases next with
      | none => exact .leave id
      | some next => exact .change fun hnext ↦ heq (congrArg some hnext)

/-! ### The account -/

/-- Just before a feature is entered the cursor becomes interactive. -/
def Announced (told : List Action) : Prop :=
  ∀ earlier id later, told = earlier ++ .entered id :: later →
    earlier.getLast? = some (.cursor .interactive)

/-- Everything that has been told agrees with the feature that is hovered. -/
structure HoverBalance (told : List Action) (hovered : Option FeatureId) : Prop where
  /-- Each feature is left before the next one is entered; the last one has not been left if it is
  the hovered one. -/
  visits : ∃ visits : List FeatureId, told.filter Action.crosses =
    visits.flatMap (fun id ↦ [.entered id, .left id]) ++ hovered.toList.map .entered
  announced : Announced told
  /-- The cursor told last is interactive if and only if there is a hovered feature. -/
  cursor : told.foldl Cursor.after .normal = if hovered.isSome then .interactive else .normal

theorem announced_of_not_mem {told : List Action} (htold : ∀ id, .entered id ∉ told) :
    Announced told := by
  rintro earlier id later rfl
  exact absurd List.mem_append_cons_self (htold id)

theorem announced_entered (id : FeatureId) :
    Announced [.cursor .interactive, .entered id] := by
  rintro (_ | ⟨first, _ | ⟨second, rest⟩⟩) entered later heq
  · cases heq
  · cases heq
    rfl
  · cases rest <;> cases heq

theorem Announced.append {told more : List Action} (htold : Announced told)
    (hmore : Announced more) : Announced (told ++ more) := by
  intro earlier id later heq
  -- Where the feature is entered: in what is told more, or before.
  rcases List.append_eq_append_iff.mp heq with ⟨rest, rfl, hrest⟩ | ⟨rest, rfl, hrest⟩
  · rw [List.getLast?_append, hmore rest id later hrest, Option.some_or]
  · cases rest with
    | nil => cases hmore [] id later hrest.symm
    | cons action rest =>
      obtain ⟨rfl, -⟩ := List.cons.inj hrest
      exact htold earlier id rest rfl

namespace HoverStep

variable {previous next : Option FeatureId} {more : List Action}

theorem announced (hstep : HoverStep previous more next) : Announced more := by
  cases hstep with
  | stay => exact announced_of_not_mem (by simp)
  | enter id => exact announced_entered id
  | leave id => exact announced_of_not_mem (by simp)
  | @change id next hne =>
    have hleft : Announced [.left id] := announced_of_not_mem (by simp)
    exact hleft.append (announced_entered next)

/-- A feature is not left and entered at once. -/
theorem not_left_and_entered (hstep : HoverStep previous more next) (id : FeatureId) :
    ¬(.left id ∈ more ∧ .entered id ∈ more) := by
  cases hstep <;> grind

/-- The cursor becomes normal when no feature is hovered any longer. -/
theorem count_normal (hstep : HoverStep previous more next) :
    more.count (.cursor .normal) = if previous.isSome ∧ next = none then 1 else 0 := by
  cases hstep with
  | stay => cases previous <;> rfl
  | enter id => rfl
  | leave id => rfl
  | change hne => rfl

end HoverStep

theorem hoverBalance_nil : HoverBalance [] none where
  visits := ⟨[], rfl⟩
  announced := announced_of_not_mem (by simp)
  cursor := rfl

/-- The account stays in balance when more is told as the hovered feature changes. -/
theorem HoverBalance.append {told more : List Action} {previous next : Option FeatureId}
    (hbalance : HoverBalance told previous) (hstep : HoverStep previous more next) :
    HoverBalance (told ++ more) next where
  visits := by
    obtain ⟨visits, hvisits⟩ := hbalance.visits
    rw [List.filter_append, hvisits]
    cases hstep with
    | stay => exact ⟨visits, List.append_nil _⟩
    | enter id =>
      refine ⟨visits, ?_⟩
      rw [Option.toList_none, List.map_nil, List.append_nil]
      rfl
    | leave id =>
      refine ⟨visits ++ [id], ?_⟩
      rw [List.flatMap_append, List.append_assoc, List.append_assoc]
      rfl
    | @change id next hne =>
      refine ⟨visits ++ [id], ?_⟩
      rw [List.flatMap_append, List.append_assoc, List.append_assoc]
      rfl
  announced := hbalance.announced.append hstep.announced
  cursor := by
    rw [List.foldl_append, hbalance.cursor]
    cases hstep <;> rfl

/-! ### Runs -/

namespace Renderer

variable {α : Type}

section Told

variable [Scalar α]

/-- What an operation tells the host. -/
def Operation.told (renderer : Renderer α) : Operation α → List Action
  | movePointer point now => (renderer.movePointer point now).1
  | losePointer => renderer.losePointer.1
  | _ => []

/-- What the operations of a run tell the host, in order. Clicks are not among them: they change
nothing, and nothing that is told of hovering depends on them. -/
def told (renderer : Renderer α) : List (Operation α) → List Action
  | [] => []
  | operation :: rest => operation.told renderer ++ told (operation.apply renderer) rest

/-- What an operation tells follows the hovered feature. -/
theorem Operation.told_step (renderer : Renderer α) (operation : Operation α) :
    HoverStep renderer.hovered (operation.told renderer) (operation.apply renderer).hovered := by
  cases operation with
  | movePointer point now =>
    change HoverStep _ (renderer.movePointer point now).1 (renderer.movePointer point now).2.hovered
    unfold Renderer.movePointer
    split_ifs
    · exact .stay _
    · exact hoverStep_hoverActions _ _
    · exact .stay _
  | losePointer => exact hoverStep_hoverActions _ _
  | setOptions options =>
    obtain ⟨kept, hkept⟩ := apply_setOptions renderer options
    rw [hkept]
    exact .stay _
  | drawLabels canvas layout features =>
    obtain ⟨placed, targets, counts, hkept⟩ := drawLabels_keeps renderer canvas layout features
    change HoverStep _ [] (renderer.drawLabels canvas layout features).renderer.hovered
    rw [hkept]
    exact .stay _
  | drawPass canvas frame features =>
    obtain ⟨placed, targets, counts, hkept⟩ := renderer.drawPass_keeps canvas frame features
    change HoverStep _ [] (renderer.drawPass canvas frame features).renderer.hovered
    rw [hkept]
    exact .stay _
  | _ => exact .stay _

/-- An account in balance is in balance after every run. -/
theorem balance_run {renderer : Renderer α} {before : List Action}
    (hbalance : HoverBalance before renderer.hovered) (operations : List (Operation α)) :
    HoverBalance (before ++ renderer.told operations) (renderer.run operations).hovered := by
  -- The rest of a run goes on from the account after its first operation.
  induction operations generalizing renderer before with
  | nil => exact (List.append_nil before).symm ▸ hbalance
  | cons operation rest ih =>
    have hnext := hbalance.append (operation.told_step renderer)
    rw [told, ← List.append_assoc]
    exact ih hnext

end Told

variable [Analytic α]

/-- What the host is told over any run of a new renderer, however passes, changes of options,
dropped samples and busy times come between. Entering and leaving take turns, beginning with
entering; a feature that is left is the one that was entered before; and the hovered feature is the
one that was entered and not left yet, if there is one. Just before a feature is entered the cursor
becomes interactive, and the cursor told last is interactive if and only if there is a hovered
feature. Of a further operation, and so of each one in the run: it does not tell of one feature that
it is left and entered, and it tells of the normal cursor, once, if and only if there was a hovered
feature before it and is none after it. -/
theorem hover_balanced (options : LabelOptions α) (interval : α)
    (operations : List (Operation α)) :
    let renderer := (new options interval).run operations
    HoverBalance ((new options interval).told operations) renderer.hovered ∧
      ∀ operation : Operation α,
        (∀ id, ¬(.left id ∈ operation.told renderer ∧ .entered id ∈ operation.told renderer)) ∧
        (operation.told renderer).count (.cursor .normal) =
          if renderer.hovered.isSome ∧ (operation.apply renderer).hovered = none then 1 else 0 := by
  intro renderer
  have hnew : HoverBalance [] (new options interval).hovered := hoverBalance_nil
  refine ⟨balance_run hnew operations, fun operation ↦ ?_⟩
  have hstep := operation.told_step renderer
  exact ⟨hstep.not_left_and_entered, hstep.count_normal⟩

/-- A circle is drawn over the hovered one. The next sample is too early to notice it, and the
pointer leaves the map while it is dragged. -/
example :
    let start : Renderer Float := .new .standard 32
    start.told [.addTarget (.circle 1 ⟨0, 0⟩ 5), .movePointer ⟨0, 0⟩ 0,
        .addTarget (.circle 2 ⟨0, 0⟩ 5), .movePointer ⟨0, 0⟩ 10, .movePointer ⟨0, 0⟩ 40,
        .setBusy true, .losePointer] =
      [.cursor .interactive, .entered 1, .left 1, .cursor .interactive, .entered 2, .left 2,
        .cursor .normal] := by
  decide +kernel

end Renderer

end LabelledMap
