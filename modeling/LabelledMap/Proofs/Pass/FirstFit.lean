import LabelledMap.Proofs.Pass.Steps
import LabelledMap.Scalar.Double

/-!
# First come, first placed

With collisions avoided, a pass places labels greedily: each feature in its turn gets its box if and
only if the box meets none of those that earlier features have got. `FirstFit` states what this
means for the boxes that the features ask for, the outcomes of their labels, and the claims, the
pairs of a feature's number and its box. The box of each claim is still placed when the pass is
over, so a label that was left out is answered for by a label's box that anyone can still look at.

`FirstFit.step` is one label: whatever becomes of it, drawing that fails included, the claims stay
greedy, and a box keeps its number while others come after it. `drawPass_firstFit` is the whole
pass, for any canvas.
-/

set_option autoImplicit false

namespace LabelledMap

variable {α : Type} [Scalar α]

/-- The claims are the greedy choice among the boxes asked for, and the outcomes agree with them. -/
structure FirstFit (asked : Nat → Option (Rect α)) (outcomes : List (LabelOutcome α))
    (claims : List (Nat × Rect α)) : Prop where
  /-- The boxes stand in the order of the features they came from. -/
  ordered : claims.Pairwise fun claim later ↦ claim.1 < later.1
  /-- No two boxes meet, whichever is asked about the other. -/
  apart : claims.Pairwise fun claim later ↦
    claim.2.meets later.2 = false ∧ later.2.meets claim.2 = false
  /-- Each claim is for the box that its feature asked for, and its label was drawn or failed. -/
  owned : ∀ claim ∈ claims, asked claim.1 = some claim.2 ∧
    (outcomes[claim.1]? = some (.drawn claim.2) ∨
      ∃ fault, outcomes[claim.1]? = some (.failed fault))
  /-- A feature has a claim just if the box that it asks for meets no box of an earlier feature. -/
  greedy : ∀ index < outcomes.length, ∀ box, asked index = some box →
    ((index, box) ∈ claims ↔ ∀ claim ∈ claims, claim.1 < index → claim.2.meets box = false)
  /-- The label of a feature that collided asked for a box that meets the box with the reported
  number, which is that of an earlier feature, and none of the boxes before that one. -/
  collided : ∀ index number, outcomes[index]? = some (.collided number) →
    ∃ box claim, asked index = some box ∧ claims[number]? = some claim ∧ claim.1 < index ∧
      claim.2.meets box = true ∧ box.meets claim.2 = true ∧
      ∀ before < number, ∀ other, claims[before]? = some other → other.2.meets box = false
  /-- A label that was drawn has its box, which meets no box of an earlier feature. -/
  drawn : ∀ index box, outcomes[index]? = some (.drawn box) →
    (index, box) ∈ claims ∧ ∀ claim ∈ claims, claim.1 < index → claim.2.meets box = false

namespace FirstFit

variable {asked : Nat → Option (Rect α)} {outcomes : List (LabelOutcome α)}
  {claims : List (Nat × Rect α)} {outcome : LabelOutcome α}

/-- Nothing has been asked for. -/
theorem nil : FirstFit asked [] [] where
  ordered := List.Pairwise.nil
  apart := List.Pairwise.nil
  owned claim hclaim := by simp at hclaim
  greedy index hindex := by simp at hindex
  collided index number houtcome := by simp at houtcome
  drawn index box houtcome := by simp at houtcome

/-- Claims are made by the features that have had their turn. -/
theorem lt_length (hfit : FirstFit asked outcomes claims) {claim : Nat × Rect α}
    (hclaim : claim ∈ claims) : claim.1 < outcomes.length := by
  rcases (hfit.owned claim hclaim).2 with houtcome | ⟨fault, houtcome⟩
  · exact (List.getElem?_eq_some_iff.mp houtcome).1
  · exact (List.getElem?_eq_some_iff.mp houtcome).1

omit [Scalar α] in
/-- An outcome in a longer list is an old one or the last. -/
theorem outcome_cases {index : Nat} {found : LabelOutcome α}
    (hfound : (outcomes ++ [outcome])[index]? = some found) :
    outcomes[index]? = some found ∨ (index = outcomes.length ∧ outcome = found) := by
  rcases Nat.lt_trichotomy index outcomes.length with hlt | heq | hgt
  · rw [List.getElem?_append_left hlt] at hfound
    exact Or.inl hfound
  · subst heq
    rw [List.getElem?_concat_length] at hfound
    exact Or.inr ⟨rfl, Option.some.inj hfound⟩
  · rw [List.getElem?_eq_none (by simp; omega)] at hfound
    cases hfound

omit [Scalar α] in
/-- An old outcome stays where it is. -/
theorem outcome_append {index : Nat} {found : LabelOutcome α}
    (hfound : outcomes[index]? = some found) : (outcomes ++ [outcome])[index]? = some found := by
  rw [List.getElem?_append_left (List.getElem?_eq_some_iff.mp hfound).1, hfound]

/-- A new claim is not earlier than a feature that has had its turn. -/
theorem forall_earlier_concat {index number : Nat} {box other : Rect α} (hindex : index ≤ number) :
    (∀ claim ∈ claims ++ [(number, box)], claim.1 < index → claim.2.meets other = false) ↔
      ∀ claim ∈ claims, claim.1 < index → claim.2.meets other = false := by
  refine ⟨fun hall claim hclaim ↦ hall claim (List.mem_append_left _ hclaim), ?_⟩
  intro hbefore claim hclaim hearlier
  rcases List.mem_append.mp hclaim with hold | hnew
  · exact hbefore claim hold hearlier
  · rw [List.mem_singleton.mp hnew] at hearlier
    exact absurd hearlier (Nat.not_lt.mpr hindex)

/-- A label that gets no room leaves the claims as they are. -/
theorem skip (hfit : FirstFit asked outcomes claims)
    (hasked : ∀ box, asked outcomes.length = some box → ∃ claim ∈ claims, claim.2.meets box = true)
    (hcollided : ∀ number, outcome = .collided number →
      ∃ box claim, asked outcomes.length = some box ∧ claims[number]? = some claim ∧
        claim.2.meets box = true ∧
        ∀ before < number, ∀ other, claims[before]? = some other → other.2.meets box = false)
    (hdrawn : ∀ box, outcome ≠ .drawn box) : FirstFit asked (outcomes ++ [outcome]) claims where
  ordered := hfit.ordered
  apart := hfit.apart
  owned claim hclaim := by
    refine ⟨(hfit.owned claim hclaim).1, (hfit.owned claim hclaim).2.imp outcome_append ?_⟩
    rintro ⟨fault, houtcome⟩
    exact ⟨fault, outcome_append houtcome⟩
  greedy index hindex box hbox := by
    rw [List.length_append, List.length_singleton] at hindex
    rcases Nat.lt_succ_iff_lt_or_eq.mp hindex with hlt | rfl
    · exact hfit.greedy index hlt box hbox
    · obtain ⟨claim, hclaim, hmeets⟩ := hasked box hbox
      refine iff_of_false (fun hmem ↦ Nat.lt_irrefl _ (hfit.lt_length hmem)) fun hfree ↦ ?_
      rw [hfree claim hclaim (hfit.lt_length hclaim)] at hmeets
      cases hmeets
  collided index number houtcome := by
    rcases outcome_cases houtcome with hold | ⟨rfl, hnew⟩
    · exact hfit.collided index number hold
    · obtain ⟨box, claim, hbox, hclaim, hmeets, hbefore⟩ := hcollided number hnew
      exact ⟨box, claim, hbox, hclaim, hfit.lt_length (List.mem_of_getElem? hclaim), hmeets,
        Rect.meets_comm box claim.2 ▸ hmeets, hbefore⟩
  drawn index box houtcome := by
    rcases outcome_cases houtcome with hold | ⟨rfl, hnew⟩
    · exact hfit.drawn index box hold
    · exact absurd hnew (hdrawn box)

/-- A label whose box meets none of those placed gets its room, drawn or not. -/
theorem claim {box : Rect α} (hfit : FirstFit asked outcomes claims)
    (hasked : asked outcomes.length = some box)
    (hfree : ∀ claim ∈ claims, claim.2.meets box = false)
    (houtcome : outcome = .drawn box ∨ ∃ fault, outcome = .failed fault) :
    FirstFit asked (outcomes ++ [outcome]) (claims ++ [(outcomes.length, box)]) where
  ordered := by
    refine List.pairwise_append.mpr ⟨hfit.ordered, List.pairwise_singleton _ _, ?_⟩
    intro claim hclaim later hlater
    rw [List.mem_singleton.mp hlater]
    exact hfit.lt_length hclaim
  apart := by
    refine List.pairwise_append.mpr ⟨hfit.apart, List.pairwise_singleton _ _, ?_⟩
    intro claim hclaim later hlater
    rw [List.mem_singleton.mp hlater]
    exact ⟨hfree claim hclaim, Rect.meets_comm box claim.2 ▸ hfree claim hclaim⟩
  owned claim hclaim := by
    rcases List.mem_append.mp hclaim with hold | hnew
    · refine ⟨(hfit.owned claim hold).1, (hfit.owned claim hold).2.imp outcome_append ?_⟩
      rintro ⟨fault, hfault⟩
      exact ⟨fault, outcome_append hfault⟩
    · rw [List.mem_singleton.mp hnew, List.getElem?_concat_length]
      refine ⟨hasked, houtcome.imp (congrArg some) ?_⟩
      rintro ⟨fault, hfault⟩
      exact ⟨fault, congrArg some hfault⟩
  greedy index hindex other hother := by
    rw [List.length_append, List.length_singleton] at hindex
    rw [forall_earlier_concat (Nat.lt_succ_iff.mp hindex)]
    rcases Nat.lt_succ_iff_lt_or_eq.mp hindex with hlt | rfl
    · have hne : (index, other) ≠ (outcomes.length, box) := fun heq ↦
        Nat.ne_of_lt hlt (congrArg Prod.fst heq)
      rw [List.mem_append, List.mem_singleton, or_iff_left hne]
      exact hfit.greedy index hlt other hother
    · obtain rfl : box = other := Option.some.inj (hasked.symm.trans hother)
      exact iff_of_true (List.mem_append_right _ (List.mem_singleton_self _))
        fun claim hclaim _ ↦ hfree claim hclaim
  collided index number hcollided := by
    rcases outcome_cases hcollided with hold | ⟨rfl, hnew⟩
    · obtain ⟨other, claim, hother, hclaim, hearlier, hmeets, hmet, hbefore⟩ :=
        hfit.collided index number hold
      have hnumber : number < claims.length := (List.getElem?_eq_some_iff.mp hclaim).1
      refine ⟨other, claim, hother, ?_, hearlier, hmeets, hmet, ?_⟩
      · rw [List.getElem?_append_left hnumber, hclaim]
      · intro before hlt between hbetween
        rw [List.getElem?_append_left (Nat.lt_trans hlt hnumber)] at hbetween
        exact hbefore before hlt between hbetween
    · rcases houtcome with rfl | ⟨fault, rfl⟩ <;> cases hnew
  drawn index other hdrawn := by
    rcases outcome_cases hdrawn with hold | ⟨rfl, hnew⟩
    · obtain ⟨hclaim, hbefore⟩ := hfit.drawn index other hold
      have hindex : index < outcomes.length := hfit.lt_length hclaim
      exact ⟨List.mem_append_left _ hclaim,
        (forall_earlier_concat (Nat.le_of_lt hindex)).mpr hbefore⟩
    · rcases houtcome with rfl | ⟨fault, rfl⟩
      · obtain rfl : box = other := LabelOutcome.drawn.inj hnew
        exact ⟨List.mem_append_right _ (List.mem_singleton_self _),
          (forall_earlier_concat (Nat.le_refl _)).mpr fun claim hclaim _ ↦ hfree claim hclaim⟩
      · cases hnew

/-- One more label, whatever becomes of it, keeps the claims greedy. -/
theorem step {placed next : PlacedLabels α} (hfit : FirstFit asked outcomes claims)
    (hplaced : placed.boxes = claims.map Prod.snd)
    (hstep : LabelStep true placed (asked outcomes.length) outcome next) :
    ∃ claims', next.boxes = claims'.map Prod.snd ∧
      FirstFit asked (outcomes ++ [outcome]) claims' := by
  have hmem : ∀ claim ∈ claims, claim.2 ∈ placed.boxes := fun claim hclaim ↦
    hplaced ▸ List.mem_map_of_mem hclaim
  generalize hasked : asked outcomes.length = box? at hstep
  cases hstep with
  | noText | noAnchor | unmeasured =>
    refine ⟨claims, hplaced, hfit.skip ?_ ?_ ?_⟩
    · simp [hasked]
    · simp
    · simp
  | @collided box index hoffer =>
    rw [PlacedLabels.offer_eq_collided_iff] at hoffer
    obtain ⟨found, hfound, hmeets, hbefore⟩ := hoffer
    rw [hplaced, List.getElem?_map] at hfound
    obtain ⟨claim, hclaim, rfl⟩ := Option.map_eq_some_iff.mp hfound
    refine ⟨claims, hplaced, hfit.skip ?_ ?_ ?_⟩
    · intro other hother
      obtain rfl : box = other := Option.some.inj (hasked.symm.trans hother)
      exact ⟨claim, List.mem_of_getElem? hclaim, hmeets⟩
    · intro number hnumber
      obtain rfl : index = number := LabelOutcome.collided.inj hnumber
      refine ⟨box, claim, hasked, hclaim, hmeets, fun before hlt other hother ↦ ?_⟩
      exact hbefore before hlt other.2 (by rw [hplaced, List.getElem?_map, hother]; rfl)
    · simp
  | @drawn box hoffer =>
    rw [PlacedLabels.offer_eq_placed_iff] at hoffer
    refine ⟨claims ++ [(outcomes.length, box)], ?_, ?_⟩
    · simp [PlacedLabels.push, hplaced]
    · exact hfit.claim hasked (fun claim hclaim ↦ hoffer _ (hmem claim hclaim)) (Or.inl rfl)
  | @refused box hoffer fault =>
    -- The box was placed before the drawing was refused, so this is a claim like any other.
    rw [PlacedLabels.offer_eq_placed_iff] at hoffer
    refine ⟨claims ++ [(outcomes.length, box)], ?_, ?_⟩
    · simp [PlacedLabels.push, hplaced]
    · exact hfit.claim hasked (fun claim hclaim ↦ hoffer _ (hmem claim hclaim))
        (Or.inr ⟨fault, rfl⟩)

end FirstFit

/-! ### Whole passes -/

section Passes

variable {renderer : Renderer α} {canvas : Canvas α} {frame : Frame α}
  {features : List (Feature α)} {outcomes : List (LabelOutcome α)}

/-- The first features of a pass have placed the greedy choice among the boxes they asked for. -/
theorem firstFit_take (hcollision : renderer.options.collision = true)
    (hresult : (renderer.drawPass canvas frame features).result = .ok outcomes) {count : Nat}
    (hcount : count ≤ features.length) :
    ∃ claims, (renderer.drawPass canvas frame (features.take count)).renderer.placed.boxes =
        claims.map Prod.snd ∧
      FirstFit (renderer.askedBox? canvas frame features) (outcomes.take count) claims := by
  induction count with
  | zero =>
    refine ⟨[], ?_, FirstFit.nil⟩
    rw [List.take_zero, Renderer.placed_drawPass_nil]
    rfl
  | succ count ih =>
    obtain ⟨claims, hplaced, hfit⟩ := ih (Nat.le_of_succ_le hcount)
    obtain ⟨outcome, houtcome, hstep⟩ := Renderer.labelStep_drawPass hresult hcount
    have hlength : (outcomes.take count).length = count := by
      rw [List.length_take, Renderer.length_of_drawPass_eq_ok hresult]
      omega
    rw [hcollision] at hstep
    have hsucc : outcomes.take (count + 1) = outcomes.take count ++ [outcome] := by
      rw [List.take_add_one, houtcome, Option.toList_some]
    rw [hsucc]
    exact hfit.step hplaced (hlength.symm ▸ hstep)

/-- First fit over a whole pass, for any list of features and any canvas, whatever it measures and
refuses. Assumes: collisions are avoided, and the context could be prepared. The boxes in place when
the pass is over are those of the claims, and the claims are greedy: a feature gets its box just if
the box meets none of those of earlier features. -/
theorem drawPass_firstFit (renderer : Renderer α) (canvas : Canvas α) (frame : Frame α)
    (features : List (Feature α)) (outcomes : List (LabelOutcome α))
    (hcollision : renderer.options.collision = true)
    (hresult : (renderer.drawPass canvas frame features).result = .ok outcomes) :
    outcomes.length = features.length ∧
      ∃ claims, (renderer.drawPass canvas frame features).renderer.placed.boxes =
          claims.map Prod.snd ∧
        FirstFit (renderer.askedBox? canvas frame features) outcomes claims := by
  have hlength := Renderer.length_of_drawPass_eq_ok hresult
  refine ⟨hlength, ?_⟩
  have hwhole := firstFit_take hcollision hresult (Nat.le_refl features.length)
  rwa [List.take_length, List.take_of_length_le (Nat.le_of_eq hlength)] at hwhole

/-- Three labels, of which the first cannot be filled: nothing is seen of it, but the second meets
the box that it keeps. The third is far away. -/
theorem firstFit_crowded :
    let renderer : Renderer Float := .new .standard 32
    let canvas : Canvas Float := .monospaced 7 [] ["Perth"]
    let frame : Frame Float := .padded ⟨0, 0⟩ ⟨200, 100⟩ 0.1 ⟨-22.68, 118.35⟩ 7
    let features : List (Feature Float) := [.labelledCircle 1 ⟨0, 0⟩ "Perth",
      .labelledCircle 2 ⟨5, 0⟩ "Cossack", .labelledCircle 3 ⟨100, 0⟩ "Dampier"]
    renderer.options.collision = true ∧
      ∃ outcomes, (renderer.drawPass canvas frame features).result = .ok outcomes ∧
        outcomes.map (·.isDrawn) = [false, false, true] ∧
        outcomes.length = features.length ∧
        ∃ claims, (renderer.drawPass canvas frame features).renderer.placed.boxes =
            claims.map Prod.snd ∧
          FirstFit (renderer.askedBox? canvas frame features) outcomes claims := by
  intro renderer canvas frame features
  have hdrawn : (renderer.drawPass canvas frame features).result.toOption.map
      (·.map (·.isDrawn)) = some [false, false, true] := by decide +kernel
  cases hresult : (renderer.drawPass canvas frame features).result with
  | error fault => simp [hresult, Except.toOption] at hdrawn
  | ok outcomes =>
    rw [hresult] at hdrawn
    exact ⟨rfl, outcomes, rfl, Option.some.inj hdrawn,
      drawPass_firstFit renderer canvas frame features outcomes rfl hresult⟩

end Passes

end LabelledMap
