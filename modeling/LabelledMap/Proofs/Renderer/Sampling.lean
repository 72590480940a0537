import LabelledMap.Proofs.Renderer.Runs
import LabelledMap.Proofs.Scalar.Exact

/-!
# Samples of the pointer

Of the samples of the pointer a renderer looks at some (`Renderer.admits`) and ignores the others,
which then change nothing (`Renderer.movePointer_of_not_admits`). `Renderer.admittedTimes` are the
times of those it has looked at since the pointer last left, whatever else was done in the meantime.
The throttle remembers the latest of them, and each of them was outside the window of the one before
it (`Sampled`, `Sampled.apply`).

Together these say with exact arithmetic which samples are ignored (`Renderer.samples_throttled`).
Where the clock is not set back, being outside the window of the sample before is being an interval
later than all samples before (`pairwise_of_isChain`).
-/

set_option autoImplicit false

namespace LabelledMap

/-- A sample falls into the window that an earlier one has opened. -/
def InWindow (interval earlier now : ℝ) : Prop := earlier ≤ now ∧ now < earlier + interval

/-- A throttle drops the samples in the window of the last one that it has admitted. -/
theorem Throttle.admits_eq_false_iff {throttle : Throttle ℝ} {now : ℝ} :
    throttle.admits now = false ↔
      ∃ last, throttle.last = some last ∧ InWindow throttle.interval last now := by
  unfold admits InWindow
  cases throttle.last with
  | none => simp
  | some last => simp [sub_lt_iff_lt_add']

/-- Of times that do not decrease, each outside the window of the one before it, any two are an
interval apart. -/
theorem pairwise_of_isChain {interval : ℝ} {times : List ℝ}
    (hspaced : times.IsChain fun earlier later ↦ ¬ InWindow interval earlier later)
    (hordered : times.Pairwise (· ≤ ·)) :
    times.Pairwise fun earlier later ↦ earlier + interval ≤ later := by
  induction times with
  | nil => exact .nil
  | cons first rest ih =>
    obtain ⟨hfirst, hrest⟩ := List.pairwise_cons.mp hordered
    refine List.pairwise_cons.mpr ⟨fun later hlater ↦ ?_, ih hspaced.tail hrest⟩
    cases rest with
    | nil => exact absurd hlater List.not_mem_nil
    | cons second rest =>
      have hsecond : first + interval ≤ second := by
        by_contra! hwithin
        exact (List.isChain_cons_cons.mp hspaced).1 ⟨hfirst second List.mem_cons_self, hwithin⟩
      rcases List.mem_cons.mp hlater with rfl | hmem
      · exact hsecond
      · exact hsecond.trans ((List.pairwise_cons.mp hrest).1 later hmem)

namespace Renderer

variable {α : Type}

/-! ### Samples that are looked at -/

section Samples

variable [Scalar α]

/-- Whether a sample of the pointer at a time is looked at. -/
def admits (renderer : Renderer α) (now : α) : Bool :=
  !renderer.busy && renderer.throttle.admits now

/-- A sample that is looked at opens a window, and what the pointer touches is hovered. -/
theorem movePointer_of_admits {renderer : Renderer α} {now : α}
    (hadmits : renderer.admits now = true) (point : Point α) :
    renderer.movePointer point now =
      (hoverActions renderer.hovered (renderer.touched? point),
        { renderer with
          throttle := { renderer.throttle with last := some now }
          hovered := renderer.touched? point }) := by
  obtain ⟨hidle, hthrottle⟩ := Bool.and_eq_true_iff.mp hadmits
  have hbusy : renderer.busy = false := by simpa using hidle
  simp only [movePointer, hbusy, Bool.false_eq_true, if_false, hthrottle, if_true, Throttle.observe]

/-- A sample that is not looked at changes nothing and tells nothing. -/
theorem movePointer_of_not_admits {renderer : Renderer α} {now : α}
    (hadmits : renderer.admits now = false) (point : Point α) :
    renderer.movePointer point now = ([], renderer) := by
  unfold movePointer
  rcases Bool.and_eq_false_iff.mp hadmits with hidle | hthrottle
  · have hbusy : renderer.busy = true := by simpa using hidle
    rw [if_pos hbusy]
  · rw [hthrottle, if_neg Bool.false_ne_true, ite_self]

/-- The times of the samples that have been looked at since the pointer left, after an operation. -/
def Operation.noteAdmitted (renderer : Renderer α) (operation : Operation α) (times : List α) :
    List α :=
  match operation with
  | movePointer _ now => if renderer.admits now then times ++ [now] else times
  | losePointer => []
  | _ => times

/-- The times of the samples that a run looks at after the pointer has left for the last time. -/
def admittedTimes (renderer : Renderer α) (operations : List (Operation α)) : List α :=
  renderer.noted Operation.noteAdmitted [] operations

/-- The time of a sample of the pointer. -/
def Operation.sampleTime? : Operation α → Option α
  | movePointer _ now => some now
  | _ => none

/-- What does not come from the pointer leaves the throttle. -/
theorem throttle_apply (renderer : Renderer α) {operation : Operation α}
    (htime : operation.sampleTime? = none) (hstays : operation ≠ .losePointer) :
    (operation.apply renderer).throttle = renderer.throttle := by
  cases operation with
  | movePointer point now => cases htime
  | losePointer => exact absurd rfl hstays
  | setOptions options =>
    obtain ⟨kept, hkept⟩ := apply_setOptions renderer options
    rw [hkept]
  | drawLabels canvas layout features =>
    obtain ⟨placed, targets, counts, hkept⟩ := drawLabels_keeps renderer canvas layout features
    simp only [Operation.apply, hkept]
  | drawPass canvas frame features =>
    obtain ⟨placed, targets, counts, hkept⟩ := renderer.drawPass_keeps canvas frame features
    simp only [Operation.apply, hkept]
    rfl
  | _ => rfl

end Samples

/-! ### Runs -/

/-- The throttle remembers the last of the times, each of which was outside the window of the one
before it. -/
structure Sampled (interval : ℝ) (renderer : Renderer ℝ) (times : List ℝ) : Prop where
  interval_eq : renderer.throttle.interval = interval
  last_eq : renderer.throttle.last = times.getLast?
  spaced : times.IsChain fun earlier later ↦ ¬ InWindow interval earlier later

namespace Sampled

variable {interval : ℝ} {renderer : Renderer ℝ} {times : List ℝ}

/-- A renderer that is not busy ignores just the samples in the window of the last of the times. -/
theorem admits_eq_false_iff (hsampled : Sampled interval renderer times)
    (hidle : renderer.busy = false) {now : ℝ} :
    renderer.admits now = false ↔
      ∃ last, times.getLast? = some last ∧ InWindow interval last now := by
  unfold admits
  rw [hidle, Bool.not_false, Bool.true_and, Throttle.admits_eq_false_iff, hsampled.last_eq,
    hsampled.interval_eq]

theorem congr (hsampled : Sampled interval renderer times) {other : Renderer ℝ}
    (hthrottle : other.throttle = renderer.throttle) : Sampled interval other times :=
  ⟨hthrottle ▸ hsampled.interval_eq, hthrottle ▸ hsampled.last_eq, hsampled.spaced⟩

/-- A sample that is looked at is outside the window of the one before. -/
theorem movePointer (hsampled : Sampled interval renderer times) {now : ℝ}
    (hadmits : renderer.admits now = true) (point : Point ℝ) :
    Sampled interval (renderer.movePointer point now).2 (times ++ [now]) := by
  rw [movePointer_of_admits hadmits]
  refine ⟨hsampled.interval_eq, List.getLast?_concat.symm, ?_⟩
  refine List.isChain_append.mpr ⟨hsampled.spaced, List.isChain_singleton now, ?_⟩
  intro last hlast later hlater hwithin
  obtain rfl : now = later := Option.some.inj hlater
  obtain ⟨-, hthrottle⟩ := Bool.and_eq_true_iff.mp hadmits
  have hdrops : renderer.throttle.admits now = false :=
    Throttle.admits_eq_false_iff.mpr
      ⟨last, hsampled.last_eq.trans hlast, hsampled.interval_eq ▸ hwithin⟩
  rw [hdrops] at hthrottle
  cases hthrottle

theorem apply (hsampled : Sampled interval renderer times) (operation : Operation ℝ) :
    Sampled interval (operation.apply renderer) (operation.noteAdmitted renderer times) := by
  cases operation with
  | movePointer point now =>
    change Sampled interval (renderer.movePointer point now).2
      (if renderer.admits now then times ++ [now] else times)
    cases hadmits : renderer.admits now with
    | true => exact hsampled.movePointer hadmits point
    | false =>
      rw [movePointer_of_not_admits hadmits]
      exact hsampled
  | losePointer => exact ⟨hsampled.interval_eq, rfl, List.isChain_nil⟩
  | _ => exact hsampled.congr (throttle_apply renderer rfl (by rintro ⟨⟩))

end Sampled

theorem sampled_new (options : LabelOptions ℝ) (interval : ℝ) :
    Sampled interval (new options interval) [] := ⟨rfl, rfl, List.isChain_nil⟩

theorem sampled_run (options : LabelOptions ℝ) (interval : ℝ) (operations : List (Operation ℝ)) :
    Sampled interval ((new options interval).run operations)
      ((new options interval).admittedTimes operations) :=
  noted_run (fun _ _ operation hsampled ↦ hsampled.apply operation) (sampled_new options interval)
    operations

/-! ### Stretches without a leave -/

section Stretches

variable {stretch : List (Operation ℝ)}

/-- While the pointer stays, the samples looked at are added to those before. -/
theorem noted_of_stays (hstays : .losePointer ∉ stretch) (renderer : Renderer ℝ)
    (times : List ℝ) :
    renderer.noted Operation.noteAdmitted times stretch =
      times ++ renderer.admittedTimes stretch := by
  unfold admittedTimes
  induction stretch generalizing renderer times with
  | nil => exact (List.append_nil times).symm
  | cons operation rest ih =>
    obtain ⟨hoperation, hrest⟩ := not_or.mp (mt List.mem_cons.mpr hstays)
    have hadds : operation.noteAdmitted renderer times =
        times ++ operation.noteAdmitted renderer [] := by
      cases operation with
      | movePointer point now =>
        simp only [Operation.noteAdmitted]
        split_ifs <;> simp
      | losePointer => exact absurd rfl hoperation
      | _ => exact (List.append_nil times).symm
    simp only [noted]
    rw [ih hrest, hadds, ih hrest _ (operation.noteAdmitted renderer []), List.append_assoc]

/-- The samples looked at are among all samples, in order. -/
theorem noted_sublist (renderer : Renderer ℝ) (times : List ℝ) (stretch : List (Operation ℝ)) :
    (renderer.noted Operation.noteAdmitted times stretch).Sublist
      (times ++ stretch.filterMap Operation.sampleTime?) := by
  induction stretch generalizing renderer times with
  | nil => simp [noted]
  | cons operation rest ih =>
    refine (ih _ _).trans ?_
    cases operation with
    | movePointer point now =>
      simp only [Operation.noteAdmitted, List.filterMap_cons, Operation.sampleTime?]
      split_ifs <;> simp
    | losePointer => exact List.sublist_append_right _ _
    | _ => exact List.Sublist.refl _

theorem Sampled.pairwise {interval : ℝ} {renderer : Renderer ℝ} {times : List ℝ}
    (hsampled : Sampled interval renderer times) (hstays : .losePointer ∉ stretch)
    (hordered : (stretch.filterMap Operation.sampleTime?).Pairwise (· ≤ ·)) :
    (renderer.admittedTimes stretch).Pairwise fun earlier later ↦ earlier + interval ≤ later := by
  have hrun := noted_run (fun _ _ operation hsampled ↦ hsampled.apply operation) hsampled stretch
  rw [noted_of_stays hstays] at hrun
  exact pairwise_of_isChain hrun.spaced.right_of_append
    (hordered.sublist (noted_sublist renderer [] stretch))

end Stretches

/-- Which samples of the pointer a renderer ignores, after any run from a new one, in any order of
times and with any other operations in between. While the map is busy every sample is ignored. Of
the others just those are ignored that come less than an interval after the latest sample that was
looked at since the pointer left, or since the start, and not before it. What is ignored changes
nothing; what is looked at begins a window of its own and makes what it touches the hovered feature,
and changes nothing else. So a sample at least an interval after the latest one is looked at, and so
is a sample before it, and the window begins anew with either. In a stretch in which the pointer
does not leave and the times do not decrease, any two samples that are looked at are at least an
interval apart. -/
theorem samples_throttled (options : LabelOptions ℝ) (interval : ℝ)
    (operations : List (Operation ℝ)) :
    let renderer := (new options interval).run operations
    let times := (new options interval).admittedTimes operations
    (∀ point now,
      (renderer.busy = true → renderer.movePointer point now = ([], renderer)) ∧
      (renderer.busy = false → (renderer.admits now = false ↔
        ∃ last, times.getLast? = some last ∧ last ≤ now ∧ now < last + interval)) ∧
      (renderer.admits now = false → renderer.movePointer point now = ([], renderer)) ∧
      (renderer.admits now = true → renderer.movePointer point now =
        (hoverActions renderer.hovered (renderer.touched? point),
          { renderer with
            throttle := ⟨interval, some now⟩
            hovered := renderer.touched? point })) ∧
      ∀ last, renderer.busy = false → times.getLast? = some last →
        last + interval ≤ now ∨ now < last →
        renderer.admits now = true ∧
          (renderer.movePointer point now).2.throttle = ⟨interval, some now⟩) ∧
    ∀ stretch : List (Operation ℝ), .losePointer ∉ stretch →
      (stretch.filterMap Operation.sampleTime?).Pairwise (· ≤ ·) →
      (renderer.admittedTimes stretch).Pairwise fun earlier later ↦ earlier + interval ≤ later := by
  intro renderer times
  have hsampled : Sampled interval renderer times := sampled_run options interval operations
  have hlooked (point : Point ℝ) (now : ℝ) (hadmits : renderer.admits now = true) :
      renderer.movePointer point now =
        (hoverActions renderer.hovered (renderer.touched? point),
          { renderer with
            throttle := ⟨interval, some now⟩
            hovered := renderer.touched? point }) := by
    have hwindow : { renderer.throttle with last := some now } = ⟨interval, some now⟩ :=
      congrArg (Throttle.mk · (some now)) hsampled.interval_eq
    rw [movePointer_of_admits hadmits, hwindow]
  refine ⟨fun point now ↦ ⟨fun hbusy ↦ ?_, fun hidle ↦ hsampled.admits_eq_false_iff hidle,
    fun hadmits ↦ movePointer_of_not_admits hadmits point, hlooked point now,
    fun last hidle hlast hout ↦ ?_⟩,
    fun stretch hstays hordered ↦ hsampled.pairwise hstays hordered⟩
  · exact movePointer_of_not_admits (by simp [admits, hbusy]) point
  · have hadmits : renderer.admits now = true := by
      rw [← Bool.not_eq_false, hsampled.admits_eq_false_iff hidle, hlast]
      rintro ⟨other, hother, hwithin⟩
      obtain rfl : last = other := Option.some.inj hother
      rcases hout with hlate | hearly
      · exact hwithin.2.not_ge hlate
      · exact hwithin.1.not_gt hearly
    rw [hlooked point now hadmits]
    exact ⟨hadmits, rfl⟩

/-- The clock is set back after a sample at 100. While it goes on from 40, one sample comes while
the map is busy and one is too early. -/
theorem samples_throttled_set_back :
    let start : Renderer ℝ := .new .standard 32
    let point : Point ℝ := ⟨0, 0⟩
    let renderer := start.run [.movePointer point 100]
    let busy := start.run [.movePointer point 100, .setBusy true]
    let stretch : List (Operation ℝ) := [.movePointer point 40, .setBusy true,
      .movePointer point 60, .setBusy false, .movePointer point 70, .movePointer point 80]
    busy.busy = true ∧ busy.movePointer point 200 = ([], busy) ∧
      renderer.busy = false ∧ renderer.admits 120 = false ∧
      renderer.movePointer point 120 = ([], renderer) ∧
      renderer.admits 40 = true ∧
      (renderer.movePointer point 40).2.throttle = ⟨32, some 40⟩ ∧
      renderer.movePointer point 40 = ([], { renderer with throttle := ⟨32, some 40⟩ }) ∧
      renderer.admittedTimes stretch = [40, 80] ∧
      (renderer.admittedTimes stretch).Pairwise fun earlier later ↦ earlier + 32 ≤ later := by
  intro start point renderer busy stretch
  have hbusy : busy.busy = true := rfl
  have hidle : renderer.busy = false := rfl
  have hlast : (start.admittedTimes [.movePointer point 100]).getLast? = some 100 := rfl
  obtain ⟨hsample, hstretch⟩ := samples_throttled .standard 32 [.movePointer point 100]
  have hdropped : renderer.admits 120 = false :=
    ((hsample point 120).2.1 hidle).mpr ⟨100, hlast, by norm_num, by norm_num⟩
  obtain ⟨hadmits, hrestarts⟩ :=
    (hsample point 40).2.2.2.2 100 hidle hlast (Or.inr (by norm_num))
  refine ⟨hbusy, ((samples_throttled .standard 32 _).1 point 200).1 hbusy, hidle, hdropped,
    (hsample point 120).2.2.1 hdropped, hadmits, hrestarts, (hsample point 40).2.2.2.1 hadmits, ?_,
    hstretch stretch ?_ ?_⟩
  · norm_num [stretch, renderer, start, run, admittedTimes, noted, Operation.noteAdmitted,
      Operation.apply, admits, movePointer, Throttle.admits, Throttle.observe, new]
  · simp [stretch]
  · change List.Pairwise (· ≤ ·) [(40 : ℝ), 60, 70, 80]
    norm_num

end Renderer

end LabelledMap
