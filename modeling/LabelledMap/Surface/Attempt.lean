import LabelledMap.Decimal.Numeral

/-!
# Attempts

Drawing consists of calls to the page, and the page can refuse some of them. Which ones it refuses
may depend on all it was asked before, so `Refusals` is a function of the calls made earlier and of
the call at hand. `Refusals.attempt` makes a list of calls one after the other and stops at the
first refusal; what it returns are the calls that were made, the refused one among them, and the
reason. `Refusals.after` is how the page behaves once some calls have been made, and attempting two
lists one after the other is attempting them together (`Refusals.attempt_append`).
-/

set_option autoImplicit false

namespace LabelledMap

/-- The value a refused call throws: a text of its own, or some other value. -/
inductive Refusal (α : Type) where
  | message (text : String)
  | number (value : α)
  | boolean (value : Bool)
  | null
  | undefined
deriving DecidableEq

/-- What a refusal says: its own text, or a description of the value. -/
def Refusal.text {α : Type} [Legible α] : Refusal α → String
  | message text => text
  | number value => "JsValue(" ++ Legible.text value ++ ")"
  | boolean true => "JsValue(true)"
  | boolean false => "JsValue(false)"
  | null => "JsValue(null)"
  | undefined => "JsValue(undefined)"

/-- For the calls made earlier and the call at hand, the reason to refuse it, if it is refused. -/
abbrev Refusals (call reason : Type) := List call → call → Option reason

namespace Refusals

variable {call reason : Type}

/-- The refusals once some calls have been made. -/
def after (refusals : Refusals call reason) (made : List call) : Refusals call reason :=
  fun earlier next ↦ refusals (made ++ earlier) next

/-- The calls that are made of a list, up to and with the first one refused, and the reason. -/
def attempt (refusals : Refusals call reason) : List call → List call × Option reason
  | [] => ([], none)
  | next :: rest =>
    match refusals [] next with
    | some reason => ([next], some reason)
    | none =>
      let (made, refused) := attempt (refusals.after [next]) rest
      (next :: made, refused)

@[simp] theorem after_nil (refusals : Refusals call reason) : refusals.after [] = refusals := rfl

theorem after_after (refusals : Refusals call reason) (first second : List call) :
    (refusals.after first).after second = refusals.after (first ++ second) := by
  funext earlier next
  simp [after]

/-- Without a refusal all calls have been made. -/
theorem attempt_fst_of_none {refusals : Refusals call reason} {calls : List call}
    (haccepted : (refusals.attempt calls).2 = none) : (refusals.attempt calls).1 = calls := by
  induction calls generalizing refusals with
  | nil => rfl
  | cons next rest ih =>
    unfold attempt at haccepted ⊢
    cases hnext : refusals [] next with
    | some reason => simp [hnext] at haccepted
    | none =>
      simp only [hnext] at haccepted ⊢
      rw [ih haccepted]

/-- The calls that were made are the beginning of the list. -/
theorem attempt_fst_prefix (refusals : Refusals call reason) (calls : List call) :
    (refusals.attempt calls).1 <+: calls := by
  induction calls generalizing refusals with
  | nil => exact List.nil_prefix
  | cons next rest ih =>
    unfold attempt
    cases refusals [] next with
    | some reason => exact ⟨rest, rfl⟩
    | none => exact (List.prefix_cons_inj next).mpr (ih _)

/-- Attempting two lists: the second is begun only if nothing in the first was refused. -/
theorem attempt_append (refusals : Refusals call reason) (first second : List call) :
    refusals.attempt (first ++ second) =
      match refusals.attempt first with
      | (made, some reason) => (made, some reason)
      | (made, none) =>
        let (more, refused) := (refusals.after made).attempt second
        (made ++ more, refused) := by
  induction first generalizing refusals with
  | nil => rfl
  | cons next rest ih =>
    simp only [List.cons_append, attempt]
    cases hnext : refusals [] next with
    | some reason => rfl
    | none =>
      simp only [ih]
      cases hrest : (refusals.after [next]).attempt rest with
      | mk made refused =>
        cases refused with
        | some reason => rfl
        | none => simp [after_after]

end Refusals

end LabelledMap
