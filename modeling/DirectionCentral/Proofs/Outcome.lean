import Mathlib.Data.List.Forall2

/-!
# Outcomes

What a successful outcome of composed steps tells about the steps. A list of steps succeeds just if
every step does (`mapM_eq_ok_iff`), so that what each step does can be composed along the lists
(`forall₂_trans`). If it fails, it is for the first step that does (`error?_mapM`). What composed
steps can fail with is what the steps can fail with (`Fails`).
-/

namespace DirectionCentral

variable {α β ε ε' : Type}

/-- Two steps succeed just if the first one does and the second one does on its result. -/
theorem bind_eq_ok_iff {first : Except ε α} {second : α → Except ε β} {b : β} :
    first.bind second = .ok b ↔ ∃ a, first = .ok a ∧ second a = .ok b := by
  cases first with
  | error e => simp [Except.bind]
  | ok a => simp [Except.bind]

/-- A mapped step succeeds just if the step does. -/
theorem map_eq_ok_iff {step : Except ε α} {f : α → β} {b : β} :
    step.map f = .ok b ↔ ∃ a, step = .ok a ∧ f a = b := by
  cases step with
  | error e => simp [Except.map]
  | ok a => simp [Except.map]

/-- A step with another error succeeds just if the step does. -/
theorem mapError_eq_ok_iff {step : Except ε α} {f : ε → ε'} {a : α} :
    step.mapError f = .ok a ↔ step = .ok a := by
  cases step with
  | error e => simp [Except.mapError]
  | ok a => simp [Except.mapError]

/-- Changing the error of two steps is changing that of each. -/
theorem mapError_bind (first : Except ε α) (second : α → Except ε β) (f : ε → ε') :
    (first.bind second).mapError f =
      (first.mapError f).bind fun a => (second a).mapError f := by
  cases first <;> rfl

/-- Changing the error of a mapped step is mapping the step with that error. -/
theorem mapError_map (step : Except ε α) (g : α → β) (f : ε → ε') :
    (step.map g).mapError f = (step.mapError f).map g := by
  cases step <;> rfl

/-- Steps over a list succeed just if each of them does. -/
theorem mapM_eq_ok_iff {f : α → Except ε β} {as : List α} {bs : List β} :
    as.mapM f = .ok bs ↔ List.Forall₂ (fun a b => f a = .ok b) as bs := by
  induction as generalizing bs with
  | nil =>
    rw [List.mapM_nil, List.forall₂_nil_left_iff]
    exact ⟨fun same => (Except.ok.inj same).symm, fun same => by rw [same]; rfl⟩
  | cons a as ih =>
    rw [List.mapM_cons, List.forall₂_cons_left_iff]
    constructor
    · intro all
      obtain ⟨b, head, rest⟩ := bind_eq_ok_iff.1 all
      obtain ⟨tail, each, same⟩ := bind_eq_ok_iff.1 rest
      exact ⟨b, tail, head, ih.1 each, (Except.ok.inj same).symm⟩
    · rintro ⟨b, tail, head, each, rfl⟩
      exact bind_eq_ok_iff.2 ⟨b, head, bind_eq_ok_iff.2 ⟨tail, ih.2 each, rfl⟩⟩

/-- Steps over a list succeed if each of them does. -/
theorem exists_mapM_eq_ok {f : α → Except ε β} {as : List α} (each : ∀ a ∈ as, ∃ b, f a = .ok b) :
    ∃ bs, as.mapM f = .ok bs := by
  induction as with
  | nil => exact ⟨[], rfl⟩
  | cons a as ih =>
    obtain ⟨first, others⟩ := List.forall_mem_cons.1 each
    obtain ⟨b, head⟩ := first
    obtain ⟨bs, tail⟩ := ih others
    exact ⟨b :: bs, mapM_eq_ok_iff.2 (.cons head (mapM_eq_ok_iff.1 tail))⟩

/-- Related lists are composed element by element. -/
theorem forall₂_trans {γ : Type} {R : α → β → Prop} {S : β → γ → Prop} {T : α → γ → Prop}
    (compose : ∀ {a b c}, R a b → S b c → T a c) {as : List α} {bs : List β} {cs : List γ}
    (first : List.Forall₂ R as bs) (second : List.Forall₂ S bs cs) : List.Forall₂ T as cs := by
  induction first generalizing cs with
  | nil =>
    cases second
    exact .nil
  | cons head _ ih =>
    cases second with
    | cons head' tail => exact .cons (compose head head') (ih tail)

/-- What is related to a list with an element in the middle is such a list itself. -/
theorem exists_related_split {R : α → β → Prop} {as : List α} {front : List β} {b : β}
    {back : List β} (related : List.Forall₂ R as (front ++ b :: back)) :
    ∃ front' a back', as = front' ++ a :: back' ∧ List.Forall₂ R front' front ∧ R a b ∧
      List.Forall₂ R back' back := by
  induction front generalizing as with
  | nil =>
    cases related with
    | cons here later => exact ⟨[], _, _, rfl, .nil, here, later⟩
  | cons first front ih =>
    cases related with
    | cons one others =>
      obtain ⟨front', a, back', rfl, earlier, here, later⟩ := ih others
      exact ⟨_ :: front', a, back', rfl, .cons one earlier, here, later⟩

/-! ## Errors -/

/-- The error of a step, if it fails. -/
def error? : Except ε α → Option ε
  | .ok _ => none
  | .error e => some e

/-- A step has an error just if it fails with it. -/
theorem error?_eq_some_iff {step : Except ε α} {e : ε} :
    error? step = some e ↔ step = .error e := by
  cases step <;> simp [error?]

/-- A step has no error just if it succeeds. -/
theorem error?_eq_none_iff {step : Except ε α} : error? step = none ↔ ∃ a, step = .ok a := by
  cases step <;> simp [error?]

/-- A mapped step has the error of the step. -/
theorem error?_map (step : Except ε α) (f : α → β) : error? (step.map f) = error? step := by
  cases step <;> rfl

/-- A step with another error fails just if the step does. -/
theorem error?_mapError (step : Except ε α) (f : ε → ε') :
    error? (step.mapError f) = (error? step).map f := by
  cases step <;> rfl

/-- Steps over a list have the error of the first step that fails. -/
theorem error?_mapM (f : α → Except ε β) (as : List α) :
    error? (as.mapM f) = as.findSome? fun a => error? (f a) := by
  induction as with
  | nil => rfl
  | cons a as ih =>
    rw [List.mapM_cons, List.findSome?_cons, ← ih]
    cases f a with
    | error e => rfl
    | ok b => exact error?_map (as.mapM f) (b :: ·)

/-- Whatever a step fails with has a property. -/
def Fails (P : ε → Prop) (step : Except ε α) : Prop := ∀ e, step = .error e → P e

namespace Fails

variable {P : ε → Prop} {first : Except ε α}

/-- A result is no failure. -/
theorem ok (P : ε → Prop) (a : α) : Fails P (.ok a) := fun _ fails => by contradiction

/-- An error is the one that a step fails with. -/
theorem error {e : ε} (holds : P e) : Fails (α := α) P (.error e) := fun _ same =>
  Except.error.inj same ▸ holds

/-- Two steps fail as the first one or the second one does. -/
theorem bind {second : α → Except ε β} (one : Fails P first) (other : ∀ a, Fails P (second a)) :
    Fails P (first.bind second) := by
  cases first with
  | error e => exact error (one e rfl)
  | ok a => exact other a

/-- A mapped step fails as the step does. -/
theorem map (one : Fails P first) (f : α → β) : Fails P (first.map f) := by
  cases first with
  | error e => exact error (one e rfl)
  | ok a => exact ok P (f a)

end Fails

end DirectionCentral
