import GeoLint.Validation

/-!
# Checks that pass

A check gives a value, or all that is wrong.  For each way to put checks together there is a lemma
that says when the whole passes and with which value: if both of two checks do, if each of a list
does, if the check of the first field that is there does.  So the check of a record passes exactly
if the checks of its fields do, and never has to be opened up further.
-/

namespace GeoLint

variable {α β : Type}

namespace Checked

theorem map_eq_ok_iff {f : α → β} {c : Checked α} {b : β} :
    c.map f = .ok b ↔ ∃ a, c = .ok a ∧ f a = b := by
  cases c <;> simp [Except.map]

@[simp] theorem fail_ne_ok {flaw : Flaw} {a : α} : (fail flaw : Checked α) ≠ .ok a := by
  intro h
  cases h

@[simp] theorem under_eq_ok_iff {step : PathStep} {c : Checked α} {a : α} :
    under step c = .ok a ↔ c = .ok a := by
  cases c <;> simp [under]

@[simp] theorem both_eq_ok_iff {c : Checked α} {d : Checked β} {p : α × β} :
    both c d = .ok p ↔ c = .ok p.1 ∧ d = .ok p.2 := by
  obtain ⟨a, b⟩ := p
  cases c <;> cases d <;> simp [both]

/-- **All of a list pass** if each does. -/
theorem all_eq_ok_iff {cs : List (Checked α)} {as : List α} :
    all cs = .ok as ↔ cs = as.map .ok := by
  induction cs generalizing as with
  | nil => cases as <;> simp [all]
  | cons c cs ih =>
    rw [all, map_eq_ok_iff]
    constructor
    · rintro ⟨⟨a, as⟩, hboth, rfl⟩
      obtain ⟨hc, hcs⟩ := both_eq_ok_iff.1 hboth
      rw [hc, ih.1 hcs, List.map_cons]
    · intro h
      obtain ⟨a, as, rfl, rfl, hcs⟩ := List.map_eq_cons_iff.1 h.symm
      exact ⟨(a, as), both_eq_ok_iff.2 ⟨rfl, ih.2 hcs.symm⟩, rfl⟩

end Checked

open Checked

namespace Value

@[simp] theorem asText_eq_ok_iff {v : Value} {s : String} : v.asText = .ok s ↔ v = .text s := by
  cases v <;> simp [asText]

/-- A list passes if all of its items do. -/
theorem asList_eq_ok_iff {check : Value → Checked α} {v : Value} {as : List α} :
    v.asList check = .ok as ↔ ∃ items, v = .list items ∧ items.map check = as.map .ok := by
  have hitems (items : List Value) (f : Nat → PathStep) :
      items.mapIdx (fun i v => under (f i) (check v)) = as.map .ok ↔
        items.map check = as.map .ok := by
    induction items generalizing as f with
    | nil => simp
    | cons v items ih =>
      cases as with
      | nil => simp
      | cons a as => simp [List.mapIdx_cons, ih]
  cases v <;> simp [asList, all_eq_ok_iff, hitems]

/-- What may be nothing passes as nothing, or by its check. -/
theorem asOption_eq_ok_iff {check : Value → Checked α} {v : Value} {o : Option α} :
    v.asOption check = .ok o ↔
      v = .null ∧ none = o ∨ v ≠ .null ∧ ∃ a, check v = .ok a ∧ some a = o := by
  cases v <;> simp [asOption, map_eq_ok_iff]

end Value

namespace Table

/-- The value under the first of several names that the table has. -/
def first? (t : Table) (names : List String) : Option Value :=
  names.findSome? t.get?

@[simp] theorem first?_nil (t : Table) : t.first? [] = none := rfl

@[simp] theorem first?_cons (t : Table) (name : String) (others : List String) :
    t.first? (name :: others) = (t.get? name).or (t.first? others) := by
  rw [first?, List.findSome?_cons]
  cases t.get? name <;> rfl

/-- **A field that has to be there** passes if the check of the first of its names does. -/
theorem required_eq_ok_iff {t : Table} {name : String} {others : List String}
    {check : Value → Checked α} {a : α} :
    t.required name others check = .ok a ↔
      ∃ v, t.first? (name :: others) = some v ∧ check v = .ok a := by
  have hfirst : ((name :: others).findSome? fun n => (t.get? n).map (n, ·)).map Prod.snd =
      t.first? (name :: others) := by
    rw [first?, List.map_findSome?]
    congr 1
    funext n
    rw [Function.comp_apply]
    cases t.get? n <;> rfl
  rw [required, ← hfirst]
  cases (name :: others).findSome? fun n => (t.get? n).map (n, ·) <;> simp

/-- **A field that may be left out** passes if its check does, or with what stands for it. -/
theorem optional_eq_ok_iff {t : Table} {name : String} {default : α} {check : Value → Checked α}
    {a : α} :
    t.optional name default check = .ok a ↔
      t.get? name = none ∧ default = a ∨ ∃ v, t.get? name = some v ∧ check v = .ok a := by
  rw [optional]
  cases t.get? name <;> simp

end Table

end GeoLint
