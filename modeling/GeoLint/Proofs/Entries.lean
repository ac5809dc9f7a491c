import Mathlib.Data.List.Induction
import Mathlib.Data.List.Nodup

/-!
# Entries under keys

Rules, commands, settings and diagnostics are all kept the same way: as entries under keys, in the
order in which the keys first came.  This order is that of `List.eraseDups`, which takes one more key
at its end or not at all (`eraseDups_concat_of_mem`, `eraseDups_concat_of_not_mem`).  Where the keys
are distinct, an entry is what a look-up of its key finds (`lookup_of_mem`).  Keys made of a name and a
number are distinct if the numbers are (`numbered_injective`).
-/

namespace GeoLint

namespace Entries

section Keys

variable {α β : Type} [BEq α] [LawfulBEq α]

theorem eraseDups_concat_of_mem {keys : List α} {key : α} (h : key ∈ keys) :
    (keys ++ [key]).eraseDups = keys.eraseDups := by
  simp [List.eraseDups_append, List.removeAll, h]

theorem eraseDups_concat_of_not_mem {keys : List α} {key : α} (h : key ∉ keys) :
    (keys ++ [key]).eraseDups = keys.eraseDups ++ [key] := by
  simp [List.eraseDups_append, List.removeAll, h, List.eraseDups_cons]

theorem nodup_eraseDups (keys : List α) : keys.eraseDups.Nodup := by
  induction keys using List.reverseRecOn with
  | nil => exact List.nodup_nil
  | append_singleton keys key ih =>
    by_cases h : key ∈ keys
    · rwa [eraseDups_concat_of_mem h]
    · rw [eraseDups_concat_of_not_mem h, ← List.concat_eq_append]
      exact ih.concat (by rwa [List.mem_eraseDups])

theorem lookup_cons_ite [DecidableEq α] (e : α × β) (entries : List (α × β)) (key : α) :
    (e :: entries).lookup key = if e.1 = key then some e.2 else entries.lookup key := by
  rw [List.lookup_cons]
  by_cases h : e.1 = key
  · simp [h]
  · simp [h, beq_false_of_ne (Ne.symm h)]

theorem mem_of_lookup {entries : List (α × β)} {key : α} {b : β}
    (h : entries.lookup key = some b) : (key, b) ∈ entries := by
  obtain ⟨before, after, rfl, -⟩ := List.lookup_eq_some_iff.1 h
  simp

theorem lookup_eq_none_iff {entries : List (α × β)} {key : α} :
    entries.lookup key = none ↔ key ∉ entries.map Prod.fst := by
  rw [List.lookup_eq_none_iff, List.mem_map]
  constructor
  · rintro h ⟨e, he, rfl⟩
    simpa using h e he
  · intro h e he
    rw [bne_iff_ne]
    rintro rfl
    exact h ⟨e, he, rfl⟩

omit [LawfulBEq α] in
theorem lookup_map {γ : Type} (f : β → γ) (entries : List (α × β)) (key : α) :
    (entries.map fun e => (e.1, f e.2)).lookup key = (entries.lookup key).map f := by
  induction entries with
  | nil => rfl
  | cons e entries ih =>
    rw [List.map_cons, List.lookup_cons, List.lookup_cons, ih]
    cases key == e.1 <;> rfl

/-- Where keys are distinct, each finds its own entry. -/
theorem lookup_of_mem {entries : List (α × β)} (h : (entries.map Prod.fst).Nodup) {key : α} {b : β}
    (hmem : (key, b) ∈ entries) : entries.lookup key = some b := by
  obtain ⟨before, after, rfl⟩ := List.append_of_mem hmem
  rw [List.map_append, List.nodup_append] at h
  refine List.lookup_eq_some_iff.2 ⟨before, after, rfl, fun e he => ?_⟩
  rw [bne_iff_ne]
  exact fun heq => h.2.2 e.1 (List.mem_map_of_mem he) key (by simp) heq.symm

end Keys

/-! ### Numbers in keys -/

theorem eq_of_toDigits {i j : Nat} (h : Nat.toDigits 10 i = Nat.toDigits 10 j) : i = j := calc
  i = Nat.ofDigitChars 10 (Nat.toDigits 10 i) 0 := Nat.ofDigitChars_ten_toDigits.symm
  _ = Nat.ofDigitChars 10 (Nat.toDigits 10 j) 0 := by rw [h]
  _ = j := Nat.ofDigitChars_ten_toDigits

theorem numbered_injective (name : String) :
    Function.Injective fun i : Nat => name ++ toString i := by
  intro i j h
  have hrepr : i.repr = j.repr := (String.append_right_inj name).1 h
  apply eq_of_toDigits
  rw [← Nat.toList_repr, ← Nat.toList_repr, hrepr]

end Entries

end GeoLint
