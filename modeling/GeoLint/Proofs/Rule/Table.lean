import GeoLint.Proofs.Entries
import GeoLint.Rule.Basic

/-!
# What a table of rules holds

A table takes a rule either in the place of the one of its name or at its end.  So the names in it
are always distinct and stand in the order in which they first came (`ids_insertAll`,
`nodup_ids_insertAll`), and under each name is the last rule that was given that name
(`find?_insertAll`).  These two say all about the table: its rules are the `standing` ones of those
it was given (`rules_insertAll`), and giving these alone to a new table makes the same table
(`insertAll_standing`).
-/

namespace GeoLint

namespace RuleTable

/-- The rules that stand after a list of rules: each name in the order in which the names first
came, and under it the last rule of that name. -/
def standing (rs : List Rule) : List Rule :=
  (rs.map Rule.id).eraseDups.filterMap fun id => rs.findRev? fun r => r.id = id

/-! ### One more rule -/

section Insert

variable {t : RuleTable} {r : Rule}

theorem ids_insert_of_mem (h : r.id ∈ t.ids) : (t.insert r).ids = t.ids := by
  obtain ⟨rules⟩ := t
  simp only [insert, ids] at h ⊢
  induction rules with
  | nil => cases h
  | cons s rules ih =>
    by_cases hs : s.id = r.id
    · rw [insertInto, if_pos hs, List.map_cons, List.map_cons, hs]
    · have hrest : r.id ∈ rules.map Rule.id :=
        (List.mem_cons.1 h).resolve_left (Ne.symm hs)
      rw [insertInto, if_neg hs, List.map_cons, List.map_cons, ih hrest]

theorem rules_insert_of_not_mem (h : r.id ∉ t.ids) : (t.insert r).rules = t.rules ++ [r] := by
  obtain ⟨rules⟩ := t
  simp only [insert, ids] at h ⊢
  induction rules with
  | nil => rfl
  | cons s rules ih =>
    rw [List.map_cons, List.mem_cons, not_or] at h
    rw [insertInto, if_neg (Ne.symm h.1), ih h.2, List.cons_append]

theorem ids_insert_of_not_mem (h : r.id ∉ t.ids) : (t.insert r).ids = t.ids ++ [r.id] := by
  rw [ids, rules_insert_of_not_mem h, List.map_append]
  rfl

theorem find?_insert (id : String) :
    (t.insert r).find? id = if r.id = id then some r else t.find? id := by
  obtain ⟨rules⟩ := t
  simp only [insert, find?]
  induction rules with
  | nil => by_cases h : r.id = id <;> simp [insertInto, h]
  | cons s rules ih =>
    by_cases hs : s.id = r.id
    · by_cases h : r.id = id <;> simp [insertInto, hs, h]
    · by_cases hid : s.id = id
      · have hr : r.id ≠ id := fun h => hs (hid.trans h.symm)
        rw [insertInto, if_neg hs, if_neg hr, List.find?_cons_of_pos (by simpa using hid),
          List.find?_cons_of_pos (by simpa using hid)]
      · simp [insertInto, hs, hid, ih]

end Insert

/-! ### Many rules -/

theorem insertAll_concat (t : RuleTable) (rs : List Rule) (r : Rule) :
    t.insertAll (rs ++ [r]) = (t.insertAll rs).insert r := by
  simp [insertAll]

/-- The names stand in the order in which they first came. -/
theorem ids_insertAll (rs : List Rule) :
    (empty.insertAll rs).ids = (rs.map Rule.id).eraseDups := by
  induction rs using List.reverseRecOn with
  | nil => rfl
  | append_singleton rs r ih =>
    rw [insertAll_concat, List.map_append, List.map_singleton]
    by_cases h : r.id ∈ rs.map Rule.id
    · rw [Entries.eraseDups_concat_of_mem h, ← ih,
        ids_insert_of_mem (by rwa [ih, List.mem_eraseDups])]
    · rw [Entries.eraseDups_concat_of_not_mem h, ← ih,
        ids_insert_of_not_mem (by rwa [ih, List.mem_eraseDups])]

theorem nodup_ids_insertAll (rs : List Rule) : (empty.insertAll rs).ids.Nodup := by
  rw [ids_insertAll]
  exact Entries.nodup_eraseDups _

/-- Under each name is the last rule that was given that name. -/
theorem find?_insertAll (rs : List Rule) (id : String) :
    (empty.insertAll rs).find? id = rs.findRev? fun r => r.id = id := by
  induction rs using List.reverseRecOn with
  | nil => rfl
  | append_singleton rs r ih =>
    rw [insertAll_concat, find?_insert, ih]
    by_cases h : r.id = id <;> simp [h]

/-- A table with distinct names is made of the rule that each name finds. -/
theorem rules_eq_filterMap {t : RuleTable} (h : t.ids.Nodup) :
    t.rules = t.ids.filterMap t.find? := by
  have hfind : ∀ r ∈ t.rules, (t.find? ∘ Rule.id) r = some r := by
    intro r hr
    cases hfound : t.find? r.id with
    | none => simpa using List.find?_eq_none.1 hfound r hr
    | some s =>
      have hid : s.id = r.id := by simpa using List.find?_some hfound
      have hs : s = r := List.inj_on_of_nodup_map h (List.mem_of_find?_eq_some hfound) hr hid
      rw [Function.comp_apply, hfound, hs]
  rw [ids, List.filterMap_map, List.filterMap_congr hfind, List.filterMap_some]

theorem rules_insertAll (rs : List Rule) : (empty.insertAll rs).rules = standing rs := by
  rw [rules_eq_filterMap (nodup_ids_insertAll rs), ids_insertAll, standing]
  refine List.filterMap_congr fun id _ => find?_insertAll rs id

theorem insertAll_of_nodup {rs : List Rule} (h : (rs.map Rule.id).Nodup) :
    empty.insertAll rs = ⟨rs⟩ := by
  induction rs using List.reverseRecOn with
  | nil => rfl
  | append_singleton rs r ih =>
    rw [List.map_append, List.map_singleton, List.nodup_append] at h
    have hr : r.id ∉ (RuleTable.mk rs).ids := fun hmem => h.2.2 _ hmem _ (by simp) rfl
    rw [insertAll_concat, ih h.1]
    exact congrArg RuleTable.mk (rules_insert_of_not_mem hr)

theorem insertAll_standing (rs : List Rule) :
    empty.insertAll (standing rs) = empty.insertAll rs := by
  rw [← rules_insertAll, insertAll_of_nodup (nodup_ids_insertAll rs)]

end RuleTable

end GeoLint
