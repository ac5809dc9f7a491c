import GeoLint.Catalogue.Bundled
import GeoLint.Proofs.Entries
import Mathlib.Algebra.GroupWithZero.Nat

/-!
# What a catalogue holds

A catalogue takes an overload behind those of its command (`overloads?_add`).  So under each name
are the overloads of that name, in the order in which they were given (`overloads?_ofOverloads`).
If they come from records, they are those of the records of that name (`overloads?_ofRecords`), and
a name under which there would be none is not known (`ne_nil_of_overloads?`).

The records themselves may stand in any order, and the signature of one may have many branches or
none.  `ofRecords_groups` says what becomes of the branches: they are grouped by command, and none
is lost, repeated or moved before another of its command.
-/

namespace GeoLint

namespace Catalogue

/-- **One more overload** stands behind those of its command. -/
theorem overloads?_add (c : Catalogue) (o : Overload) (name : String) :
    (c.add o).overloads? name =
      if o.command = name then some ((c.overloads? name).getD [] ++ [o])
      else c.overloads? name := by
  obtain ⟨entries⟩ := c
  simp only [overloads?, add]
  induction entries with
  | nil => rw [addTo, Entries.lookup_cons_ite, List.lookup_nil, Option.getD_none, List.nil_append]
  | cons entry rest ih =>
    obtain ⟨key, os⟩ := entry
    rw [addTo, Entries.lookup_cons_ite]
    by_cases hkey : key = o.command
    · rw [if_pos hkey, Entries.lookup_cons_ite, hkey]
      by_cases hname : o.command = name <;> simp [hname]
    · rw [if_neg hkey, Entries.lookup_cons_ite, ih]
      by_cases hname : key = name
      · have hother : o.command ≠ name := fun h => hkey (hname.trans h.symm)
        simp only [if_pos hname, if_neg hother]
      · rw [if_neg hname, if_neg hname]

/-- **Under a name are its overloads**, in the order in which they were given. -/
theorem overloads?_ofOverloads (os : List Overload) (name : String) :
    (ofOverloads os).overloads? name =
      if name ∈ os.map Overload.command then some (os.filter fun o => o.command = name)
      else none := by
  induction os using List.reverseRecOn with
  | nil => rfl
  | append_singleton os o ih =>
    rw [ofOverloads, List.foldl_append, ← ofOverloads, List.foldl_cons, List.foldl_nil,
      overloads?_add, ih]
    by_cases hname : o.command = name
    · by_cases hmem : name ∈ os.map Overload.command
      · simp [hname, hmem]
      · have hnone : os.filter (fun o => o.command = name) = [] := by
          simpa using hmem
        simp [hname, hmem, hnone]
    · have hne : name ≠ o.command := Ne.symm hname
      simp [hname, hne]

/-- All overloads of a record are of its command. -/
theorem command_of_mem_overloads {r : Record} {o : Overload} (h : o ∈ r.overloads) :
    o.command = r.command := by
  obtain ⟨b, -, rfl⟩ := List.mem_map.1 h
  rfl

theorem filter_flatMap_overloads (records : List Record) (name : String) :
    (records.flatMap Record.overloads).filter (fun o => o.command = name) =
      (records.filter fun r => r.command = name).flatMap Record.overloads := by
  induction records with
  | nil => rfl
  | cons r records ih =>
    rw [List.flatMap_cons, List.filter_append, ih, List.filter_cons]
    by_cases hname : r.command = name
    · have hall : r.overloads.filter (fun o => o.command = name) = r.overloads :=
        List.filter_eq_self.2 fun o ho => by simp [command_of_mem_overloads ho, hname]
      simp [hname, hall]
    · have hnone : r.overloads.filter (fun o => o.command = name) = [] :=
        List.filter_eq_nil_iff.2 fun o ho => by simp [command_of_mem_overloads ho, hname]
      simp [hname, hnone]

/-- **Under a name are the overloads of the records of that name**, record by record. -/
theorem overloads?_ofRecords (records : List Record) (name : String) :
    (ofRecords records).overloads? name =
      if (records.filter fun r => r.command = name).flatMap Record.overloads = [] then none
      else some ((records.filter fun r => r.command = name).flatMap Record.overloads) := by
  rw [ofRecords, overloads?_ofOverloads, ← filter_flatMap_overloads]
  by_cases hmem : name ∈ (records.flatMap Record.overloads).map Overload.command
  · have hne : (records.flatMap Record.overloads).filter (fun o => o.command = name) ≠ [] := by
      obtain ⟨o, ho, hname⟩ := List.mem_map.1 hmem
      exact List.ne_nil_of_mem (List.mem_filter.2 ⟨ho, by simpa using hname⟩)
    rw [if_pos hmem, if_neg hne]
  · have hnone : (records.flatMap Record.overloads).filter (fun o => o.command = name) = [] := by
      refine List.filter_eq_nil_iff.2 fun o ho => ?_
      rw [decide_eq_true_eq]
      exact fun hname => hmem (List.mem_map.2 ⟨o, ho, hname⟩)
    rw [if_neg hmem, if_pos hnone]

/-- What the bundled catalogue has under a name can be read off the records of that name. -/
theorem overloads?_bundled {name : String} (os : List Overload)
    (h : (bundledRecords.filter fun r => r.command = name).flatMap Record.overloads = os) :
    bundled.overloads? name = if os = [] then none else some os := by
  rw [bundled, overloads?_ofRecords, h]

/-- A command that is known has an overload. -/
theorem ne_nil_of_overloads? {records : List Record} {name : String} {os : List Overload}
    (h : (ofRecords records).overloads? name = some os) : os ≠ [] := by
  rw [overloads?_ofRecords] at h
  split at h
  · cases h
  · rename_i hne
    rwa [← Option.some.inj h]

/-! ### Names and numbers -/

theorem ofOverloads_concat (os : List Overload) (o : Overload) :
    ofOverloads (os ++ [o]) = (ofOverloads os).add o := by
  simp [ofOverloads]

/-- **One more overload** makes a name at the end if its command has none yet. -/
theorem names_add (c : Catalogue) (o : Overload) :
    (c.add o).names = if o.command ∈ c.names then c.names else c.names ++ [o.command] := by
  obtain ⟨entries⟩ := c
  simp only [names, add]
  induction entries with
  | nil => rfl
  | cons entry rest ih =>
    obtain ⟨key, os⟩ := entry
    by_cases hkey : key = o.command
    · simp [addTo, hkey]
    · have hne : o.command ≠ key := Ne.symm hkey
      rw [addTo, if_neg hkey, List.map_cons, ih]
      by_cases hmem : o.command ∈ rest.map Prod.fst <;> simp [hmem, hne]

/-- The names stand in the order in which they first came. -/
theorem names_ofOverloads (os : List Overload) :
    (ofOverloads os).names = (os.map Overload.command).eraseDups := by
  induction os using List.reverseRecOn with
  | nil => rfl
  | append_singleton os o ih =>
    rw [ofOverloads_concat, names_add, ih, List.map_append, List.map_singleton]
    by_cases h : o.command ∈ os.map Overload.command
    · rw [Entries.eraseDups_concat_of_mem h, if_pos (List.mem_eraseDups.2 h)]
    · rw [Entries.eraseDups_concat_of_not_mem h, if_neg (mt List.mem_eraseDups.1 h)]

theorem sum_length_addTo (o : Overload) (entries : List (String × List Overload)) :
    ((addTo o entries).map fun e => e.2.length).sum =
      (entries.map fun e => e.2.length).sum + 1 := by
  induction entries with
  | nil => rfl
  | cons entry rest ih =>
    obtain ⟨key, os⟩ := entry
    rw [addTo]
    split
    · simp only [List.map_cons, List.sum_cons, List.length_append, List.length_singleton]
      omega
    · simp only [List.map_cons, List.sum_cons, ih]
      omega

theorem sum_length_entries (os : List Overload) :
    ((ofOverloads os).entries.map fun e => e.2.length).sum = os.length := by
  induction os using List.reverseRecOn with
  | nil => rfl
  | append_singleton os o ih =>
    rw [ofOverloads_concat, add, sum_length_addTo, ih, List.length_append, List.length_singleton]

/-- Every overload is counted under one name. -/
theorem sum_length_ofOverloads (os : List Overload) :
    ((ofOverloads os).names.map fun name =>
      (((ofOverloads os).overloads? name).getD []).length).sum = os.length := by
  have hnodup : ((ofOverloads os).entries.map Prod.fst).Nodup := by
    rw [← names, names_ofOverloads]
    exact Entries.nodup_eraseDups _
  rw [names, List.map_map, ← sum_length_entries os]
  congr 1
  refine List.map_congr_left fun e he => ?_
  rw [Function.comp_apply, overloads?, Entries.lookup_of_mem hnodup he, Option.getD_some]

/-! ### Branches -/

/-- The branches of the signatures of records, in order, each with its record. -/
def branches (records : List Record) : List (Record × List Char) :=
  records.flatMap fun r => (Signature.branches r.signature.toList).map fun b => (r, b)

/-- The overload of a branch: as its signature writes it, and with what its record says. -/
def overloadOf (b : Record × List Char) : Overload where
  command := b.1.command
  parameters := Signature.parameters (Text.trim b.2)
  description := b.1.description
  signature := String.ofList (Text.trim b.2)
  examples := b.1.examples
  note := b.1.note

/-- The branches of a command. -/
def branchesFor (name : String) (bs : List (Record × List Char)) : List (Record × List Char) :=
  bs.filter fun b => b.1.command = name

/-- The catalogue holds branches of records grouped by command. -/
structure Groups (c : Catalogue) (bs : List (Record × List Char)) : Prop where
  /-- No command has two names. -/
  nodup_names : c.names.Nodup
  /-- The names are those of the branches, in the order in which they first occur. -/
  names : c.names = (bs.map fun b => b.1.command).eraseDups
  /-- What has a branch is known, and nothing else. -/
  knows : ∀ name, c.knows name = true ↔ ∃ b ∈ bs, b.1.command = name
  /-- Under a name are all its branches in order. -/
  overloads? : ∀ name, c.overloads? name =
    if branchesFor name bs = [] then none else some ((branchesFor name bs).map overloadOf)
  /-- The first record with a branch says what the command does. -/
  description? : ∀ name,
    c.description? name = (branchesFor name bs).head?.map fun b => b.1.description
  /-- Every branch is in one group. -/
  sum_length : (c.names.map fun name => ((c.overloads? name).getD []).length).sum = bs.length

theorem flatMap_overloads_eq (records : List Record) :
    records.flatMap Record.overloads = (branches records).map overloadOf := by
  rw [branches, List.map_flatMap]
  refine List.flatMap_congr fun r _ => ?_
  rw [Record.overloads, List.map_map]
  rfl

theorem overloads?_eq_branchesFor (records : List Record) (name : String) :
    (ofRecords records).overloads? name =
      if branchesFor name (branches records) = [] then none
      else some ((branchesFor name (branches records)).map overloadOf) := by
  have hown : (records.filter fun r => r.command = name).flatMap Record.overloads =
      (branchesFor name (branches records)).map overloadOf := by
    rw [← filter_flatMap_overloads, flatMap_overloads_eq, List.filter_map]
    rfl
  rw [overloads?_ofRecords, hown]
  simp only [List.map_eq_nil_iff]

/-- **A catalogue groups the branches of its records by command.**

The names are those of the records whose signatures have a branch, in the order in which they first
occur, and only these are known.  Under a name are the overloads of all its branches, in the order of
the records and of each signature, and the record of the first says what the command does.  No branch
is lost and none is kept twice. -/
theorem ofRecords_groups (records : List Record) :
    (ofRecords records).Groups (branches records) ∧
      ∀ v : Value, v.asList Record.ofValue = .ok records → ofValue v = .ok (ofRecords records) := by
  have hnames : (ofRecords records).names =
      ((branches records).map fun b => b.1.command).eraseDups := by
    rw [ofRecords, names_ofOverloads, flatMap_overloads_eq, List.map_map]
    rfl
  have hoverloads := overloads?_eq_branchesFor records
  refine ⟨⟨?_, hnames, fun name => ?_, hoverloads, fun name => ?_, ?_⟩, fun v hv => ?_⟩
  · rw [hnames]
    exact Entries.nodup_eraseDups _
  · have hnone : branchesFor name (branches records) = [] ↔
        ¬ ∃ b ∈ branches records, b.1.command = name := by
      simp [branchesFor]
    rw [knows, hoverloads]
    split
    · rename_i h
      simpa using hnone.1 h
    · rename_i h
      simpa using not_not.1 (mt hnone.2 h)
  · rw [description?, hoverloads]
    cases branchesFor name (branches records) with
    | nil => rfl
    | cons b bs => rfl
  · rw [ofRecords, sum_length_ofOverloads, flatMap_overloads_eq, List.length_map]
  · rw [ofValue, hv]
    rfl

end Catalogue

end GeoLint
