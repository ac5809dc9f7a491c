import GeoLint.Proofs.Entries
import GeoLint.Value.Toml

/-!
# Documents have distinct keys

A table is a list of entries, and as such it could have a key twice.  No table in a document that was
read does (`wellKeyed_of_parseToml`): everything that is put into a table, by a line, by a header or
between braces, is put there with `Table.set`, which keeps keys distinct (`Table.WellKeyed.set`).
-/

namespace GeoLint

mutual
/-- No table in the value has a key twice. -/
def Value.WellKeyed : Value → Prop
  | .list items => ItemsWellKeyed items
  | .table fields => (fields.map Prod.fst).Nodup ∧ FieldsWellKeyed fields
  | _ => True

/-- No table in a list of values has a key twice. -/
def Value.ItemsWellKeyed : List Value → Prop
  | [] => True
  | v :: vs => v.WellKeyed ∧ ItemsWellKeyed vs

/-- No table in the values of a table has a key twice. -/
def Value.FieldsWellKeyed : List (String × Value) → Prop
  | [] => True
  | (_, v) :: rest => v.WellKeyed ∧ FieldsWellKeyed rest
end

namespace Value

theorem itemsWellKeyed_iff {vs : List Value} : ItemsWellKeyed vs ↔ ∀ v ∈ vs, v.WellKeyed := by
  induction vs with
  | nil => simp [ItemsWellKeyed]
  | cons v vs ih => simp [ItemsWellKeyed, ih]

theorem fieldsWellKeyed_iff {fields : List (String × Value)} :
    FieldsWellKeyed fields ↔ ∀ f ∈ fields, f.2.WellKeyed := by
  induction fields with
  | nil => simp [FieldsWellKeyed]
  | cons f fields ih =>
    obtain ⟨k, v⟩ := f
    rw [FieldsWellKeyed, ih, List.forall_mem_cons]

theorem wellKeyed_list {items : List Value} :
    (Value.list items).WellKeyed ↔ ∀ v ∈ items, v.WellKeyed := by
  rw [WellKeyed, itemsWellKeyed_iff]

end Value

/-! ### Tables -/

namespace Table

/-- No key stands twice, in the table or in a table below it. -/
structure WellKeyed (t : Table) : Prop where
  /-- The keys of the table itself are distinct. -/
  nodup_keys : t.keys.Nodup
  /-- So are those below it. -/
  values : ∀ f ∈ t, f.2.WellKeyed

theorem wellKeyed_iff {t : Table} : (Value.table t).WellKeyed ↔ t.WellKeyed := by
  rw [Value.WellKeyed, Value.fieldsWellKeyed_iff]
  exact ⟨fun h => ⟨h.1, h.2⟩, fun h => ⟨h.nodup_keys, h.values⟩⟩

theorem wellKeyed_nil : WellKeyed [] := ⟨List.nodup_nil, by simp⟩

theorem mem_set {t : Table} {key : String} {v : Value} {f : String × Value}
    (h : f ∈ t.set key v) : f ∈ t ∨ f = (key, v) := by
  induction t with
  | nil => exact .inr (List.mem_singleton.1 h)
  | cons e rest ih =>
    obtain ⟨k, old⟩ := e
    rw [set] at h
    split at h
    · rename_i hk
      subst hk
      rcases List.mem_cons.1 h with rfl | h
      · exact .inr rfl
      · exact .inl (List.mem_cons_of_mem _ h)
    · rcases List.mem_cons.1 h with rfl | h
      · exact .inl List.mem_cons_self
      · exact (ih h).imp_left (List.mem_cons_of_mem _)

theorem WellKeyed.set {t : Table} (h : t.WellKeyed) (key : String) {v : Value}
    (hv : v.WellKeyed) : (t.set key v).WellKeyed where
  nodup_keys := by
    rw [keys_set]
    split
    · exact h.nodup_keys
    · rename_i hkey
      rw [← List.concat_eq_append]
      exact h.nodup_keys.concat hkey
  values f hf := by
    rcases mem_set hf with hf | rfl
    · exact h.values f hf
    · exact hv

theorem WellKeyed.get? {t : Table} (h : t.WellKeyed) {key : String} {v : Value}
    (hv : t.get? key = some v) : v.WellKeyed :=
  h.values (key, v) (Entries.mem_of_lookup hv)

end Table

namespace Value.Toml

/-- What is read satisfies `P`, if anything is read. -/
def Reads {α : Type} (P : α → Prop) (x : Except Fault α) : Prop :=
  ∀ a, x = .ok a → P a

theorem reads_ok {α : Type} {P : α → Prop} {a : α} (h : P a) : Reads P (.ok a) := by
  rintro _ ⟨⟩
  exact h

theorem reads_error {α : Type} {P : α → Prop} {fault : Fault} : Reads P (.error fault) := by
  rintro _ ⟨⟩

theorem Reads.bind {α β : Type} {P : β → Prop} {Q : α → Prop} {x : Except Fault α}
    {f : α → Except Fault β} (hx : Reads Q x) (h : ∀ a, Q a → Reads P (f a)) :
    Reads P (x >>= f) := by
  cases x with
  | error fault => exact reads_error
  | ok a => exact h a (hx a rfl)

theorem Reads.any {α : Type} (x : Except Fault α) : Reads (fun _ => True) x :=
  fun _ _ => trivial

theorem Reads.ite {α : Type} {P : α → Prop} {x y : Except Fault α} {c : Prop} [Decidable c]
    (hx : Reads P x) (hy : Reads P y) : Reads P (if c then x else y) := by
  split
  · exact hx
  · exact hy

/-! ### Values -/

theorem reads_decimalNumber (cs : List Char) :
    Reads (fun r => r.1.WellKeyed) (decimalNumber cs) := by
  unfold decimalNumber
  split
  extract_lets jp
  have hjp (p : List Char × List Char) : Reads (fun r => r.1.WellKeyed) (jp p) := by
    simp only [jp]
    refine Reads.ite (Reads.ite reads_error ?_) ?_
    · exact reads_ok (show (Value.whole _).WellKeyed from trivial)
    · generalize Binary64.parse? _ = number
      cases number with
      | none => exact reads_error
      | some x => exact reads_ok (show (Value.real x).WellKeyed from trivial)
  split
  · exact (Reads.any _).bind fun p _ => hjp p
  · split
    · exact (Reads.any _).bind fun p _ => hjp p
    · exact (Reads.any _).bind fun p _ => hjp p

theorem wellKeyed_of_baseNumber? {cs : List Char} {r : Value × List Char}
    (h : baseNumber? cs = some r) : r.1.WellKeyed := by
  unfold baseNumber? at h
  split at h
  · obtain ⟨_, -, rfl⟩ := Option.map_eq_some_iff.1 h
    trivial
  · cases h

theorem reads_wordOrNumber (cs : List Char) :
    Reads (fun r => r.1.WellKeyed) (wordOrNumber cs) := by
  unfold wordOrNumber
  extract_lets words
  have hwords : ∀ w ∈ words, w.2.WellKeyed := by
    simp only [words, List.forall_mem_cons]
    simp [Value.WellKeyed]
  split
  · rename_i word v hfind
    exact reads_ok (hwords _ (List.mem_of_find?_eq_some hfind))
  · split
    · exact Reads.ite (reads_ok (show (Value.moment _).WellKeyed from trivial)) reads_error
    · split
      · rename_i hr
        exact reads_ok (wellKeyed_of_baseNumber? hr)
      · exact reads_decimalNumber cs

/-! ### Tables -/

/-- A change of a table keeps keys distinct. -/
def Keeps (f : Table → Option Table) : Prop :=
  ∀ t t', t.WellKeyed → f t = some t' → t'.WellKeyed

theorem keeps_some : Keeps some := by
  rintro t _ ht ⟨⟩
  exact ht

theorem keeps_addNew (k : String) {v : Value} (hv : v.WellKeyed) : Keeps (addNew k v) := by
  intro t t' ht h
  rw [addNew] at h
  split at h
  · cases h
  · cases h
    exact ht.set k hv

theorem wellKeyed_emptyTable : (Value.table []).WellKeyed :=
  Table.wellKeyed_iff.2 Table.wellKeyed_nil

theorem keeps_addTable (k : String) : Keeps (addTable k) := by
  intro t t' ht h
  rw [addTable] at h
  split at h
  · cases h
    exact ht.set k (wellKeyed_list.2 (by simpa using wellKeyed_emptyTable))
  · rename_i items hitems
    cases h
    refine ht.set k (wellKeyed_list.2 ?_)
    rw [List.forall_mem_append]
    exact ⟨wellKeyed_list.1 (ht.get? hitems), by simpa using wellKeyed_emptyTable⟩
  · cases h

/-- A change at the end of a path keeps keys distinct if it does so where it is made. -/
theorem keeps_modifyAt {f : Table → Option Table} (hf : Keeps f) (lists : Bool) (path : Path) :
    Keeps (modifyAt lists f path) := by
  induction path with
  | nil => exact hf
  | cons k ks ih =>
    intro t t' ht h
    rw [modifyAt] at h
    split at h
    · obtain ⟨sub, hsub, rfl⟩ := Option.map_eq_some_iff.1 h
      exact ht.set k (Table.wellKeyed_iff.2 (ih _ _ Table.wellKeyed_nil hsub))
    · rename_i old hold
      obtain ⟨sub, hsub, rfl⟩ := Option.map_eq_some_iff.1 h
      have hold := Table.wellKeyed_iff.1 (ht.get? hold)
      exact ht.set k (Table.wellKeyed_iff.2 (ih _ _ hold hsub))
    · rename_i items hitems
      have hitems := wellKeyed_list.1 (ht.get? hitems)
      split at h
      · rename_i old hlast
        obtain ⟨sub, hsub, rfl⟩ := Option.map_eq_some_iff.1 h
        have hold := Table.wellKeyed_iff.1 (hitems _ (List.mem_of_getLast? hlast))
        refine ht.set k (wellKeyed_list.2 ?_)
        rw [List.forall_mem_append]
        refine ⟨fun v hv => hitems v ((List.dropLast_subset items) hv), ?_⟩
        simpa using Table.wellKeyed_iff.2 (ih _ _ hold hsub)
      · cases h
    · cases h

theorem reads_modifyAt {α : Type} {P : α → Prop} {f : Table → Option Table} (hf : Keeps f)
    {lists : Bool} {path : Path} {t : Table} (ht : t.WellKeyed) {made : Table → α}
    (hmade : ∀ content, content.WellKeyed → P (made content)) :
    Reads P (match modifyAt lists f path t with
      | some content => .ok (made content)
      | none => .error .malformed) := by
  split
  · rename_i content hcontent
    exact reads_ok (hmade content (keeps_modifyAt hf _ _ _ _ ht hcontent))
  · exact reads_error

theorem reads_add {t : Inline} (ht : t.content.WellKeyed) (path : Path) {v : Value}
    (hv : v.WellKeyed) : Reads (fun t' => t'.content.WellKeyed) (t.add path v) := by
  rw [Inline.add]
  exact Reads.ite reads_error (reads_modifyAt (keeps_addNew _ hv) ht fun _ h => h)

/-! ### Nested values -/

/-- What is read with some fuel has distinct keys: a value, the items of a list, and the entries that
are added to an inline table. -/
structure ReadsNested (fuel : Nat) : Prop where
  /-- A value. -/
  value : ∀ cs, Reads (fun r => r.1.WellKeyed) (value fuel cs)
  /-- The items of a list. -/
  items : ∀ cs, Reads (fun r => ∀ v ∈ r.1, v.WellKeyed) (items fuel cs)
  /-- The entries of an inline table. -/
  entries : ∀ t cs, t.content.WellKeyed → Reads (fun r => r.1.WellKeyed) (entries fuel t cs)

theorem reads_value {fuel : Nat} (ih : ReadsNested fuel) (cs : List Char) :
    Reads (fun r => r.1.WellKeyed) (value (fuel + 1) cs) := by
  unfold value
  split
  · rename_i result _
    cases result with
    | error fault => exact reads_error
    | ok r => exact reads_ok (show (Value.text _).WellKeyed from trivial)
  · split
    · refine (Reads.any _).bind fun rest _ => (ih.items rest).bind fun r hr => ?_
      exact reads_ok (wellKeyed_list.2 hr)
    · split
      · exact reads_ok wellKeyed_emptyTable
      · refine (ih.entries _ _ Table.wellKeyed_nil).bind fun r hr => ?_
        exact reads_ok (Table.wellKeyed_iff.2 hr)
    · exact reads_wordOrNumber _

theorem reads_items {fuel : Nat} (ih : ReadsNested fuel) (cs : List Char) :
    Reads (fun r => ∀ v ∈ r.1, v.WellKeyed) (items (fuel + 1) cs) := by
  unfold items
  split
  · exact reads_ok (by simp)
  · refine (ih.value _).bind fun r hr => (Reads.any _).bind fun rest _ => ?_
    split
    · exact reads_ok (by simpa using hr)
    · refine (Reads.any _).bind fun rest _ => (ih.items rest).bind fun vs hvs => ?_
      exact reads_ok (List.forall_mem_cons.2 ⟨hr, hvs⟩)
    · exact reads_error

theorem reads_entries {fuel : Nat} (ih : ReadsNested fuel) {t : Inline} (cs : List Char)
    (ht : t.content.WellKeyed) : Reads (fun r => r.1.WellKeyed) (entries (fuel + 1) t cs) := by
  unfold entries
  refine (Reads.any _).bind ?_
  rintro ⟨path, rest⟩ -
  dsimp only
  split
  · refine (ih.value _).bind fun v hv => (reads_add ht _ hv).bind fun t' ht' => ?_
    split
    · exact reads_ok ht'
    · exact ih.entries _ _ ht'
    · exact reads_error
  · exact reads_error

theorem readsNested (fuel : Nat) : ReadsNested fuel := by
  induction fuel with
  | zero => exact ⟨fun _ => reads_error, fun _ => reads_error, fun _ _ _ => reads_error⟩
  | succ fuel ih => exact ⟨reads_value ih, reads_items ih, fun _ => reads_entries ih⟩

/-! ### Lines -/

namespace Document

/-- The content of the document has distinct keys. -/
def WellKeyed (d : Document) : Prop :=
  d.content.WellKeyed

theorem reads_openTable {d : Document} (hd : d.WellKeyed) (path : Path) :
    Reads WellKeyed (d.openTable path) := by
  rw [openTable]
  exact Reads.ite reads_error (reads_modifyAt keeps_some hd fun _ h => h)

theorem reads_openItem {d : Document} (hd : d.WellKeyed) (path : Path) :
    Reads WellKeyed (d.openItem path) := by
  rw [openItem]
  exact Reads.ite reads_error (reads_modifyAt (keeps_addTable _) hd fun _ h => h)

theorem reads_put {d : Document} (hd : d.WellKeyed) (path : Path) {v : Value} (hv : v.WellKeyed) :
    Reads WellKeyed (d.put path v) := by
  rw [put]
  exact Reads.ite reads_error (reads_modifyAt (keeps_addNew _ hv) hd fun _ h => h)

theorem reads_statement {d : Document} (hd : d.WellKeyed) (cs : List Char) :
    Reads (fun r => r.1.WellKeyed) (d.statement cs) := by
  unfold statement
  split
  · refine (Reads.any _).bind fun r _ => (reads_openItem (d := d.settle) hd _).bind fun d' hd' => ?_
    split
    · exact reads_ok hd'
    · exact reads_error
  · refine (Reads.any _).bind fun r _ => (reads_openTable (d := d.settle) hd _).bind fun d' hd' => ?_
    split
    · exact reads_ok hd'
    · exact reads_error
  · exact reads_ok hd
  · refine (Reads.any _).bind ?_
    rintro ⟨path, rest⟩ -
    dsimp only
    split
    · refine ((readsNested _).value _).bind fun v hv => (reads_put hd _ hv).bind fun d' hd' => ?_
      exact reads_ok hd'
    · exact reads_error

theorem reads_lines (fuel : Nat) {d : Document} (hd : d.WellKeyed) (cs : List Char) :
    Reads WellKeyed (lines fuel d cs) := by
  induction fuel generalizing d cs with
  | zero => exact reads_ok hd
  | succ fuel ih =>
    unfold lines
    split
    · exact reads_ok hd
    · exact ih hd _
    · refine (reads_statement hd _).bind fun r hr => (Reads.any _).bind fun rest _ => ?_
      split
      · exact reads_ok hr
      · exact ih hr _
      · exact reads_error

end Document

/-- **No table of a document has a key twice.** -/
theorem wellKeyed_of_parseToml {text : String} {t : Table} (h : parseToml text = .ok t) :
    t.WellKeyed := by
  have hreads : Reads Table.WellKeyed (parseToml text) :=
    (Document.reads_lines _ (d := .empty) Table.wellKeyed_nil _).bind fun d hd => reads_ok hd
  exact hreads t h

end Value.Toml

end GeoLint
