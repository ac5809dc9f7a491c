import GeoLint.Proofs.Config.Overlay

/-!
# Documents of the wrong shape

A document keeps its rules in a table below a table, or writes them as pairs.  One that does neither
gives no configuration.  Nor are its settings looked at, so that it is not refused for them either.
`Misshapen` says which documents these are and what is wrong with them, in terms of the document
alone: something on the way to the rules is no table, the rules cannot be listed, or one of them is
no pair.

Each step of the reading gets a lemma that says when it fails: `pairs_eq_error_iff` for rules one
after the other, `rulesOf_eq_error_iff` for the rules as they are written and
`settings_eq_error_iff` for the document.
-/

namespace GeoLint

namespace ConfigFile

/-! ### One rule -/

/-- The value can be listed: it is a list, a text or a table. -/
def Listed (v : Value) : Prop :=
  (∃ items, v = .list items) ∨ (∃ s, v = .text s) ∨ ∃ t, v = .table t

/-- The value can be a key: it is neither a list nor a table, and not nothing. -/
def IsKey (v : Value) : Prop :=
  v ≠ .null ∧ (∀ items, v ≠ .list items) ∧ ∀ t, v ≠ .table t

/-- The value is a rule written as a pair: a list of a key and a setting, a text of two characters
or a table of two keys. -/
inductive IsPair : Value → Prop
  /-- A list. -/
  | list {key setting : Value} : IsKey key → IsPair (.list [key, setting])
  /-- A text. -/
  | text {s : String} : s.length = 2 → IsPair (.text s)
  /-- A table. -/
  | table {t : Table} : t.length = 2 → IsPair (.table t)

/-- What is wrong with a value that is no pair. -/
inductive Unpaired : Value → Misfit → Prop
  /-- It cannot be listed. -/
  | plain {v : Value} : ¬ Listed v → Unpaired v .notPairs
  /-- What stands in the place of its key is no key. -/
  | key {k setting : Value} : ¬ IsKey k → Unpaired (.list [k, setting]) .notPairs
  /-- It is a list of more or fewer than two. -/
  | list {items : List Value} : items.length ≠ 2 → Unpaired (.list items) .notTwoParts
  /-- It is a text of more or fewer than two characters. -/
  | text {s : String} : s.length ≠ 2 → Unpaired (.text s) .notTwoParts
  /-- It is a table of more or fewer than two keys. -/
  | table {t : Table} : t.length ≠ 2 → Unpaired (.table t) .notTwoParts

theorem parts?_eq_none_iff {v : Value} : parts? v = none ↔ ¬ Listed v := by
  cases v <;> simp [parts?, Listed]

theorem ofValue?_eq_none_iff {v : Value} : Key.ofValue? v = none ↔ ¬ IsKey v := by
  cases v <;> simp [Key.ofValue?, IsKey]

theorem pair_of_parts {v k setting : Value} {key : Key} (h : parts? v = some [k, setting])
    (hkey : Key.ofValue? k = some key) : pair v = .ok (key, setting) := by
  rw [pair, h]
  simp only [hkey]

theorem pair_of_length {v : Value} {parts : List Value} (h : parts? v = some parts)
    (hlength : parts.length ≠ 2) : pair v = .error .notTwoParts := by
  rw [pair, h]
  match parts, hlength with
  | [], _ => rfl
  | [_], _ => rfl
  | _ :: _ :: _ :: _, _ => rfl

theorem exists_pair_of_isPair {v : Value} (h : IsPair v) : ∃ p, pair v = .ok p := by
  cases h with
  | @list key setting hkey =>
    obtain ⟨k, hk⟩ := Option.ne_none_iff_exists'.1 (mt ofValue?_eq_none_iff.1 (not_not.2 hkey))
    exact ⟨_, pair_of_parts rfl hk⟩
  | @text s hs =>
    obtain ⟨a, b, hab⟩ := List.length_eq_two.1 (String.length_toList.trans hs)
    have hparts : parts? (.text s) =
        some [.text (String.singleton a), .text (String.singleton b)] := by
      rw [parts?, hab]
      rfl
    exact ⟨_, pair_of_parts hparts rfl⟩
  | @table t ht =>
    obtain ⟨a, b, rfl⟩ := List.length_eq_two.1 ht
    exact ⟨_, pair_of_parts rfl rfl⟩

theorem pair_of_unpaired {v : Value} {m : Misfit} (h : Unpaired v m) : pair v = .error m := by
  cases h with
  | plain hplain => rw [pair, parts?_eq_none_iff.2 hplain]
  | key hkey => simp only [pair, parts?, ofValue?_eq_none_iff.2 hkey]
  | list hlength => exact pair_of_length rfl hlength
  | text hlength => exact pair_of_length rfl (by rwa [List.length_map, String.length_toList])
  | table hlength => exact pair_of_length rfl (by simpa using hlength)

/-- A value is a pair, or there is a reason why it is not. -/
theorem isPair_or_unpaired (v : Value) : IsPair v ∨ ∃ m, Unpaired v m := by
  by_cases hlisted : Listed v
  · rcases hlisted with ⟨items, rfl⟩ | ⟨s, rfl⟩ | ⟨t, rfl⟩
    · by_cases hlength : items.length = 2
      · obtain ⟨k, setting, rfl⟩ := List.length_eq_two.1 hlength
        by_cases hkey : IsKey k
        · exact .inl (.list hkey)
        · exact .inr ⟨_, .key hkey⟩
      · exact .inr ⟨_, .list hlength⟩
    · by_cases hlength : s.length = 2
      · exact .inl (.text hlength)
      · exact .inr ⟨_, .text hlength⟩
    · by_cases hlength : t.length = 2
      · exact .inl (.table hlength)
      · exact .inr ⟨_, .table hlength⟩
  · exact .inr ⟨_, .plain hlisted⟩

/-! ### All rules -/

/-- What is wrong with the first of some values that is no pair. -/
inductive FirstUnpaired : List Value → Misfit → Prop
  /-- It is the first value. -/
  | here {v : Value} {vs : List Value} {m : Misfit} : Unpaired v m → FirstUnpaired (v :: vs) m
  /-- Pairs come before it. -/
  | later {v : Value} {vs : List Value} {m : Misfit} :
    IsPair v → FirstUnpaired vs m → FirstUnpaired (v :: vs) m

theorem pairs_of_firstUnpaired {vs : List Value} {m : Misfit} (h : FirstUnpaired vs m) :
    pairs vs = .error m := by
  induction h with
  | here hunpaired =>
    rw [pairs, pair_of_unpaired hunpaired]
    rfl
  | later hpair _ ih =>
    obtain ⟨p, hp⟩ := exists_pair_of_isPair hpair
    simp only [pairs, hp, ih, bind, Except.bind]

/-- **Rules one after the other** cannot be read for what is wrong with the first that is no
pair. -/
theorem pairs_eq_error_iff {vs : List Value} {m : Misfit} :
    pairs vs = .error m ↔ FirstUnpaired vs m := by
  refine ⟨fun h => ?_, pairs_of_firstUnpaired⟩
  induction vs with
  | nil => cases h
  | cons v vs ih =>
    rcases isPair_or_unpaired v with hpair | ⟨m', hm'⟩
    · obtain ⟨p, hp⟩ := exists_pair_of_isPair hpair
      refine .later hpair (ih ?_)
      rw [pairs, hp] at h
      cases hrest : pairs vs with
      | error m' =>
        rw [hrest] at h
        exact h
      | ok ps =>
        rw [hrest] at h
        cases h
    · have hfirst : FirstUnpaired (v :: vs) m' := .here hm'
      obtain rfl : m' = m := Except.error.inj ((pairs_of_firstUnpaired hfirst).symm.trans h)
      exact hfirst

/-- What is wrong with a value that lists no rules.  The characters of a text are no pairs. -/
inductive Unlisted : Value → Misfit → Prop
  /-- It cannot be listed. -/
  | plain {v : Value} : ¬ Listed v → Unlisted v .notPairs
  /-- It is a text that is not empty. -/
  | text {s : String} : s ≠ "" → Unlisted (.text s) .notTwoParts
  /-- It is a list, and one of its items is no pair. -/
  | list {vs : List Value} {m : Misfit} : FirstUnpaired vs m → Unlisted (.list vs) m

/-- A text that is not empty lists no pairs: its first character is none. -/
theorem firstUnpaired_text {s : String} (h : s ≠ "") :
    FirstUnpaired (s.toList.map fun c => .text (String.singleton c)) .notTwoParts := by
  obtain ⟨c, cs, hcs⟩ := List.exists_cons_of_ne_nil (mt String.toList_eq_nil_iff.1 h)
  rw [hcs, List.map_cons]
  exact .here (.text (by simp))

/-- **The rules** cannot be read for what is wrong with them as a list of pairs. -/
theorem rulesOf_eq_error_iff {v : Value} {m : Misfit} : rulesOf v = .error m ↔ Unlisted v m := by
  by_cases hlisted : Listed v
  · rcases hlisted with ⟨items, rfl⟩ | ⟨s, rfl⟩ | ⟨t, rfl⟩
    · rw [show rulesOf (.list items) = pairs items from rfl, pairs_eq_error_iff]
      refine ⟨.list, fun h => ?_⟩
      cases h with
      | plain hplain => exact absurd (.inl ⟨items, rfl⟩) hplain
      | list h => exact h
    · have hpairs : rulesOf (.text s) =
          pairs (s.toList.map fun c => .text (String.singleton c)) := rfl
      rw [hpairs]
      by_cases hempty : s = ""
      · subst hempty
        refine ⟨nofun, fun h => ?_⟩
        cases h with
        | plain hplain => exact absurd (.inr (.inl ⟨_, rfl⟩)) hplain
        | text hne => exact absurd rfl hne
      · rw [pairs_eq_error_iff.2 (firstUnpaired_text hempty), Except.error.injEq]
        refine ⟨fun h => h ▸ .text hempty, fun h => ?_⟩
        cases h with
        | plain hplain => exact absurd (.inr (.inl ⟨_, rfl⟩)) hplain
        | text => rfl
    · refine ⟨nofun, fun h => ?_⟩
      cases h with
      | plain hplain => exact absurd (.inr (.inr ⟨t, rfl⟩)) hplain
  · have hplain : rulesOf v = .error .notPairs := by
      rw [rulesOf, parts?_eq_none_iff.2 hlisted]
      exact fun t ht => hlisted (.inr (.inr ⟨t, ht⟩))
    rw [hplain, Except.error.injEq]
    refine ⟨fun h => h ▸ .plain hlisted, fun h => ?_⟩
    cases h with
    | plain => rfl
    | text => exact absurd (.inr (.inl ⟨_, rfl⟩)) hlisted
    | list => exact absurd (.inl ⟨_, rfl⟩) hlisted

/-! ### The document -/

/-- What is wrong with a document that does not lead to rules. -/
inductive Misshapen (document : Table) : Misfit → Prop
  /-- What should hold the tools is no table. -/
  | tool {v : Value} : document.get? "tool" = some v → (∀ t, v ≠ .table t) →
    Misshapen document .notTable
  /-- What should hold the settings of the linter is no table. -/
  | lint {tool : Table} {v : Value} : Holds document "tool" tool →
    tool.get? "ggb-lint" = some v → (∀ t, v ≠ .table t) → Misshapen document .notTable
  /-- The rules cannot be read. -/
  | rules {tool lint : Table} {v : Value} {m : Misfit} : Holds document "tool" tool →
    Holds tool "ggb-lint" lint → lint.get? "rules" = some v → Unlisted v m → Misshapen document m

theorem subtable_of_ne_table {t : Table} {key : String} {v : Value} (h : t.get? key = some v)
    (hv : ∀ sub, v ≠ .table sub) : subtable t key = .error .notTable := by
  rw [subtable, h]
  cases v with
  | table sub => exact absurd rfl (hv sub)
  | _ => rfl

/-- A key holds a table, or something that is none. -/
theorem holds_or_ne_table (t : Table) (key : String) :
    (∃ sub, Holds t key sub) ∨ ∃ v, t.get? key = some v ∧ ∀ sub, v ≠ .table sub := by
  cases hget : t.get? key with
  | none => exact .inl ⟨[], .inr ⟨hget, rfl⟩⟩
  | some v =>
    by_cases htable : ∃ sub, v = .table sub
    · obtain ⟨sub, rfl⟩ := htable
      exact .inl ⟨sub, .inl hget⟩
    · exact .inr ⟨v, rfl, fun sub hsub => htable ⟨sub, hsub⟩⟩

theorem settings_of_holds {document tool lint : Table} (htool : Holds document "tool" tool)
    (hlint : Holds tool "ggb-lint" lint) : settings document =
      match lint.get? "rules" with
      | none => .ok []
      | some v => rulesOf v := by
  simp only [settings, subtable_of_holds htool, subtable_of_holds hlint, bind, Except.bind]
  rfl

theorem settings_of_misshapen {document : Table} {m : Misfit} (h : Misshapen document m) :
    settings document = .error m := by
  cases h with
  | tool hget hne =>
    rw [settings, subtable_of_ne_table hget hne]
    rfl
  | lint htool hget hne =>
    simp only [settings, subtable_of_holds htool, subtable_of_ne_table hget hne, bind, Except.bind]
  | rules htool hlint hget hunlisted =>
    rw [settings_of_holds htool hlint, hget]
    exact rulesOf_eq_error_iff.2 hunlisted

/-- **A document** cannot be read for what is wrong with its shape. -/
theorem settings_eq_error_iff {document : Table} {m : Misfit} :
    settings document = .error m ↔ Misshapen document m := by
  refine ⟨fun h => ?_, settings_of_misshapen⟩
  -- the tables on the way to the rules, one after the other
  rcases holds_or_ne_table document "tool" with ⟨tool, htool⟩ | ⟨v, hget, hne⟩
  · rcases holds_or_ne_table tool "ggb-lint" with ⟨lint, hlint⟩ | ⟨v, hget, hne⟩
    · rw [settings_of_holds htool hlint] at h
      cases hget : lint.get? "rules" with
      | none =>
        rw [hget] at h
        cases h
      | some v =>
        rw [hget] at h
        exact .rules htool hlint hget (rulesOf_eq_error_iff.1 h)
    · have hshape : Misshapen document .notTable := .lint htool hget hne
      obtain rfl : .notTable = m := Except.error.inj ((settings_of_misshapen hshape).symm.trans h)
      exact hshape
  · have hshape : Misshapen document .notTable := .tool hget hne
    obtain rfl : .notTable = m := Except.error.inj ((settings_of_misshapen hshape).symm.trans h)
    exact hshape

end ConfigFile

end GeoLint
