import GeoLint.ConfigFile
import GeoLint.Proofs.Config.Settings
import GeoLint.Proofs.Value.Documents

/-!
# A file laid over the standard settings

The rules of a file are set, one after the other, in the standard ones.  A rule that has a standard
setting keeps its place and takes the new one; the others follow in the order of the file.  So the
rules that come out are given by their names, `order`, and by what each is set to, `settingOf`, and
neither says how they were computed.

`ConfigFile.overlays_ofDocument` says in these terms what becomes of a document: the first rule in
`order` with a setting that makes no sense is what it is refused for, and if there is none, the
configuration has these rules and no others.
-/

namespace GeoLint

namespace Table

/-- The table with the entries of another set in it, one after the other. -/
def setAll (t added : Table) : Table :=
  added.foldl (fun t e => t.set e.1 e.2) t

theorem setAll_cons (t : Table) (e : String × Value) (added : Table) :
    t.setAll (e :: added) = (t.set e.1 e.2).setAll added :=
  rfl

theorem keys_cons (e : String × Value) (t : Table) : keys (e :: t) = e.1 :: t.keys :=
  rfl

/-- The keys that are there stay where they are; new ones follow in their order. -/
theorem keys_setAll (t : Table) {added : Table} (h : added.keys.Nodup) :
    (t.setAll added).keys = t.keys ++ added.keys.filter (· ∉ t.keys) := by
  induction added generalizing t with
  | nil => simp [setAll, keys]
  | cons e added ih =>
    obtain ⟨hfresh, hadded⟩ := List.nodup_cons.1 h
    rw [setAll_cons, ih _ hadded, keys_set, keys_cons, List.filter_cons]
    by_cases he : e.1 ∈ t.keys
    · simp [he]
    · -- The key is new, and no later one equals it.
      have hlater : (keys added).filter (· ∉ t.keys ++ [e.1]) = (keys added).filter (· ∉ t.keys) := by
        refine List.filter_congr fun key hkey => ?_
        have hne : key ≠ e.1 := fun heq => hfresh (heq ▸ hkey)
        simp [hne]
      rw [if_neg he, hlater]
      simp [he]

/-- A key that is added has its new value, and any other the one it had. -/
theorem get?_setAll (t : Table) {added : Table} (h : added.keys.Nodup) (key : String) :
    (t.setAll added).get? key = (added.get? key).or (t.get? key) := by
  induction added generalizing t with
  | nil => rfl
  | cons e added ih =>
    obtain ⟨hfresh, hadded⟩ := List.nodup_cons.1 h
    have hcons : get? (e :: added) key = if e.1 = key then some e.2 else get? added key :=
      Entries.lookup_cons_ite e added key
    rw [setAll_cons, ih _ hadded, hcons]
    by_cases hkey : e.1 = key
    · have hnone : get? added key = none := Entries.lookup_eq_none_iff.2 (hkey ▸ hfresh)
      rw [hnone, if_pos hkey, ← hkey, get?_set_self, Option.none_or, Option.some_or]
    · rw [get?_set_of_ne _ _ (Ne.symm hkey), if_neg hkey]

end Table

namespace Config

/-- The setting of a rule is what is read from what was written for it. -/
theorem setting?_of_ofRules {rules : Table} {c : Config} (h : ofRules rules = .ok c) (id : String) :
    c.setting? id = (rules.get? id).bind fun v => (Setting.ofValue v).toOption := by
  obtain ⟨hget, hread⟩ := get?_of_ofRules h id
  rw [hget]
  cases hsetting : c.setting? id with
  | none => rfl
  | some s =>
    rw [Option.map_some, Option.bind_some, hread s hsetting]
    rfl

/-- The standard rules are as they are written. -/
theorem ofRules_standard : ofRules standard.written = .ok standard := by
  have herror : Setting.Writes (.text "error") (.on .error) [] := .level (by decide +kernel)
  have hwarn : Setting.Writes (.text "warn") (.on .warning) [] := .level (by decide +kernel)
  simp [standard, written, Setting.ofLevel, ofRules, settings, Setting.ofValue_of_writes herror,
    Setting.ofValue_of_writes hwarn, Except.map]

end Config

namespace ConfigFile

open Setting (IsWritten Refused)

/-! ### Rules with names -/

/-- The entries of a table as rules. -/
def ofTable (t : Table) : List (Key × Value) :=
  t.map fun (k, v) => (.name k, v)

theorem put_ofTable (t : Table) (key : String) (v : Value) :
    put (ofTable t) (.name key) v = ofTable (t.set key v) := by
  induction t with
  | nil => rfl
  | cons e t ih =>
    obtain ⟨k, old⟩ := e
    have hsame : (Key.name k).same (.name key) = decide (k = key) := by simp [Key.same]
    rw [ofTable, List.map_cons, put, hsame, Table.set]
    by_cases hk : k = key
    · simp [hk, ofTable]
    · simpa [hk, ofTable] using ih

theorem overlay_ofTable (t added : Table) :
    overlay (ofTable t) (ofTable added) = ofTable (t.setAll added) := by
  induction added generalizing t with
  | nil => rfl
  | cons e added ih =>
    rw [Table.setAll_cons, ← ih, ← put_ofTable]
    rfl

theorem ofRules_ofTable (t : Table) : ofRules (ofTable t) = Config.ofRules t := by
  have hissues : keyIssues (ofTable t) = [] := by simp [keyIssues, ofTable, Key.step?]
  have hnamed : named (ofTable t) = t := by simp [named, ofTable]
  rw [ofRules, hissues, hnamed]

theorem ofRules_standardRules : ofRules standardRules = .ok .standard :=
  (ofRules_ofTable _).trans Config.ofRules_standard

/-! ### The rules of a document -/

/-- The table under a key is this one; a table that is missing counts as empty. -/
def Holds (t : Table) (key : String) (sub : Table) : Prop :=
  t.get? key = some (.table sub) ∨ t.get? key = none ∧ sub = []

/-- The rules that a document sets are those of a table. -/
def SetsRules (document rules : Table) : Prop :=
  ∃ tool lint, Holds document "tool" tool ∧ Holds tool "ggb-lint" lint ∧ Holds lint "rules" rules

theorem subtable_of_holds {t sub : Table} {key : String} (h : Holds t key sub) :
    subtable t key = .ok sub := by
  obtain h | ⟨h, rfl⟩ := h
  · rw [subtable, h]
  · rw [subtable, h]

theorem settings_of_setsRules {document rules : Table} (h : SetsRules document rules) :
    settings document = .ok (ofTable rules) := by
  obtain ⟨tool, lint, htool, hlint, hrules⟩ := h
  simp only [settings, subtable_of_holds htool, subtable_of_holds hlint, bind, Except.bind]
  obtain h | ⟨h, rfl⟩ := hrules
  · rw [h]
    rfl
  · rw [h]
    rfl

theorem wellKeyed_of_holds {t sub : Table} {key : String} (ht : t.WellKeyed) (h : Holds t key sub) :
    sub.WellKeyed := by
  obtain h | ⟨-, rfl⟩ := h
  · exact Table.wellKeyed_iff.1 (ht.get? h)
  · exact Table.wellKeyed_nil

/-- In a document that was read, no rule is set twice. -/
theorem nodup_keys_of_setsRules {text : String} {document rules : Table}
    (hread : Value.parseToml text = .ok document) (h : SetsRules document rules) :
    rules.keys.Nodup := by
  obtain ⟨tool, lint, htool, hlint, hrules⟩ := h
  have hdocument := Value.Toml.wellKeyed_of_parseToml hread
  have hlint := wellKeyed_of_holds (wellKeyed_of_holds hdocument htool) hlint
  exact (wellKeyed_of_holds hlint hrules).nodup_keys

/-! ### Rules laid over the standard ones -/

/-- The standard rules with those of a table laid over them. -/
def merged (rules : Table) : Table :=
  Config.standard.written.setAll rules

theorem ofDocument_of_setsRules {document rules : Table} (h : SetsRules document rules) :
    ofDocument document = (Config.ofRules (merged rules)).mapError Fault.invalid := by
  have hrules : ofRules (overlay standardRules (ofTable rules)) = Config.ofRules (merged rules) := by
    rw [merged, ← ofRules_ofTable, ← overlay_ofTable]
    rfl
  rw [ofDocument, settings_of_setsRules h]
  dsimp only
  rw [hrules]
  cases Config.ofRules (merged rules) <;> rfl

/-- The names of the standard rules, and behind them the other names of a table. -/
def order (rules : Table) : List String :=
  Config.standard.written.keys ++ rules.keys.filter (· ∉ Config.standard.written.keys)

/-- What a rule is set to: what the table says, else what is standard. -/
def settingOf (rules : Table) (id : String) : Option Value :=
  (rules.get? id).or (Config.standard.written.get? id)

/-- The answer for a file is that for the standard rules with those of a table laid over them. -/
structure Overlays (rules : Table) (answer : Except Fault Config) : Prop where
  /-- The rules are refused exactly if one of the table makes no sense. -/
  refused_iff : (∃ issues, answer = .error (.invalid issues)) ↔ ∃ p ∈ rules, ¬ IsWritten p.2
  /-- What they are refused for is the first rule, in their order, that makes no sense. -/
  first : ∀ before id after v, order rules = before ++ id :: after →
    (∀ other ∈ before, ∀ w, settingOf rules other = some w → IsWritten w) →
    settingOf rules id = some v → ¬ IsWritten v →
    ∃ fault, Refused v fault ∧
      answer = .error (.invalid [⟨[.field "rules"], .refused (fault.message id)⟩])
  /-- If all make sense, the configuration has these rules, and says of a rule that is not in the
  table what the standard one says. -/
  accepted : (∀ p ∈ rules, IsWritten p.2) → ∃ c, answer = .ok c ∧ c.written.keys = order rules ∧
    (∀ id, c.written.get? id = settingOf rules id) ∧
    ∀ id, id ∉ rules.keys → ∀ default,
      c.severityFor id default = Config.standard.severityFor id default

theorem keys_merged {rules : Table} (h : rules.keys.Nodup) : (merged rules).keys = order rules :=
  Table.keys_setAll _ h

theorem get?_merged {rules : Table} (h : rules.keys.Nodup) (id : String) :
    (merged rules).get? id = settingOf rules id :=
  Table.get?_setAll _ h id

theorem nodup_order {rules : Table} (h : rules.keys.Nodup) : (order rules).Nodup := by
  have hstandard : Config.standard.written.keys.Nodup := by decide
  refine List.nodup_append.2 ⟨hstandard, h.filter _, ?_⟩
  rintro id hid _ hother rfl
  simp [hid] at hother

/-- The standard rules make sense. -/
theorem isWritten_standard {id : String} {v : Value}
    (h : Config.standard.written.get? id = some v) : IsWritten v :=
  Config.exists_ofRules_iff.1 ⟨_, Config.ofRules_standard⟩ _ (Entries.mem_of_lookup h)

/-- All rules make sense exactly if those of the table do. -/
theorem isWritten_merged_iff {rules : Table} (h : rules.keys.Nodup) :
    (∀ p ∈ merged rules, IsWritten p.2) ↔ ∀ p ∈ rules, IsWritten p.2 := by
  have hmerged : (merged rules).keys.Nodup := keys_merged h ▸ nodup_order h
  constructor
  · rintro hall ⟨id, v⟩ hp
    have hget : (merged rules).get? id = some v := by
      have hv : rules.get? id = some v := Entries.lookup_of_mem h hp
      rw [get?_merged h, settingOf, hv, Option.some_or]
    exact hall _ (Entries.mem_of_lookup hget)
  · rintro hall ⟨id, v⟩ hp
    have hget : settingOf rules id = some v := by
      rw [← get?_merged h]
      exact Entries.lookup_of_mem hmerged hp
    obtain hv | ⟨-, hv⟩ := Option.or_eq_some_iff.1 hget
    · exact hall _ (Entries.mem_of_lookup hv)
    · exact isWritten_standard hv

theorem invalid_iff {rules : Table} :
    (∃ issues, (Config.ofRules rules).mapError Fault.invalid = .error (.invalid issues)) ↔
      ∃ p ∈ rules, ¬ IsWritten p.2 := by
  have hwritten : (∃ c, Config.ofRules rules = .ok c) ↔ ∀ p ∈ rules, IsWritten p.2 :=
    Config.exists_ofRules_iff
  cases hanswer : Config.ofRules rules with
  | ok c =>
    have hall := hwritten.1 ⟨c, hanswer⟩
    exact ⟨fun ⟨_, h⟩ => (by cases h), fun ⟨p, hp, hnot⟩ => absurd (hall p hp) hnot⟩
  | error issues =>
    refine ⟨fun _ => ?_, fun _ => ⟨issues, rfl⟩⟩
    by_contra hnone
    push Not at hnone
    obtain ⟨c, hc⟩ := hwritten.2 hnone
    cases hanswer.symm.trans hc

/-- The first rule in order that makes no sense is the first entry that makes none. -/
theorem ofRules_merged_of_refused {rules : Table} (hnodup : rules.keys.Nodup)
    {before after : List String} {id : String} {v : Value}
    (horder : order rules = before ++ id :: after)
    (hbefore : ∀ other ∈ before, ∀ w, settingOf rules other = some w → IsWritten w)
    (hv : settingOf rules id = some v) (hnot : ¬ IsWritten v) :
    ∃ fault, Refused v fault ∧ Config.ofRules (merged rules) =
      .error [⟨[.field "rules"], .refused (fault.message id)⟩] := by
  have hmerged : (merged rules).keys.Nodup := keys_merged hnodup ▸ nodup_order hnodup
  have hget {p : String × Value} (hp : p ∈ merged rules) : settingOf rules p.1 = some p.2 := by
    rw [← get?_merged hnodup]
    exact Entries.lookup_of_mem hmerged hp
  rw [← keys_merged hnodup] at horder
  obtain ⟨front, back, hsplit, rfl, hback⟩ := List.map_eq_append_iff.1 horder
  obtain ⟨⟨_, w⟩, back, rfl, rfl, rfl⟩ := List.map_eq_cons_iff.1 hback
  obtain rfl : w = v := Option.some.inj ((hget (by simp [hsplit])).symm.trans hv)
  rw [hsplit]
  refine Config.ofRules_of_refused (fun p hp => ?_) hnot
  exact hbefore p.1 (List.mem_map_of_mem hp) p.2 (hget (by simp [hsplit, hp]))

/-- **The rules of a document are laid over the standard ones.** -/
theorem overlays_ofDocument {document rules : Table} (hnodup : rules.keys.Nodup)
    (h : SetsRules document rules) : Overlays rules (ofDocument document) := by
  rw [ofDocument_of_setsRules h]
  refine ⟨?_, fun before id after v horder hbefore hv hnot => ?_, fun hall => ?_⟩
  · rw [invalid_iff, ← not_iff_not]
    push Not
    exact isWritten_merged_iff hnodup
  · obtain ⟨fault, hrefused, hanswer⟩ :=
      ofRules_merged_of_refused hnodup horder hbefore hv hnot
    exact ⟨fault, hrefused, by rw [hanswer]; rfl⟩
  · obtain ⟨c, hc⟩ := Config.exists_ofRules_iff.2 ((isWritten_merged_iff hnodup).2 hall)
    have hwritten := (Config.written_of_ofRules hc).1
    refine ⟨c, by rw [hc]; rfl, by rw [hwritten, keys_merged hnodup],
      fun id => by rw [hwritten, get?_merged hnodup], fun id hid default => ?_⟩
    have hsame : (merged rules).get? id = Config.standard.written.get? id := by
      have hnone : rules.get? id = none := Entries.lookup_eq_none_iff.2 hid
      rw [get?_merged hnodup, settingOf, hnone, Option.none_or]
    have hsetting : c.setting? id = Config.standard.setting? id := by
      rw [Config.setting?_of_ofRules hc, Config.setting?_of_ofRules Config.ofRules_standard, hsame]
    rw [Config.severityFor, Config.severityFor, hsetting]

end ConfigFile

end GeoLint
