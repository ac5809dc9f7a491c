import GeoLint.Config
import GeoLint.Proofs.Entries
import GeoLint.Proofs.Text.LetterCase
import Mathlib.Data.List.Forall2

/-!
# What a setting can be

A value writes a setting if it is the name of a level, or a list of such a name and at most a table of
options behind it (`Setting.Writes`).  A configuration is accepted exactly if all its values do
(`Config.exists_ofRules_iff`), and is refused for the first that does not (`Config.ofRules_of_refused`).

What was accepted can be asked for any rule: a rule that has a setting reports as the level of the
setting says, and a rule that has none as it always does.  Nor can it fail to read a setting again
from what was written (`Setting.read_of_writes`).  `Config.ofRules_resolves` is the whole statement.
-/

namespace GeoLint

namespace Level

/-- The text is a name of the level, in any letter case. -/
def SpelledBy (s : String) : Level → Prop
  | .off => s.toLower = "off"
  | .on .warning => s.toLower = "warn" ∨ s.toLower = "warning"
  | .on .error => s.toLower = "error"
  | .on .info => s.toLower = "info"

instance (s : String) : (l : Level) → Decidable (l.SpelledBy s)
  | .off => inferInstanceAs (Decidable (_ = _))
  | .on .warning => inferInstanceAs (Decidable (_ ∨ _))
  | .on .error => inferInstanceAs (Decidable (_ = _))
  | .on .info => inferInstanceAs (Decidable (_ = _))

theorem lookup_named_iff {s : String} {l : Level} :
    named.lookup (Text.lower s) = some l ↔ l.SpelledBy s := by
  have hnamed : named.lookup (Text.lower s) = some l ↔ (Text.lower s, l) ∈ named :=
    ⟨Entries.mem_of_lookup, Entries.lookup_of_mem (by decide)⟩
  have hplain : ∀ name ∈ named.map Prod.fst, name.toList.all (Text.IsPlain ·) := by decide
  simp only [List.all_eq_true, decide_eq_true_eq] at hplain
  have hlower : ∀ name ∈ named.map Prod.fst, (Text.lower s = name ↔ s.toLower = name) :=
    fun name hname => Text.lower_eq_iff (hplain name hname) s
  simp only [named, List.map_cons, List.map_nil, List.forall_mem_cons] at hlower
  rw [hnamed]
  cases l with
  | off => simp [named, SpelledBy, hlower]
  | on severity => cases severity <;> simp [named, SpelledBy, hlower]

theorem ofValue?_eq_some_iff {v : Value} {l : Level} :
    ofValue? v = some l ↔ ∃ s, v = .text s ∧ l.SpelledBy s := by
  cases v with
  | text s => simp [ofValue?, lookup_named_iff]
  | _ => simp [ofValue?]

theorem ofValue?_of_spelledBy {s : String} {l : Level} (h : l.SpelledBy s) :
    ofValue? (.text s) = some l :=
  ofValue?_eq_some_iff.2 ⟨s, rfl, h⟩

end Level

namespace Setting

/-- The value writes a setting of a level with options. -/
inductive Writes : Value → Level → Table → Prop where
  /-- The name of a level. -/
  | level {s : String} {l : Level} (h : l.SpelledBy s) : Writes (.text s) l []
  /-- A list of the name alone. -/
  | listed {s : String} {l : Level} (h : l.SpelledBy s) : Writes (.list [.text s]) l []
  /-- A list of the name and a table of options. -/
  | withOptions {s : String} {l : Level} {options : Table} (h : l.SpelledBy s) :
    Writes (.list [.text s, .table options]) l options

/-- The value writes some setting. -/
def IsWritten (v : Value) : Prop :=
  ∃ l options, Writes v l options

/-- Why a value that writes no setting is refused. -/
inductive Refused : Value → Fault → Prop where
  /-- It is no list, and no name of a level either. -/
  | unknownLevel {v : Value} (hlist : ∀ items, v ≠ .list items) (h : Level.ofValue? v = none) :
    Refused v (.unknownLevel v)
  /-- It is a list of no items, or of more than two. -/
  | wrongLength {items : List Value} (h : items.length = 0 ∨ 2 < items.length) :
    Refused (.list items) .wrongLength
  /-- The first of its one or two items is no name of a level. -/
  | unknownFirst {first : Value} {rest : List Value} (hlength : rest.length ≤ 1)
    (h : Level.ofValue? first = none) : Refused (.list (first :: rest)) (.unknownFirst first)
  /-- The second of its two items is no table. -/
  | optionsNotTable {first second : Value} (h : (Level.ofValue? first).isSome = true)
    (htable : ∀ t, second ≠ .table t) : Refused (.list [first, second]) .optionsNotTable

/-- **A value is read as it is written, or it is refused.** -/
theorem ofValue_cases (v : Value) :
    (∃ s, ofValue v = .ok s ∧ Writes v s.level s.options ∧ s.written = v) ∨
      ∃ fault, ofValue v = .error fault ∧ Refused v fault := by
  unfold ofValue
  split
  · -- a list of one item
    split
    · rename_i hlevel
      obtain ⟨name, rfl, hname⟩ := Level.ofValue?_eq_some_iff.1 hlevel
      exact .inl ⟨_, rfl, .listed hname, rfl⟩
    · rename_i hlevel
      exact .inr ⟨_, rfl, .unknownFirst (by simp) hlevel⟩
  · -- a list of two items
    split
    · rename_i hlevel
      obtain ⟨name, rfl, hname⟩ := Level.ofValue?_eq_some_iff.1 hlevel
      exact .inl ⟨_, rfl, .withOptions hname, rfl⟩
    · rename_i hlevel htable
      exact .inr ⟨_, rfl, .optionsNotTable (by simp [hlevel]) htable⟩
    · rename_i hlevel
      exact .inr ⟨_, rfl, .unknownFirst (by simp) hlevel⟩
  · -- a list of any other length
    rename_i items hone htwo
    refine .inr ⟨_, rfl, .wrongLength ?_⟩
    match items, hone, htwo with
    | [], _, _ => exact .inl rfl
    | [x], hone, _ => exact absurd rfl (hone x)
    | [x, y], _, htwo => exact absurd rfl (htwo x y)
    | _ :: _ :: _ :: _, _, _ => exact .inr (by simp)
  · -- no list
    rename_i hlist
    split
    · rename_i hlevel
      obtain ⟨name, rfl, hname⟩ := Level.ofValue?_eq_some_iff.1 hlevel
      exact .inl ⟨_, rfl, .level hname, rfl⟩
    · rename_i hlevel
      exact .inr ⟨_, rfl, .unknownLevel hlist hlevel⟩

theorem ofValue_of_writes {v : Value} {l : Level} {options : Table} (h : Writes v l options) :
    ofValue v = .ok ⟨l, options, v⟩ := by
  cases h with
  | level hname | listed hname | withOptions hname =>
    simp [ofValue, Level.ofValue?_of_spelledBy hname]

theorem writes_of_ofValue {v : Value} {s : Setting} (h : ofValue v = .ok s) :
    Writes v s.level s.options ∧ s.written = v := by
  obtain ⟨s', hs', hwrites⟩ | ⟨fault, hfault, -⟩ := ofValue_cases v
  · cases h.symm.trans hs'
    exact hwrites
  · cases h.symm.trans hfault

/-- A value writes one setting only. -/
theorem eq_of_writes {v : Value} {s : Setting} {l : Level} {options : Table} (h : ofValue v = .ok s)
    (hwrites : Writes v l options) : s.level = l ∧ s.options = options := by
  obtain rfl : s = ⟨l, options, v⟩ := Except.ok.inj (h.symm.trans (ofValue_of_writes hwrites))
  exact ⟨rfl, rfl⟩

/-- What writes a setting can be read again without the checks. -/
theorem read_of_writes {v : Value} {l : Level} {options : Table} (h : Writes v l options) :
    levelIn v = .ok l ∧ optionsIn v = .ok options := by
  cases h with
  | level hname | listed hname | withOptions hname =>
    simp [levelIn, optionsIn, Level.ofValue?_of_spelledBy hname]

theorem refused_of_not_isWritten {v : Value} (h : ¬ IsWritten v) :
    ∃ fault, ofValue v = .error fault ∧ Refused v fault := by
  obtain ⟨s, -, hwrites, -⟩ | hrefused := ofValue_cases v
  · exact absurd ⟨_, _, hwrites⟩ h
  · exact hrefused

end Setting

namespace Config

open Setting (IsWritten Refused Writes)

/-! ### Reading rules -/

theorem settings_of_isWritten {rules : Table} (h : ∀ p ∈ rules, IsWritten p.2) :
    ∃ ss, settings rules = .ok ss := by
  induction rules with
  | nil => exact ⟨[], rfl⟩
  | cons p rules ih =>
    obtain ⟨id, v⟩ := p
    rw [List.forall_mem_cons] at h
    obtain ⟨l, options, hwrites⟩ := h.1
    obtain ⟨ss, hss⟩ := ih h.2
    exact ⟨(id, ⟨l, options, v⟩) :: ss, by rw [settings, Setting.ofValue_of_writes hwrites, hss]; rfl⟩

/-- The first rule that is refused decides. -/
theorem settings_of_refused {before after : Table} {id : String} {v : Value} {fault : Setting.Fault}
    (hbefore : ∀ p ∈ before, IsWritten p.2) (hv : Setting.ofValue v = .error fault) :
    settings (before ++ (id, v) :: after) = .error (id, fault) := by
  induction before with
  | nil => rw [List.nil_append, settings, hv]
  | cons p before ih =>
    obtain ⟨other, w⟩ := p
    rw [List.forall_mem_cons] at hbefore
    obtain ⟨l, options, hwrites⟩ := hbefore.1
    rw [List.cons_append, settings, Setting.ofValue_of_writes hwrites, ih hbefore.2]
    rfl

theorem written_cons (id : String) (s : Setting) (ss : List (String × Setting)) :
    (Config.mk ((id, s) :: ss)).written = (id, s.written) :: (Config.mk ss).written :=
  rfl

/-- Settings keep what was written, and are what is read from it. -/
theorem written_of_settings {rules : Table} {ss : List (String × Setting)}
    (h : settings rules = .ok ss) :
    (Config.mk ss).written = rules ∧ ∀ p ∈ ss, Setting.ofValue p.2.written = .ok p.2 := by
  induction rules generalizing ss with
  | nil =>
    cases h
    exact ⟨rfl, by simp⟩
  | cons p rules ih =>
    obtain ⟨id, v⟩ := p
    rw [settings] at h
    split at h
    · cases h
    · rename_i s hs
      cases hrest : settings rules with
      | error fault =>
        rw [hrest] at h
        cases h
      | ok ss' =>
        rw [hrest] at h
        cases h
        obtain ⟨hwritten, hread⟩ := ih hrest
        have hv : s.written = v := (Setting.writes_of_ofValue hs).2
        refine ⟨?_, List.forall_mem_cons.2 ⟨by rw [hv, hs], hread⟩⟩
        rw [written_cons, hv, hwritten]

theorem written_of_ofRules {rules : Table} {c : Config} (h : ofRules rules = .ok c) :
    c.written = rules ∧ ∀ p ∈ c.rules, Setting.ofValue p.2.written = .ok p.2 := by
  rw [ofRules] at h
  split at h
  · rename_i ss hss
    cases h
    exact written_of_settings hss
  · cases h

/-- **Rules are accepted** exactly if each writes a setting. -/
theorem exists_ofRules_iff {rules : Table} :
    (∃ c, ofRules rules = .ok c) ↔ ∀ p ∈ rules, IsWritten p.2 := by
  constructor
  · rintro ⟨c, hc⟩ p hp
    obtain ⟨hwritten, hread⟩ := written_of_ofRules hc
    rw [← hwritten] at hp
    obtain ⟨q, hq, rfl⟩ := List.mem_map.1 hp
    exact ⟨_, _, (Setting.writes_of_ofValue (hread q hq)).1⟩
  · intro h
    obtain ⟨ss, hss⟩ := settings_of_isWritten h
    exact ⟨⟨ss⟩, by rw [ofRules, hss]⟩

/-- **The first rule that writes no setting** is what rules are refused for. -/
theorem ofRules_of_refused {before after : Table} {id : String} {v : Value}
    (hbefore : ∀ p ∈ before, IsWritten p.2) (hv : ¬ IsWritten v) :
    ∃ fault, Refused v fault ∧ ofRules (before ++ (id, v) :: after) =
      .error [⟨[.field "rules"], .refused (fault.message id)⟩] := by
  obtain ⟨fault, hfault, hrefused⟩ := Setting.refused_of_not_isWritten hv
  exact ⟨fault, hrefused, by rw [ofRules, settings_of_refused hbefore hfault]⟩

/-! ### Asking for a rule -/

/-- The configuration answers for a rule as the rules that were written say. -/
structure Resolves (c : Config) (rules : Table) (id : String) : Prop where
  /-- A rule with a setting has the severity of its level, and its options. -/
  present : ∀ v, rules.get? id = some v → IsWritten v ∧ ∀ l options, Writes v l options →
    (∀ default, c.severityFor id default = l.severity?) ∧ c.optionsFor id = options
  /-- A rule without a setting has no options. -/
  absent : rules.get? id = none → c.optionsFor id = []
  /-- A rule is off exactly if it is set so. -/
  off_iff : ∀ default, c.severityFor id default = none ↔
    ∃ v options, rules.get? id = some v ∧ Writes v .off options
  /-- A rule reports as it always does exactly if it has no setting. -/
  default_iff : (∀ default, c.severityFor id default = some default) ↔ rules.get? id = none
  /-- To read the severity again from what was written never fails, and gives the same. -/
  readSeverity_eq : ∀ default, c.readSeverity id default = .ok (c.severityFor id default)
  /-- The same holds of the options. -/
  readOptions_eq : c.readOptions id = .ok (c.optionsFor id)

theorem get?_written (c : Config) (id : String) :
    c.written.get? id = (c.setting? id).map Setting.written :=
  Entries.lookup_map Setting.written c.rules id

/-- What is written for a rule is what its setting was read from. -/
theorem get?_of_ofRules {rules : Table} {c : Config} (h : ofRules rules = .ok c) (id : String) :
    rules.get? id = (c.setting? id).map Setting.written ∧
      ∀ s, c.setting? id = some s → Setting.ofValue s.written = .ok s := by
  obtain ⟨hwritten, hread⟩ := written_of_ofRules h
  refine ⟨?_, fun s hs => hread _ (Entries.mem_of_lookup hs)⟩
  rw [← hwritten, get?_written]

/-- **Reading a rule again** from what was written gives what its setting says, if the setting was
read from there. -/
theorem read_eq_ok (c : Config) (id : String)
    (hread : ∀ s, c.setting? id = some s → Setting.ofValue s.written = .ok s) :
    (∀ default, c.readSeverity id default = .ok (c.severityFor id default)) ∧
      c.readOptions id = .ok (c.optionsFor id) := by
  simp only [readSeverity, readOptions, severityFor, optionsFor, get?_written]
  cases hsetting : c.setting? id with
  | none => simp
  | some s =>
    have hwrites := (Setting.writes_of_ofValue (hread s hsetting)).1
    obtain ⟨hlevel, hoptions⟩ := Setting.read_of_writes hwrites
    simp [hlevel, hoptions, Except.map]

theorem resolves_of_none {c : Config} {rules : Table} {id : String} (hget : rules.get? id = none)
    (hsetting : c.setting? id = none) : c.Resolves rules id := by
  have hseverity (default : Severity) : c.severityFor id default = some default := by
    rw [severityFor, hsetting]
  obtain ⟨hagain, hoptions⟩ := c.read_eq_ok id (by simp [hsetting])
  refine ⟨by simp [hget], fun _ => by rw [optionsFor, hsetting], fun default => ?_, ?_, hagain,
    hoptions⟩
  · simp [hseverity, hget]
  · simp [hseverity, hget]

theorem resolves_of_some {c : Config} {rules : Table} {id : String} {s : Setting}
    (hget : rules.get? id = some s.written) (hsetting : c.setting? id = some s)
    (hs : Setting.ofValue s.written = .ok s) : c.Resolves rules id := by
  have hwrites := (Setting.writes_of_ofValue hs).1
  have hseverity (default : Severity) : c.severityFor id default = s.level.severity? := by
    rw [severityFor, hsetting]
  obtain ⟨hagain, hoptions⟩ := c.read_eq_ok id (by simpa [hsetting] using hs)
  refine ⟨fun v hv => ?_, fun hnone => ?_, fun default => ?_, ⟨fun hall => ?_, fun hnone => ?_⟩,
    hagain, hoptions⟩
  · obtain rfl := Option.some.inj (hget.symm.trans hv)
    refine ⟨⟨_, _, hwrites⟩, fun l options h => ?_⟩
    obtain ⟨rfl, rfl⟩ := Setting.eq_of_writes hs h
    exact ⟨hseverity, by rw [optionsFor, hsetting]⟩
  · cases hget.symm.trans hnone
  · rw [hseverity]
    constructor
    · intro hoff
      cases hlevel : s.level with
      | off => exact ⟨s.written, s.options, hget, hlevel ▸ hwrites⟩
      | on severity =>
        rw [hlevel] at hoff
        cases hoff
    · rintro ⟨v, options, hv, hoff⟩
      obtain rfl := Option.some.inj (hget.symm.trans hv)
      rw [(Setting.eq_of_writes hs hoff).1]
      rfl
  · -- No level gives both of two severities.
    have herror := (hseverity .error).symm.trans (hall .error)
    have hinfo := (hseverity .info).symm.trans (hall .info)
    cases herror.symm.trans hinfo
  · cases hget.symm.trans hnone

theorem resolves_of_ofRules {rules : Table} {c : Config} (h : ofRules rules = .ok c) (id : String) :
    c.Resolves rules id := by
  obtain ⟨hget, hread⟩ := get?_of_ofRules h id
  cases hsetting : c.setting? id with
  | none =>
    rw [hsetting, Option.map_none] at hget
    exact resolves_of_none hget hsetting
  | some s =>
    rw [hsetting, Option.map_some] at hget
    exact resolves_of_some hget hsetting (hread s hsetting)

/-- **A configuration that is accepted can be asked for any rule.**

Rules are accepted exactly if each of them writes a setting; if not, they are refused for the first
that does not.  What is accepted keeps the rules as they were written and answers for each of them:
one that is set has the severity of its level, none if that is off, and its options; one that is not
set has the severity it is asked with, and no options.  To read the answers from what was written
never fails and gives the same. -/
theorem ofRules_resolves (rules : Table) :
    (∀ t : Table, t.get? "rules" = some (.table rules) → ofValue (.table t) = ofRules rules) ∧
    ((∃ c, ofRules rules = .ok c) ↔ ∀ p ∈ rules, IsWritten p.2) ∧
    (∀ before id v after, rules = before ++ (id, v) :: after →
      (∀ p ∈ before, IsWritten p.2) → ¬ IsWritten v →
      ∃ fault, Refused v fault ∧
        ofRules rules = .error [⟨[.field "rules"], .refused (fault.message id)⟩]) ∧
    ∀ c, ofRules rules = .ok c → c.written = rules ∧ ∀ id, c.Resolves rules id := by
  refine ⟨fun t ht => ?_, exists_ofRules_iff, ?_, fun c hc => ?_⟩
  · rw [ofValue, ht]
  · rintro before id v after rfl hbefore hv
    exact ofRules_of_refused hbefore hv
  · exact ⟨(written_of_ofRules hc).1, resolves_of_ofRules hc⟩

/-- Levels in mixed letter case, one of them with options; a third rule is refused. -/
theorem ofRules_resolves_mixed_case :
    ∃ (rules : Table) (c : Config),
      rules = [("a", .text "OFF"), ("b", .list [.text "Warn", .table [("k", .whole 1)]])] ∧
      ofRules rules = .ok c ∧ c.written = rules ∧
      c.severityFor "a" .error = none ∧ c.severityFor "b" .error = some .warning ∧
      c.optionsFor "b" = [("k", .whole 1)] ∧ c.severityFor "c" .info = some .info ∧
      c.readSeverity "b" .error = .ok (some .warning) ∧
      c.readOptions "b" = .ok [("k", .whole 1)] ∧
      ∃ fault, Refused (.list []) fault ∧ ofRules (rules ++ [("c", .list []), ("d", .null)]) =
        .error [⟨[.field "rules"], .refused (fault.message "c")⟩] := by
  let rules : Table := [("a", .text "OFF"), ("b", .list [.text "Warn", .table [("k", .whole 1)]])]
  have ha : Writes (.text "OFF") .off [] := .level (by decide +kernel)
  have hb : Writes (.list [.text "Warn", .table [("k", .whole 1)]]) (.on .warning)
      [("k", .whole 1)] := .withOptions (by decide +kernel)
  have hall : ∀ p ∈ rules, IsWritten p.2 := by
    simp only [rules, List.forall_mem_cons]
    exact ⟨⟨_, _, ha⟩, ⟨_, _, hb⟩, by simp⟩
  have hempty : ¬ IsWritten (.list []) := by
    rintro ⟨l, options, h⟩
    cases h
  obtain ⟨c, hc⟩ := (ofRules_resolves rules).2.1.2 hall
  obtain ⟨hwritten, hresolves⟩ := (ofRules_resolves rules).2.2.2 c hc
  obtain ⟨hseverity, hoptions⟩ := ((hresolves "b").present _ rfl).2 _ _ hb
  exact ⟨rules, c, rfl, hc, hwritten, ((hresolves "a").off_iff .error).2 ⟨_, _, rfl, ha⟩,
    hseverity .error, hoptions, (hresolves "c").default_iff.2 rfl .info,
    ((hresolves "b").readSeverity_eq .error).trans (by rw [hseverity]; rfl),
    (hresolves "b").readOptions_eq.trans (by rw [hoptions]),
    (ofRules_resolves _).2.2.1 rules "c" (.list []) [("d", .null)] rfl hall hempty⟩

end Config

end GeoLint
