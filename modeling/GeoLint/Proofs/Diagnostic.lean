import GeoLint.Diagnostic
import GeoLint.Proofs.Decimal.Whole
import GeoLint.Proofs.Validation

/-!
# Diagnostics that come back

Writing a diagnostic as data is strict and reading one is lenient: a line may be a number, a truth
value or a text that stands for a number (`Value.StandsFor`), the rule has two names, suggestions
may be missing or null, and fields of other names are of no account.  What a table holds for the
reader is `Diagnostic.HeldBy`, and reading succeeds exactly if the table holds a diagnostic
(`Diagnostic.ofValue_eq_ok_iff`).  The rest follows by looking at what is written: it holds the
diagnostic that was written (`Diagnostic.exists_heldBy`), so what was read once is read again from
what was written.
-/

namespace GeoLint

/-! ### Values of the fields -/

/-- The value is a whole number, or stands for one. -/
inductive Value.StandsFor : Value → Int → Prop
  /-- A whole number itself. -/
  | whole (n : Int) : StandsFor (.whole n) n
  /-- A truth value is one or zero. -/
  | truth (b : Bool) : StandsFor (.truth b) (if b then 1 else 0)
  /-- A number of double precision that is whole and not too large. -/
  | real {x : Binary64} {n : Int} (h : x.value? = some (n : ℚ)) (hsize : n.natAbs < 2 ^ 63) :
    StandsFor (.real x) n
  /-- A text that spells a whole number. -/
  | text {s : String} {n : Int} (h : Decimal.readWhole s.toList = .ok n) : StandsFor (.text s) n

theorem Value.asWhole_real {x : Binary64} {n : Int} :
    (Value.real x).asWhole = .ok n ↔ x.toInt? = some n ∧ n.natAbs < 2 ^ 63 := by
  cases x with
  | infinite | nan => simp [asWhole, Binary64.toInt?]
  | finite negative m q =>
    cases hint : Binary64.toInt? (.finite negative m q) with
    | none => simp [asWhole, hint]
    | some k =>
      have hchecked : (Value.real (.finite negative m q)).asWhole =
          if k.natAbs < 2 ^ 63 then .ok k else .fail .tooLarge := by
        simp only [asWhole, hint]
        rfl
      rw [hchecked, Option.some.injEq]
      constructor
      · intro h
        split at h
        · cases h
          exact ⟨rfl, ‹_›⟩
        · cases h
      · rintro ⟨rfl, hsize⟩
        rw [if_pos hsize]

/-- **What is taken for a whole number** is what stands for it. -/
theorem Value.asWhole_eq_ok_iff {v : Value} {n : Int} : v.asWhole = .ok n ↔ v.StandsFor n := by
  constructor
  · intro h
    cases v with
    | null | moment | list | table => cases h
    | truth b =>
      cases h
      exact .truth b
    | whole =>
      cases h
      exact .whole n
    | real x =>
      obtain ⟨hx, hsize⟩ := asWhole_real.1 h
      exact .real (Binary64.toInt?_eq_some_iff.1 hx) hsize
    | text s =>
      rw [asWhole] at h
      split at h
      case h_1 m hread =>
        cases h
        exact .text hread
      case h_2 | h_3 => cases h
  · intro h
    cases h with
    | whole | truth => rfl
    | real h hsize => exact asWhole_real.2 ⟨Binary64.toInt?_eq_some_iff.2 h, hsize⟩
    | text h => simp only [asWhole, h]

theorem Severity.ofLabel?_eq_some_iff {l : String} {s : Severity} :
    ofLabel? l = some s ↔ l = s.label := by
  constructor
  · intro h
    have hlabel : s.label = l := by simpa using List.find?_some h
    exact hlabel.symm
  · rintro rfl
    exact ofLabel?_label s

theorem Severity.ofValue_eq_ok_iff {v : Value} {s : Severity} :
    Severity.ofValue v = .ok s ↔ v = .text s.label := by
  cases v with
  | text l =>
    rw [Value.text.injEq, ← ofLabel?_eq_some_iff, Severity.ofValue]
    cases ofLabel? l <;> simp
  | _ => simp [Severity.ofValue]

theorem Value.asTexts_eq_ok_iff {v : Value} {texts : List String} :
    v.asList asText = .ok texts ↔ v = .list (texts.map .text) := by
  rw [asList_eq_ok_iff]
  have hitems (items : List Value) :
      items.map asText = texts.map .ok ↔ items = texts.map .text := by
    induction items generalizing texts with
    | nil => cases texts <;> simp
    | cons v items ih => cases texts <;> simp [ih]
  constructor
  · rintro ⟨items, rfl, h⟩
    rw [(hitems items).1 h]
  · rintro rfl
    exact ⟨_, rfl, (hitems _).2 rfl⟩

namespace Diagnostic

/-! ### What a table holds -/

/-- What the table says could be written instead.  To say nothing is to say null. -/
def Suggests (t : Table) : Option (List String) → Prop
  | none => t.get? "suggestions" = none ∨ t.get? "suggestions" = some .null
  | some texts => t.get? "suggestions" = some (.list (texts.map .text))

/-- The table holds the diagnostic, possibly among other things. -/
structure HeldBy (d : Diagnostic) (t : Table) : Prop where
  /-- The line. -/
  line : ∃ v, t.get? "line" = some v ∧ v.StandsFor d.line
  /-- The column. -/
  column : ∃ v, t.get? "column" = some v ∧ v.StandsFor d.column
  /-- The finding in words. -/
  message : t.get? "message" = some (.text d.message)
  /-- How bad it is. -/
  severity : t.get? "severity" = some (.text d.severity.label)
  /-- The rule.  Of its two names the first wins. -/
  ruleId : (t.get? "ruleId").or (t.get? "rule_id") = some (.text d.ruleId)
  /-- What could be written instead. -/
  suggestions : Suggests t d.suggestions

theorem suggestions_eq_ok_iff {t : Table} {o : Option (List String)} :
    t.optional "suggestions" none (Value.asOption (Value.asList Value.asText)) = .ok o ↔
      Suggests t o := by
  rw [Table.optional_eq_ok_iff]
  cases o with
  | none => simp [Suggests, Value.asOption_eq_ok_iff]
  | some texts => simp [Suggests, Value.asOption_eq_ok_iff, Value.asTexts_eq_ok_iff]

/-- **A table is read as the diagnostic that it holds**, and no other value is read. -/
theorem ofValue_eq_ok_iff {v : Value} {d : Diagnostic} :
    ofValue v = .ok d ↔ ∃ t, v = .table t ∧ d.HeldBy t := by
  cases v with
  | table t =>
    rw [ofValue, Checked.map_eq_ok_iff]
    simp only [Checked.both_eq_ok_iff, Table.required_eq_ok_iff, suggestions_eq_ok_iff,
      Table.first?_cons, Table.first?_nil, Option.or_none, Value.asWhole_eq_ok_iff,
      Value.asText_eq_ok_iff, Severity.ofValue_eq_ok_iff, exists_eq_right, Value.table.injEq,
      exists_eq_left']
    constructor
    · rintro ⟨⟨line, column, message, severity, ruleId, suggestions⟩, h, rfl⟩
      obtain ⟨hline, hcolumn, hmessage, hseverity, hrule, hsuggestions⟩ := h
      exact ⟨hline, hcolumn, hmessage, hseverity, hrule, hsuggestions⟩
    · intro h
      exact ⟨(_, _, _, _, _, _),
        ⟨h.line, h.column, h.message, h.severity, h.ruleId, h.suggestions⟩, rfl⟩
  | _ => simp [ofValue]

/-- The names that are looked up in a table. -/
def fieldNames : List String :=
  ["line", "column", "message", "severity", "ruleId", "rule_id", "suggestions"]

/-- Fields of other names are of no account, not even for what is wrong. -/
theorem ofValue_congr {t u : Table} (h : ∀ name ∈ fieldNames, t.get? name = u.get? name) :
    ofValue (.table t) = ofValue (.table u) := by
  simp only [fieldNames, List.forall_mem_cons] at h
  obtain ⟨hline, hcolumn, hmessage, hseverity, hruleId, hrule, hsuggestions, -⟩ := h
  simp only [ofValue, Table.required, Table.optional, List.findSome?_cons, List.findSome?_nil,
    hline, hcolumn, hmessage, hseverity, hruleId, hrule, hsuggestions]

/-! ### What is written -/

/-- The other spelling of a field's name, for the one that has another. -/
def otherName (name : String) : String :=
  if name = "ruleId" then "rule_id" else name

/-- The value with other names for the fields of its table. -/
def renamed (f : String → String) : Value → Value
  | .table t => .table (t.map fun e => (f e.1, e.2))
  | v => v

/-- **What is written holds what was written**, under either name of the rule. -/
theorem exists_heldBy (d : Diagnostic) :
    (∃ t, d.toValue = .table t ∧ d.HeldBy t) ∧
      ∃ t, renamed otherName d.toValue = .table t ∧ d.HeldBy t := by
  constructor
  · refine ⟨_, rfl, ⟨_, rfl, .whole _⟩, ⟨_, rfl, .whole _⟩, rfl, rfl, rfl, ?_⟩
    cases d.suggestions with
    | none => exact .inr rfl
    | some texts => rfl
  · refine ⟨_, rfl, ⟨_, rfl, .whole _⟩, ⟨_, rfl, .whole _⟩, rfl, rfl, rfl, ?_⟩
    cases d.suggestions with
    | none => exact .inr rfl
    | some texts => rfl

theorem ofValue_toValue (d : Diagnostic) : ofValue d.toValue = .ok d :=
  ofValue_eq_ok_iff.2 d.exists_heldBy.1

theorem ofValue_renamed (d : Diagnostic) : ofValue (renamed otherName d.toValue) = .ok d :=
  ofValue_eq_ok_iff.2 d.exists_heldBy.2

/-- **A diagnostic survives being written and read**: one that is written is read back, under either
name of the rule, and what was read in a lenient notation is written so that it is read again and
written the same.  What is lenient about the notation is said by `HeldBy`; fields of other names are
of no account, and a text stands for the number that a numeral in it spells. -/
theorem survives_writing :
    (∀ d : Diagnostic, ofValue d.toValue = .ok d ∧ ofValue (renamed otherName d.toValue) = .ok d) ∧
    (∀ (v : Value) (d : Diagnostic), ofValue v = .ok d →
      ofValue d.toValue = ofValue v ∧ (ofValue d.toValue).map toValue = .ok d.toValue) ∧
    (∀ (v : Value) (d : Diagnostic), ofValue v = .ok d ↔ ∃ t, v = .table t ∧ d.HeldBy t) ∧
    (∀ t u : Table, (∀ name ∈ fieldNames, t.get? name = u.get? name) →
      ofValue (.table t) = ofValue (.table u)) ∧
    (∀ (m : Decimal.Numeral) (lead trail : List Char),
      ((Decimal.figures m.digits).dropWhile (· = '0')).length ≤ Decimal.maxLength →
      (∀ c ∈ lead, Decimal.isMargin c = true) → (∀ c ∈ trail, Decimal.isMargin c = true) →
      Value.StandsFor (.text (String.ofList (lead ++ (m.write ++ trail)))) m.value) := by
  refine ⟨fun d => ⟨d.ofValue_toValue, d.ofValue_renamed⟩, ?_, fun v d => ofValue_eq_ok_iff,
    fun t u => ofValue_congr, ?_⟩
  · intro v d h
    rw [h, d.ofValue_toValue]
    exact ⟨rfl, rfl⟩
  · intro m lead trail hlength hlead htrail
    refine .text ?_
    rw [String.toList_ofList]
    exact Decimal.readWhole_write m hlength hlead htrail

/-- A record with a text and a fraction-free number for its place, with both names of the rule and
with a field of another name. -/
theorem survives_writing_lenient :
    let v : Value := .table
      [("line", .text " +0_07.00 "), ("column", .real (.finite true 3 1)), ("note", .null),
       ("message", .text "m"), ("rule_id", .text "r"), ("severity", .text "info"),
       ("ruleId", .text "s")]
    let d : Diagnostic := ⟨7, -6, "m", .info, "s", none⟩
    ofValue v = .ok d ∧ ofValue d.toValue = ofValue v := by
  intro v d
  have h : ofValue v = .ok d := by decide +kernel
  exact ⟨h, (survives_writing.2.1 v d h).1⟩

end Diagnostic

end GeoLint
