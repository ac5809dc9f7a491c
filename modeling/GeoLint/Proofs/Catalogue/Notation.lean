import GeoLint.Catalogue.Basic
import GeoLint.Proofs.Catalogue.Cutting

/-!
# Signatures are read as they are written

The notation of signatures has a writer beside its reader.  A `Slot` is one of the five forms in
which a parameter can be written, an overload is the name of a command and its slots in parentheses
(`writeOverload`), and a signature joins overloads by bars (`write`).

The main statement, `Catalogue.ofValue_write`: a record with a written signature gives a catalogue
of exactly the overloads that were written, in order, each with exactly the parameters of its
slots.  What the reader does on the way is said by one lemma for each of its layers:
`Slot.parse?_write` for a slot, `parameters_writeOverload` for an overload and
`map_trim_branches_write` for a signature.
-/

namespace GeoLint

namespace Signature

/-! ### The writer -/

/-- The characters that have a meaning in the notation. -/
def isMark (c : Char) : Bool :=
  ['<', '>', '(', ')', ',', '|', '\x22'].contains c

/-- The characters of words: no marks and no white space. -/
def isWordChar (c : Char) : Bool :=
  !isMark c && !Text.isBlank c

/-- The characters of types: no marks and no line ends. -/
def isTypeChar (c : Char) : Bool :=
  !isMark c && c ≠ '\n'

/-- The characters that may stand between the brackets of a slot. -/
def fitsSlot (c : Char) : Bool :=
  !(['<', '>', '(', ')', '\n'].contains c)

/-- A word of a slot: a type or a value. -/
structure Word where
  /-- Its characters. -/
  chars : List Char
  /-- There is one. -/
  ne_nil : chars ≠ []
  /-- All of them are characters of words. -/
  plain : chars.all isWordChar

/-- A type of one or more words on a line. -/
structure TypeName where
  /-- Its characters. -/
  chars : List Char
  /-- White space stands between words only. -/
  solid : Text.Solid chars
  /-- All of them are characters of types. -/
  plain : chars.all isTypeChar

/-- What quotes can stand around. -/
structure Caption where
  /-- Its characters. -/
  chars : List Char
  /-- All of them may stand in a slot. -/
  plain : chars.all fitsSlot

/-- The name of a command. -/
structure CommandName where
  /-- Its characters. -/
  chars : List Char
  /-- There is no white space around it. -/
  solid : Text.Solid chars
  /-- No character is a parenthesis or a bar. -/
  plain : chars.all fun c => c ≠ '(' && c ≠ ')' && c ≠ '|'

/-- What stands for a parameter. -/
inductive Slot where
  /-- Anything more, or nothing. -/
  | variadic
  /-- A type. -/
  | typed (type : TypeName)
  /-- A text that stands for itself. -/
  | quoted (caption : Caption)
  /-- A type and two or more of its values. -/
  | enumerated (type first second : Word) (others : List Word)
  /-- Two or more types. -/
  | alternatives (first second : Word) (others : List Word)

/-- The string of a word. -/
def Word.text (w : Word) : String :=
  String.ofList w.chars

/-- The string of a name. -/
def CommandName.text (name : CommandName) : String :=
  String.ofList name.chars

/-- Words with bars between them. -/
def joined (ws : List Word) : List Char :=
  ['|'].intercalate (ws.map Word.chars)

namespace Slot

/-- What stands between the brackets of a slot, if it has brackets. -/
def body? : Slot → Option (List Char)
  | variadic => none
  | typed type => some type.chars
  | quoted caption => some ('\x22' :: (caption.chars ++ ['\x22']))
  | enumerated type first second others =>
    some (type.chars ++ ' ' :: joined (first :: second :: others))
  | alternatives first second others => some (joined (first :: second :: others))

/-- The slot in the notation. -/
def write (s : Slot) : List Char :=
  match s.body? with
  | none => ['.', '.', '.']
  | some body => '<' :: (body ++ ['>'])

/-- The parameter that the slot stands for. -/
def parameter : Slot → Parameter
  | variadic => { type := "any", optional := true }
  | typed type => { type := String.ofList type.chars }
  | quoted _ => { type := "String" }
  | enumerated type first second others =>
    { type := type.text, alternatives := some ((first :: second :: others).map Word.text) }
  | alternatives first second others =>
    { type := first.text, alternatives := some ((second :: others).map Word.text) }

end Slot

/-- What stands between the parentheses of an overload. -/
def writeSlots : List Slot → List Char
  | [] => [' ']
  | s :: slots => ' ' :: ([',', ' '].intercalate ((s :: slots).map Slot.write) ++ [' '])

/-- An overload in the notation. -/
def writeOverload (name : CommandName) (slots : List Slot) : List Char :=
  name.chars ++ '(' :: (writeSlots slots ++ [')'])

/-- A signature in the notation. -/
def write (name : CommandName) (overloads : List (List Slot)) : List Char :=
  [' ', '|', ' '].intercalate (overloads.map (writeOverload name))

/-! ### Words -/

theorem fitsSlot_iff {c : Char} :
    fitsSlot c = true ↔ c ≠ '<' ∧ c ≠ '>' ∧ c ≠ '(' ∧ c ≠ ')' ∧ c ≠ '\n' := by
  simp [fitsSlot]

theorem isTypeChar_of_isWordChar {c : Char} (h : isWordChar c = true) : isTypeChar c = true := by
  have hline : c ≠ '\n' := by
    rintro rfl
    exact absurd h (by decide)
  have hmark : isMark c = false := by
    rw [isWordChar, Bool.and_eq_true] at h
    simpa using h.1
  simp [isTypeChar, hmark, hline]

theorem fitsSlot_of_isTypeChar {c : Char} (h : isTypeChar c = true) : fitsSlot c = true := by
  simp only [isTypeChar, isMark, Bool.and_eq_true, decide_eq_true_eq] at h
  simp_all [fitsSlot]

/-- No mark stands in a type. -/
theorem not_mem_of_isMark {cs : List Char} (h : cs.all isTypeChar) {c : Char}
    (hc : isMark c = true) : c ∉ cs := by
  intro hmem
  have htype := List.all_eq_true.1 h c hmem
  simp [isTypeChar, hc] at htype

theorem isQuoted_eq_false {body : List Char} (h : '\x22' ∉ body) : isQuoted body = false := by
  unfold isQuoted
  split
  · simp at h
  · rfl

theorem isQuoted_caption (caption : Caption) :
    isQuoted ('\x22' :: (caption.chars ++ ['\x22'])) = true := by
  have hline : '\n' ∉ caption.chars := fun h =>
    absurd (List.all_eq_true.1 caption.plain _ h) (by decide)
  simp [isQuoted, hline]

namespace Word

variable (w : Word)

theorem all_isTypeChar : w.chars.all isTypeChar :=
  List.all_eq_true.2 fun c hc => isTypeChar_of_isWordChar (List.all_eq_true.1 w.plain c hc)

theorem not_blank {c : Char} (hc : c ∈ w.chars) : Text.isBlank c = false := by
  have h := List.all_eq_true.1 w.plain c hc
  rw [isWordChar, Bool.and_eq_true] at h
  simpa using h.2

theorem solid : Text.Solid w.chars :=
  Text.solid_of_forall w.ne_nil fun _ => w.not_blank

end Word

theorem solid_spaced (w : Word) (ws : List Word) :
    Text.Solid ([' '].intercalate ((w :: ws).map Word.chars)) := by
  induction ws generalizing w with
  | nil => simpa using w.solid
  | cons v ws ih =>
    have h := w.solid.append (ih v) [' ']
    simpa [List.intercalate_cons_cons] using h

/-- Words with single spaces between them. -/
def TypeName.ofWords (w : Word) (ws : List Word) : TypeName where
  chars := [' '].intercalate ((w :: ws).map Word.chars)
  solid := solid_spaced w ws
  plain := by
    refine List.all_eq_true.2 fun c hc => ?_
    obtain hspace | ⟨cs, hcs, hc⟩ := mem_of_mem_intercalate hc
    · obtain rfl := List.mem_singleton.1 hspace
      rfl
    · obtain ⟨v, -, rfl⟩ := List.mem_map.1 hcs
      exact List.all_eq_true.1 v.all_isTypeChar c hc

section Joined

variable {w : Word} {ws : List Word}

theorem joined_cons_cons {v : Word} :
    joined (w :: v :: ws) = w.chars ++ '|' :: joined (v :: ws) := by
  simp [joined, List.intercalate_cons_cons]

/-- A character of joined words is a bar or belongs to a word. -/
theorem mem_joined {c : Char} (h : c ∈ joined ws) : c = '|' ∨ ∃ v ∈ ws, c ∈ v.chars := by
  obtain hbar | ⟨cs, hcs, hc⟩ := mem_of_mem_intercalate h
  · exact .inl (List.mem_singleton.1 hbar)
  · obtain ⟨v, hv, rfl⟩ := List.mem_map.1 hcs
    exact .inr ⟨v, hv, hc⟩

theorem joined_ne_nil : joined (w :: ws) ≠ [] := by
  cases ws with
  | nil => simpa [joined] using w.ne_nil
  | cons v ws => simp [joined_cons_cons]

theorem not_blank_of_mem_joined {c : Char} (h : c ∈ joined ws) :
    Text.isBlank c = false := by
  obtain rfl | ⟨v, -, hc⟩ := mem_joined h
  · rfl
  · exact v.not_blank hc

theorem fits_of_mem_joined {c : Char} (h : c ∈ joined ws) : fitsSlot c = true := by
  obtain rfl | ⟨v, -, hc⟩ := mem_joined h
  · rfl
  · exact fitsSlot_of_isTypeChar (List.all_eq_true.1 v.all_isTypeChar c hc)

theorem quote_not_mem_joined : '\x22' ∉ joined ws := by
  intro h
  obtain hbar | ⟨v, -, hc⟩ := mem_joined h
  · exact absurd hbar (by decide)
  · exact not_mem_of_isMark v.all_isTypeChar rfl hc

theorem solid_joined : Text.Solid (joined (w :: ws)) :=
  Text.solid_of_forall joined_ne_nil fun _ => not_blank_of_mem_joined

/-- Bars are what joined words are taken apart at. -/
theorem options_joined : options (joined (w :: ws)) = (w :: ws).map Word.text := by
  have hcut : Text.pieces (· = '|') (joined (w :: ws)) = (w :: ws).map Word.chars := by
    refine (cuts_pieces (by simp)).cut_intercalate w.chars (ws.map Word.chars) fun v hv => ?_
    obtain ⟨u, -, rfl⟩ : ∃ u ∈ w :: ws, u.chars = v := List.mem_map.1 hv
    refine whole_pieces fun c hc => decide_eq_false ?_
    rintro rfl
    exact not_mem_of_isMark u.all_isTypeChar rfl hc
  have hfull : ((w :: ws).map Word.chars).filter (fun v => !v.isEmpty) =
      (w :: ws).map Word.chars := by
    refine List.filter_eq_self.2 fun v hv => ?_
    obtain ⟨u, -, rfl⟩ := List.mem_map.1 hv
    simp [u.ne_nil]
  rw [options, Text.fullPieces, hcut, hfull, List.map_map]
  rfl

end Joined

/-! ### Slots -/

namespace Slot

theorem fits_body {s : Slot} {body : List Char} (h : s.body? = some body) :
    ∀ c ∈ body, fitsSlot c = true := by
  intro c hc
  cases s with
  | variadic => cases h
  | typed type =>
    cases h
    exact fitsSlot_of_isTypeChar (List.all_eq_true.1 type.plain c hc)
  | quoted caption =>
    cases h
    rw [List.mem_cons, List.mem_append, List.mem_singleton] at hc
    rcases hc with rfl | hc | rfl
    · rfl
    · exact List.all_eq_true.1 caption.plain c hc
    · rfl
  | enumerated type first second others =>
    cases h
    rw [List.mem_append, List.mem_cons] at hc
    rcases hc with hc | rfl | hc
    · exact fitsSlot_of_isTypeChar (List.all_eq_true.1 type.all_isTypeChar c hc)
    · rfl
    · exact fits_of_mem_joined hc
  | alternatives first second others =>
    cases h
    exact fits_of_mem_joined hc

theorem solid_body {s : Slot} {body : List Char} (h : s.body? = some body) :
    Text.Solid body := by
  cases s with
  | variadic => cases h
  | typed type =>
    cases h
    exact type.solid
  | quoted caption =>
    cases h
    have hquote : Text.Solid ['\x22'] := Text.solid_singleton rfl
    exact hquote.append hquote caption.chars
  | enumerated type first second others =>
    cases h
    exact type.solid.append solid_joined [' ']
  | alternatives first second others =>
    cases h
    exact solid_joined

/-- A slot is dots, or brackets around a text in which nothing opens or closes. -/
theorem write_cases (s : Slot) :
    (s = variadic ∧ s.write = ['.', '.', '.']) ∨
      ∃ body, s.body? = some body ∧ s.write = '<' :: (body ++ ['>']) := by
  cases h : s.body? with
  | none =>
    cases s with
    | variadic => exact .inl ⟨rfl, rfl⟩
    | _ => cases h
  | some body => exact .inr ⟨body, rfl, by rw [write, h]⟩

theorem solid_write (s : Slot) : Text.Solid s.write := by
  obtain ⟨-, h⟩ | ⟨body, -, h⟩ := s.write_cases <;> rw [h]
  · have hdot : Text.Solid ['.'] := Text.solid_singleton rfl
    exact hdot.append hdot ['.']
  · have hopening : Text.Solid ['<'] := Text.solid_singleton rfl
    have hclosing : Text.Solid ['>'] := Text.solid_singleton rfl
    exact hopening.append hclosing body

theorem whole_write (s : Slot) : Whole (cutCommas 0) s.write := by
  obtain ⟨-, h⟩ | ⟨body, hbody, h⟩ := s.write_cases <;> rw [h]
  · exact whole_commas (by simp)
  · refine whole_bracketed fun c hc => ?_
    obtain ⟨hopening, hclosing, -⟩ := fitsSlot_iff.1 (fits_body hbody c hc)
    exact ⟨hopening, hclosing⟩

theorem not_mem_write (s : Slot) :
    ∀ c ∈ s.write, c ≠ '(' ∧ c ≠ ')' ∧ c ≠ '\n' := by
  intro c hc
  obtain ⟨-, h⟩ | ⟨body, hbody, h⟩ := s.write_cases <;> rw [h] at hc
  · simp only [List.mem_cons, List.not_mem_nil, or_false, or_self] at hc
    simp [hc]
  · rw [List.mem_cons, List.mem_append, List.mem_singleton] at hc
    rcases hc with rfl | hc | rfl
    · decide
    · exact (fitsSlot_iff.1 (fits_body hbody c hc)).2.2
    · decide

/-- What is left of a slot in brackets is what stands between them. -/
theorem trim_filter_body {s : Slot} {body : List Char} (h : s.body? = some body) :
    Text.trim (('<' :: (body ++ ['>'])).filter fun c => c ≠ '<' && c ≠ '>') = body := by
  have hbody : body.filter (fun c => c ≠ '<' && c ≠ '>') = body := by
    refine List.filter_eq_self.2 fun c hc => ?_
    obtain ⟨hopening, hclosing, -⟩ := fitsSlot_iff.1 (fits_body h c hc)
    simp [hopening, hclosing]
  simp only [List.filter_cons, List.filter_append, hbody]
  simpa using Text.trim_solid (solid_body h)

/-- **A written slot is read as the parameter that it stands for.** -/
theorem parse?_write (s : Slot) : Parameter.parse? s.write = some s.parameter := by
  obtain ⟨rfl, -⟩ | ⟨body, hbody, h⟩ := s.write_cases
  · rfl
  · have hdots : s.write ≠ "...".toList := by
      rw [h]
      exact fun heq => absurd (List.cons.inj heq).1 (by decide)
    have hne : body.isEmpty = false := by simpa using (solid_body hbody).ne_nil
    rw [Parameter.parse?, if_neg hdots, h]
    simp only [trim_filter_body hbody, hne]
    -- the forms are told apart by what stands between the brackets
    cases s with
    | variadic => cases hbody
    | typed type =>
      cases hbody
      have hbar : type.chars.contains '|' = false := by
        simpa using not_mem_of_isMark type.plain (c := '|') rfl
      have hquote := isQuoted_eq_false (not_mem_of_isMark type.plain rfl)
      rw [hquote, hbar]
      rfl
    | quoted caption =>
      cases hbody
      simp [isQuoted_caption, parameter]
    | enumerated type first second others =>
      cases hbody
      have hquote : isQuoted (type.chars ++ ' ' :: joined (first :: second :: others)) = false := by
        have htype : '\x22' ∉ type.chars := not_mem_of_isMark type.all_isTypeChar rfl
        exact isQuoted_eq_false (by simp [htype, quote_not_mem_joined])
      have hbar : (type.chars ++ ' ' :: joined (first :: second :: others)).contains '|' =
          true := by
        simp [joined_cons_cons]
      rw [hquote, hbar, words_append type.ne_nil fun _ => type.not_blank,
        words_single joined_ne_nil fun _ => not_blank_of_mem_joined]
      simp [options_joined, parameter, Word.text]
    | alternatives first second others =>
      cases hbody
      have hbar : (joined (first :: second :: others)).contains '|' = true := by
        simp [joined_cons_cons]
      rw [isQuoted_eq_false quote_not_mem_joined, hbar,
        words_single joined_ne_nil fun _ => not_blank_of_mem_joined]
      simp [options_joined, parameter]

end Slot

/-! ### Overloads -/

/-- The parameter list of an overload is what stands between its first parenthesis and the first
closing one. -/
theorem parameterList?_append {front inner : List Char} (hfront : '(' ∉ front)
    (hinner : ∀ c ∈ inner, c ≠ ')' ∧ c ≠ '\n') (rest : List Char) :
    parameterList? (front ++ '(' :: (inner ++ ')' :: rest)) = some inner := by
  induction front with
  | nil =>
    have htake : (inner ++ ')' :: rest).takeWhile (fun d => d ≠ ')' && d ≠ '\n') = inner := by
      rw [List.takeWhile_append_of_pos (by simpa using hinner)]
      simp
    simp only [List.nil_append, parameterList?, htake]
    simp
  | cons c front ih =>
    rw [List.mem_cons, not_or] at hfront
    rw [List.cons_append, parameterList?, if_neg (by simp [Ne.symm hfront.1]), ih hfront.2]

theorem not_mem_writeSlots (slots : List Slot) :
    ∀ c ∈ writeSlots slots, c ≠ '(' ∧ c ≠ ')' ∧ c ≠ '\n' := by
  intro c hc
  cases slots with
  | nil =>
    obtain rfl := List.mem_singleton.1 hc
    decide
  | cons s slots =>
    rw [writeSlots, List.mem_cons, List.mem_append, List.mem_singleton] at hc
    rcases hc with rfl | hc | rfl
    · decide
    · obtain hgap | ⟨cs, hcs, hc⟩ := mem_of_mem_intercalate hc
      · have hall : ∀ d ∈ [',', ' '], d ≠ '(' ∧ d ≠ ')' ∧ d ≠ '\n' := by simp
        exact hall c hgap
      · obtain ⟨t, -, rfl⟩ := List.mem_map.1 hcs
        exact t.not_mem_write c hc
    · decide

theorem slots_writeSlots (slots : List Slot) :
    Signature.slots (writeSlots slots) = slots.map Slot.write := by
  cases slots with
  | nil => decide
  | cons s slots =>
    have hspace : Pad (cutCommas 0) [' '] := pad_space fun _ => rfl
    have hcut : (cutCommas 0 (writeSlots (s :: slots))).map Text.trim =
        (s :: slots).map Slot.write := by
      refine cuts_commas.map_trim_cut hspace pad_nil hspace hspace s.write (slots.map Slot.write)
        fun w hw => ?_
      obtain ⟨t, -, rfl⟩ : ∃ t ∈ s :: slots, t.write = w := List.mem_map.1 hw
      exact ⟨t.whole_write, t.solid_write⟩
    rw [Signature.slots, hcut, dropLastIf_of_forall]
    intro w hw
    obtain ⟨t, -, rfl⟩ := List.mem_map.1 hw
    simpa using t.solid_write.ne_nil

/-- **A written overload has the parameters of its slots.** -/
theorem parameters_writeOverload (name : CommandName) (slots : List Slot) :
    parameters (writeOverload name slots) = slots.map Slot.parameter := by
  have hname : '(' ∉ name.chars := fun h => absurd (List.all_eq_true.1 name.plain _ h) (by decide)
  have hlist : parameterList? (writeOverload name slots) = some (writeSlots slots) :=
    parameterList?_append hname (fun c hc => (not_mem_writeSlots slots c hc).2) []
  have hparse : Parameter.parse? ∘ Slot.write = some ∘ Slot.parameter := by
    funext s
    exact s.parse?_write
  simp only [parameters, hlist, slots_writeSlots, List.filterMap_map, hparse]
  rw [List.filterMap_eq_map]

theorem solid_writeOverload (name : CommandName) (slots : List Slot) :
    Text.Solid (writeOverload name slots) :=
  name.solid.append (Text.solid_singleton rfl) ('(' :: writeSlots slots)

theorem whole_writeOverload (name : CommandName) (slots : List Slot) :
    Whole (cutBars 0) (writeOverload name slots) := by
  have hname : Whole (cutBars 0) name.chars :=
    whole_bars fun c hc => by simpa [and_assoc] using List.all_eq_true.1 name.plain c hc
  refine hname.append (whole_parenthesized fun c hc => ?_)
  obtain ⟨hopening, hclosing, -⟩ := not_mem_writeSlots slots c hc
  exact ⟨hopening, hclosing⟩

/-! ### Signatures -/

/-- **A written signature has the overloads that were written**, up to white space. -/
theorem map_trim_branches_write (name : CommandName) (slots : List Slot)
    (others : List (List Slot)) :
    (branches (write name (slots :: others))).map Text.trim =
      (slots :: others).map (writeOverload name) := by
  have hspace : Pad (cutBars 0) [' '] := pad_space fun _ => rfl
  have hcut : (cutBars 0 (write name (slots :: others))).map Text.trim =
      (slots :: others).map (writeOverload name) := by
    have h := cuts_bars.map_trim_cut pad_nil hspace hspace pad_nil (writeOverload name slots)
      (others.map (writeOverload name)) fun w hw => by
        obtain ⟨t, -, rfl⟩ : ∃ t ∈ slots :: others, writeOverload name t = w := List.mem_map.1 hw
        exact ⟨whole_writeOverload name t, solid_writeOverload name t⟩
    rwa [List.append_nil] at h
  rw [branches, dropLastIf_of_forall, hcut]
  intro w hw
  refine Text.blank_eq_false_of_trim ?_
  have hmem : Text.trim w ∈ (slots :: others).map (writeOverload name) :=
    hcut ▸ List.mem_map_of_mem hw
  obtain ⟨t, -, ht⟩ := List.mem_map.1 hmem
  exact ht ▸ (solid_writeOverload name t).ne_nil

end Signature

/-! ### Records and catalogues -/

/-- The table holds a record: each field under its name, the command under either of its two, and
what the table leaves out as it is by default. -/
structure Record.HeldBy (r : Record) (t : Table) : Prop where
  /-- The signature is there. -/
  signature : t.get? "signature" = some (.text r.signature)
  /-- So is the name of the command. -/
  command : (t.get? "commandBase").or (t.get? "command_base") = some (.text r.command)
  /-- The description may be left out. -/
  description : t.optional "description" "" Value.asText = .ok r.description
  /-- So may the examples. -/
  examples : t.optional "examples" [] (Value.asList exampleOfValue) = .ok r.examples
  /-- So may the remark. -/
  note : t.optional "note" "" Value.asText = .ok r.note

theorem Record.ofValue_of_heldBy {r : Record} {t : Table} (h : r.HeldBy t)
    (hcommand : r.command.isEmpty = false) : ofValue (.table t) = .ok r := by
  have hsignature : t.required "signature" [] Value.asText = .ok r.signature := by
    simp [Table.required, h.signature, Value.asText, Checked.under]
  have hname : t.required "commandBase" ["command_base"] Value.asFullText = .ok r.command := by
    have hread : Value.asFullText (.text r.command) = .ok r.command := by
      simp [Value.asFullText, Value.asText, hcommand]
    have hfound := h.command
    cases hbase : t.get? "commandBase" with
    | none =>
      rw [hbase, Option.none_or] at hfound
      simp [Table.required, hbase, hfound, hread, Checked.under]
    | some v =>
      rw [hbase, Option.some_or, Option.some.injEq] at hfound
      simp [Table.required, hbase, hfound, hread, Checked.under]
  rw [ofValue, hsignature, hname, h.description, h.examples, h.note]
  rfl

/-- The overloads of a record are those that its signature writes. -/
theorem Record.overloads_of_write {r : Record} {name : Signature.CommandName}
    {slots : List Signature.Slot} {others : List (List Signature.Slot)}
    (h : r.signature = String.ofList (Signature.write name (slots :: others))) :
    r.overloads = (slots :: others).map fun slots =>
      { command := r.command
        parameters := slots.map Signature.Slot.parameter
        description := r.description
        signature := String.ofList (Signature.writeOverload name slots)
        examples := r.examples
        note := r.note } := by
  have hbranches := Signature.map_trim_branches_write name slots others
  calc r.overloads
      = ((Signature.branches r.signature.toList).map Text.trim).map (.ofBranch r) := by
        rw [overloads, List.map_map]
        rfl
    _ = ((slots :: others).map (Signature.writeOverload name)).map (.ofBranch r) := by
        rw [h, String.toList_ofList, hbranches]
    _ = _ := by
        rw [List.map_map]
        refine List.map_congr_left fun slots _ => ?_
        rw [Function.comp_apply, Overload.ofBranch, Signature.parameters_writeOverload]

namespace Catalogue

theorem foldl_add_of_command {name : String} {os : List Overload}
    (h : ∀ o ∈ os, o.command = name) (before : List Overload) :
    os.foldl add ⟨[(name, before)]⟩ = ⟨[(name, before ++ os)]⟩ := by
  induction os generalizing before with
  | nil => simp
  | cons o os ih =>
    obtain ⟨ho, hos⟩ := List.forall_mem_cons.1 h
    have hadd : add ⟨[(name, before)]⟩ o = ⟨[(name, before ++ [o])]⟩ := by
      simp [add, addTo, ho]
    rw [List.foldl_cons, hadd, ih hos, List.append_assoc, List.singleton_append]

/-- The overloads of one command make one entry. -/
theorem ofOverloads_of_command {name : String} {o : Overload} {os : List Overload}
    (h : ∀ x ∈ o :: os, x.command = name) : ofOverloads (o :: os) = ⟨[(name, o :: os)]⟩ := by
  obtain ⟨ho, hos⟩ := List.forall_mem_cons.1 h
  have hfirst : add empty o = ⟨[(name, [o])]⟩ := by simp [add, addTo, empty, ho]
  rw [ofOverloads, List.foldl_cons, hfirst, foldl_add_of_command hos, List.singleton_append]

end Catalogue

open Signature

/-- **Signatures are read as they are written.**

A record whose signature writes overloads of a command gives a catalogue of that command alone.
Its overloads are those that were written, in order, each with the parameters of its slots and with
the text that writes it. -/
theorem Catalogue.ofValue_write {r : Record} {t : Table} (h : r.HeldBy t) (name : CommandName)
    (slots : List Slot) (others : List (List Slot)) (hcommand : r.command = name.text)
    (hsignature : r.signature = String.ofList (write name (slots :: others))) :
    Catalogue.ofValue (.list [.table t]) = .ok ⟨[(name.text, (slots :: others).map fun slots =>
      { command := name.text
        parameters := slots.map Slot.parameter
        description := r.description
        signature := String.ofList (writeOverload name slots)
        examples := r.examples
        note := r.note })]⟩ := by
  have hfull : r.command.isEmpty = false := by
    rw [hcommand]
    simpa [CommandName.text] using name.solid.ne_nil
  have hrecords : Value.asList Record.ofValue (.list [.table t]) = .ok [r] := by
    simp [Value.asList, Record.ofValue_of_heldBy h hfull, Checked.under, Checked.all,
      Checked.both, Except.map]
  have hcatalogue : Catalogue.ofRecords [r] = ⟨[(name.text, r.overloads)]⟩ := by
    rw [Catalogue.ofRecords, List.flatMap_singleton, Record.overloads_of_write hsignature,
      List.map_cons, Catalogue.ofOverloads_of_command]
    simp [hcommand]
  rw [Catalogue.ofValue, hrecords, Except.map, hcatalogue, Record.overloads_of_write hsignature,
    hcommand]

/-- All forms of a slot at once, and an overload without slots. -/
theorem Catalogue.ofValue_write_five_slots :
    ∃ (r : Record) (t : Table) (name : CommandName) (slots : List Slot),
      t = [("signature",
          .text "Set( <Boolean Value>, <Number 0|1>, <\"a|b, c\">, <Point|List>, ... ) | Set( )"),
        ("command_base", .text "Set")] ∧
      r.HeldBy t ∧ r.command = name.text ∧
      r.signature = String.ofList (write name [slots, []]) ∧
      slots.map Slot.parameter = [⟨"Boolean Value", false, none⟩,
        ⟨"Number", false, some ["0", "1"]⟩, ⟨"String", false, none⟩,
        ⟨"Point", false, some ["List"]⟩, ⟨"any", true, none⟩] ∧
      Catalogue.ofValue (.list [.table t]) = .ok ⟨[(name.text, [slots, []].map fun slots =>
        ⟨name.text, slots.map Slot.parameter, "", String.ofList (writeOverload name slots), [],
          ""⟩)]⟩ := by
  have hheld (s : String) : Record.HeldBy ⟨s, "Set", "", [], ""⟩
      [("signature", .text s), ("command_base", .text "Set")] := ⟨rfl, rfl, rfl, rfl, rfl⟩
  refine ⟨_, _, ⟨"Set".toList, Word.solid ⟨_, by decide, by decide⟩, by decide⟩,
    [.typed (.ofWords ⟨"Boolean".toList, by decide, by decide⟩
        [⟨"Value".toList, by decide, by decide⟩]),
      .enumerated ⟨"Number".toList, by decide, by decide⟩ ⟨"0".toList, by decide, by decide⟩
        ⟨"1".toList, by decide, by decide⟩ [],
      .quoted ⟨"a|b, c".toList, by decide⟩,
      .alternatives ⟨"Point".toList, by decide, by decide⟩ ⟨"List".toList, by decide, by decide⟩ [],
      .variadic], rfl, hheld _, rfl, by decide +kernel, rfl,
    Catalogue.ofValue_write (hheld _) _ _ _ rfl (by decide +kernel)⟩

end GeoLint
