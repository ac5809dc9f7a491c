import GeoLint.Proofs.Config.Overlay
import Mathlib.Data.List.GetD

/-!
# Loading files one after the other

`ConfigFile.load` computes with values, and a value cannot be spoilt.  Rules that are kept in memory
and changed in place can be: if a file were laid over the standard rules where they are, it would be
laid under every file loaded later.  `Memory.load` loads a file in place.  It copies the standard
rules, changes the copy rule by rule and gives back where the copy is.

What was in memory before stays as it was (`Memory.shows_load`), so any number of files can be loaded,
each gives what `load` gives for it alone, and still does when all have been loaded
(`Memory.shows_loadAll`).
-/

namespace GeoLint

namespace ConfigFile

open Setting (IsWritten Refused)

/-- Lists of rules in memory, each at its own address. -/
structure Memory where
  /-- The lists, by address. -/
  cells : List (List (Key × Value))

/-- What loading a file gives back. -/
structure Handle where
  /-- Where the rules are. -/
  address : Nat
  /-- The file could not be read as a document. -/
  ignored : Bool

namespace Memory

/-- The rules at an address. -/
def read (m : Memory) (address : Nat) : List (Key × Value) :=
  m.cells.getD address []

/-- Copy the rules at an address to a new one, behind all others. -/
def copy (m : Memory) (address : Nat) : Memory :=
  ⟨m.cells ++ [m.read address]⟩

/-- Set a rule at an address, in place. -/
def put (m : Memory) (address : Nat) (rule : Key × Value) : Memory :=
  ⟨m.cells.set address (ConfigFile.put (m.read address) rule.1 rule.2)⟩

/-- Set rules at an address, one after the other. -/
def update (m : Memory) (address : Nat) (rules : List (Key × Value)) : Memory :=
  rules.foldl (fun m rule => m.put address rule) m

/-- The address of the standard rules, which all files share. -/
def shared : Nat := 0

/-- Only the standard rules are in memory. -/
def initial : Memory := ⟨[standardRules]⟩

/-- Load a configuration file: where its rules are, and the memory with them. -/
def load (m : Memory) : Source → Except Fault Handle × Memory
  | .missing => (.ok ⟨shared, false⟩, m)
  | .unreadable => (.ok ⟨shared, true⟩, m)
  | .file content =>
    match String.fromUTF8? content with
    | none => (.error (.misfit .notUnicode), m)
    | some text =>
      match Value.parseToml text with
      | .error .malformed => (.ok ⟨shared, true⟩, m)
      | .error .tooManyDigits => (.error (.misfit .numberTooLong), m)
      | .ok document =>
        match settings document with
        | .error misfit => (.error (.misfit misfit), m)
        | .ok rules =>
          let fresh := m.cells.length
          let m := (m.copy shared).update fresh rules
          match ofRules (m.read fresh) with
          | .ok _ => (.ok ⟨fresh, false⟩, m)
          | .error issues => (.error (.invalid issues), m)

/-- Load files one after the other. -/
def loadAll (m : Memory) : List Source → List (Except Fault Handle) × Memory
  | [] => ([], m)
  | source :: sources =>
    let (answer, m) := m.load source
    let (answers, m) := m.loadAll sources
    (answer :: answers, m)

/-- The configuration that is where a handle says. -/
def view (m : Memory) (handle : Handle) : Except Fault Loaded :=
  match ofRules (m.read handle.address) with
  | .ok config => .ok ⟨config, handle.ignored⟩
  | .error issues => .error (.invalid issues)

/-! ### What stays as it was -/

/-- All that is in one memory is in the other, at the same addresses. -/
def Extends (m m' : Memory) : Prop :=
  m.cells <+: m'.cells

theorem extends_refl (m : Memory) : m.Extends m :=
  List.prefix_rfl

theorem Extends.trans {a b c : Memory} (hab : a.Extends b) (hbc : b.Extends c) : a.Extends c :=
  List.IsPrefix.trans hab hbc

theorem read_of_extends {m m' : Memory} (h : m.Extends m') {address : Nat}
    (haddress : address < m.cells.length) : m'.read address = m.read address := by
  obtain ⟨cells, hcells⟩ := h
  rw [read, read, ← hcells, List.getD_append _ _ _ _ haddress]

theorem read_shared {m : Memory} (h : initial.Extends m) : m.read shared = standardRules :=
  read_of_extends h Nat.zero_lt_one

theorem read_last (cells : List (List (Key × Value))) (rules : List (Key × Value)) :
    read ⟨cells ++ [rules]⟩ cells.length = rules := by
  simp [read]

theorem put_last (cells : List (List (Key × Value))) (rules : List (Key × Value))
    (rule : Key × Value) : put ⟨cells ++ [rules]⟩ cells.length rule =
      ⟨cells ++ [ConfigFile.put rules rule.1 rule.2]⟩ := by
  rw [put, read_last, List.set_append_right _ _ (Nat.le_refl _), Nat.sub_self]
  rfl

/-- Rules set at the last address are laid over those there, and nothing else changes. -/
theorem update_last (cells : List (List (Key × Value))) (rules added : List (Key × Value)) :
    update ⟨cells ++ [rules]⟩ cells.length added = ⟨cells ++ [overlay rules added]⟩ := by
  induction added generalizing rules with
  | nil => rfl
  | cons rule added ih => exact (congrArg (update · _ added) (put_last cells rules rule)).trans (ih _)

/-- A copy of the standard rules with others laid over it. -/
theorem update_copy_shared {m : Memory} (h : initial.Extends m) (rules : List (Key × Value)) :
    (m.copy shared).update m.cells.length rules = ⟨m.cells ++ [overlay standardRules rules]⟩ := by
  rw [copy, read_shared h, update_last]

/-! ### What is given back -/

/-- The answer leads, in this memory, to what is expected. -/
structure Shows (m : Memory) (answer : Except Fault Handle) (expected : Except Fault Loaded) : Prop
    where
  /-- There is something at the address. -/
  lt_length : ∀ handle, answer = .ok handle → handle.address < m.cells.length
  /-- It is what is expected. -/
  view_eq : answer.bind m.view = expected

theorem Shows.of_extends {m m' : Memory} {answer : Except Fault Handle}
    {expected : Except Fault Loaded} (h : m.Shows answer expected) (hextends : m.Extends m') :
    m'.Shows answer expected := by
  cases answer with
  | error fault => exact ⟨by rintro _ ⟨⟩, h.view_eq⟩
  | ok handle =>
    have hlt := h.lt_length handle rfl
    refine ⟨?_, ?_⟩
    · rintro _ ⟨⟩
      exact Nat.lt_of_lt_of_le hlt hextends.length_le
    · rw [← h.view_eq]
      simp only [Except.bind, view, read_of_extends hextends hlt]

theorem shows_error {m : Memory} (fault : Fault) : m.Shows (.error fault) (.error fault) :=
  ⟨by rintro _ ⟨⟩, rfl⟩

theorem shows_shared {m : Memory} (h : initial.Extends m) (ignored : Bool) :
    m.Shows (.ok ⟨shared, ignored⟩) (.ok ⟨.standard, ignored⟩) := by
  refine ⟨?_, ?_⟩
  · rintro _ ⟨⟩
    exact h.length_le
  · simp only [Except.bind, view, read_shared h, ofRules_standardRules]

theorem shows_last {cells : List (List (Key × Value))} {rules : List (Key × Value)} {c : Config}
    (h : ofRules rules = .ok c) (ignored : Bool) :
    Shows ⟨cells ++ [rules]⟩ (.ok ⟨cells.length, ignored⟩) (.ok ⟨c, ignored⟩) := by
  refine ⟨?_, ?_⟩
  · rintro _ ⟨⟩
    simp
  · simp only [Except.bind, view, read_last, h]

/-- **Loading a file** leaves all that was in memory as it was, and gives back what the file says. -/
theorem shows_load {m : Memory} (h : initial.Extends m) (source : Source) :
    m.Extends (m.load source).2 ∧
      (m.load source).2.Shows (m.load source).1 (ConfigFile.load source) := by
  cases source with
  | missing => exact ⟨m.extends_refl, shows_shared h false⟩
  | unreadable => exact ⟨m.extends_refl, shows_shared h true⟩
  | file content =>
    rw [load, ConfigFile.load]
    cases String.fromUTF8? content with
    | none => exact ⟨m.extends_refl, shows_error _⟩
    | some text =>
      dsimp only
      cases Value.parseToml text with
      | error fault =>
        cases fault with
        | malformed => exact ⟨m.extends_refl, shows_shared h true⟩
        | tooManyDigits => exact ⟨m.extends_refl, shows_error _⟩
      | ok document =>
        dsimp only [ofDocument]
        cases settings document with
        | error misfit => exact ⟨m.extends_refl, shows_error _⟩
        | ok rules =>
          dsimp only
          rw [update_copy_shared h, read_last]
          cases hconfig : ofRules (overlay standardRules rules) with
          | ok c => exact ⟨List.prefix_append .., shows_last hconfig false⟩
          | error issues => exact ⟨List.prefix_append .., shows_error _⟩

/-- **Loading files one after the other** gives for each what it gives alone, and all of it is still
there when the last one is loaded. -/
theorem shows_loadAll {m : Memory} (h : initial.Extends m) (sources : List Source) :
    m.Extends (m.loadAll sources).2 ∧
      List.Forall₂ (m.loadAll sources).2.Shows (m.loadAll sources).1
        (sources.map ConfigFile.load) := by
  induction sources generalizing m with
  | nil => exact ⟨m.extends_refl, .nil⟩
  | cons source sources ih =>
    obtain ⟨hone, hshows⟩ := shows_load h source
    obtain ⟨hrest, hall⟩ := ih (h.trans hone)
    exact ⟨hone.trans hrest, .cons (hshows.of_extends hrest) hall⟩

theorem Shows.map_eq {m : Memory} {answers : List (Except Fault Handle)}
    {expected : List (Except Fault Loaded)} (h : List.Forall₂ m.Shows answers expected) :
    answers.map (fun answer => answer.bind m.view) = expected := by
  induction h with
  | nil => rfl
  | cons hone _ ih => rw [List.map_cons, hone.view_eq, ih]

end Memory

/-- **A file is laid over the standard settings, and does not touch them.**

The rules of a document that keeps them in a table are laid over the standard ones (`Overlays`),
and a file that reads as a document gives its configuration.  No file, or one that breaks the
notation, gives the standard configuration.  However many files are loaded one after the other, with
the rules changed in place, the standard ones stay as they were, and each file gives what it gives
alone. -/
theorem load_overlays_standard :
    (∀ document rules : Table, rules.keys.Nodup → SetsRules document rules →
      Overlays rules (ofDocument document)) ∧
    (∀ (content : ByteArray) (text : String), String.fromUTF8? content = some text →
      (∀ document, Value.parseToml text = .ok document →
        load (.file content) = (ofDocument document).map (fun c => ⟨c, false⟩) ∧
        ∀ rules, SetsRules document rules → Overlays rules (ofDocument document)) ∧
      (Value.parseToml text = .error .malformed →
        load (.file content) = .ok ⟨.standard, true⟩)) ∧
    load .missing = .ok ⟨.standard, false⟩ ∧
    ∀ sources : List Source, ∀ answers m, Memory.initial.loadAll sources = (answers, m) →
      m.read Memory.shared = standardRules ∧ ofRules standardRules = .ok .standard ∧
      answers.map (fun answer => answer.bind m.view) = sources.map load := by
  refine ⟨fun document rules => overlays_ofDocument, fun content text htext => ⟨?_, ?_⟩, rfl, ?_⟩
  · intro document hdocument
    refine ⟨?_, fun rules hrules => ?_⟩
    · simp only [load, htext, hdocument]
    · exact overlays_ofDocument (nodup_keys_of_setsRules hdocument hrules) hrules
  · intro hmalformed
    simp only [load, htext, hmalformed]
  · intro sources answers m hrun
    obtain ⟨hextends, hshows⟩ := Memory.shows_loadAll (Memory.extends_refl _) sources
    rw [hrun] at hextends hshows
    exact ⟨Memory.read_shared hextends, ofRules_standardRules, Memory.Shows.map_eq hshows⟩

theorem fromUTF8?_toUTF8 (text : String) : String.fromUTF8? text.toUTF8 = some text :=
  dif_pos text.isValidUTF8

/-- A file that sets a standard rule otherwise, and behind it a file that sets a new one: the second
has the standard setting of the first rule.  And a document with two settings that make no sense, of
which the second is of a standard rule and so the one that counts. -/
theorem load_overlays_standard_new_and_refused :
    (∃ changed added c₁ c₂ answers m,
      String.fromUTF8? changed = some "tool.ggb-lint.rules.correct-arg-types='off'" ∧
      String.fromUTF8? added = some "tool.ggb-lint.rules.x=['info']" ∧
      Memory.initial.loadAll [.file changed, .file added] = (answers, m) ∧
      answers.map (fun answer => answer.bind m.view) = [.ok ⟨c₁, false⟩, .ok ⟨c₂, false⟩] ∧
      c₁.written.keys = ["no-unknown-command", "correct-arg-types"] ∧
      c₁.written.get? "correct-arg-types" = some (.text "off") ∧
      c₂.written.keys = ["no-unknown-command", "correct-arg-types", "x"] ∧
      c₂.severityFor "correct-arg-types" .error = some .warning ∧
      m.read Memory.shared = standardRules) ∧
    ∃ fault, Refused (.whole 1) fault ∧
      ofDocument [("tool", .table [("ggb-lint", .table [("rules",
        .table [("x", .null), ("correct-arg-types", .whole 1)])])])] =
      .error (.invalid [⟨[.field "rules"], .refused (fault.message "correct-arg-types")⟩]) := by
  obtain ⟨hdocument, hfile, -, hall⟩ := load_overlays_standard
  -- what the table says, in a document that has nothing else
  have hsets (rules : Table) : SetsRules [("tool", .table [("ggb-lint", .table
      [("rules", .table rules)])])] rules := ⟨_, _, .inl rfl, .inl rfl, .inl rfl⟩
  constructor
  · have hchanged : Value.parseToml "tool.ggb-lint.rules.correct-arg-types='off'" = .ok [("tool",
        .table [("ggb-lint", .table [("rules", .table [("correct-arg-types", .text "off")])])])] := by
      decide +kernel
    have hadded : Value.parseToml "tool.ggb-lint.rules.x=['info']" = .ok [("tool", .table
        [("ggb-lint", .table [("rules", .table [("x", .list [.text "info"])])])])] := by
      decide +kernel
    have hoff : IsWritten (.text "off") := ⟨.off, [], .level (by decide +kernel)⟩
    have hinfo : IsWritten (.list [.text "info"]) := ⟨.on .info, [], .listed (by decide +kernel)⟩
    -- the bytes of the files do not matter, only what they spell
    have hbytes (text : String) : ∃ content, String.fromUTF8? content = some text :=
      ⟨_, fromUTF8?_toUTF8 text⟩
    obtain ⟨changed, hspelt₁⟩ := hbytes "tool.ggb-lint.rules.correct-arg-types='off'"
    obtain ⟨added, hspelt₂⟩ := hbytes "tool.ggb-lint.rules.x=['info']"
    obtain ⟨hload₁, hoverlays₁⟩ := (hfile _ _ hspelt₁).1 _ hchanged
    obtain ⟨hload₂, hoverlays₂⟩ := (hfile _ _ hspelt₂).1 _ hadded
    obtain ⟨c₁, hc₁, horder₁, hget₁, -⟩ :=
      (hoverlays₁ _ (hsets _)).accepted (List.forall_mem_singleton.2 hoff)
    obtain ⟨c₂, hc₂, horder₂, -, hstandard⟩ :=
      (hoverlays₂ _ (hsets _)).accepted (List.forall_mem_singleton.2 hinfo)
    obtain ⟨answers, m, hrun⟩ : ∃ answers m,
        Memory.initial.loadAll [.file changed, .file added] = (answers, m) := ⟨_, _, rfl⟩
    obtain ⟨hshared, -, hanswers⟩ := hall _ answers m hrun
    refine ⟨changed, added, c₁, c₂, answers, m, hspelt₁, hspelt₂, hrun, ?_, horder₁, hget₁ _,
      horder₂, ?_, hshared⟩
    · rw [hanswers, List.map_cons, List.map_cons, hload₁, hload₂, hc₁, hc₂]
      rfl
    · rw [hstandard _ (by decide)]
      rfl
  · refine (hdocument _ [("x", .null), ("correct-arg-types", .whole 1)] (by decide)
      (hsets _)).first ["no-unknown-command"] _ ["x"] _ rfl ?_ rfl ?_
    · intro other hother w hw
      obtain rfl := List.mem_singleton.1 hother
      have hstandard : Config.standard.written.get? "no-unknown-command" = some w := hw
      exact isWritten_standard hstandard
    · rintro ⟨l, options, h⟩
      cases h

end ConfigFile

end GeoLint
