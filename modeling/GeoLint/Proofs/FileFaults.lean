import GeoLint.Catalogue.Basic
import GeoLint.Proofs.Config.Loading
import GeoLint.Proofs.Config.Shape

/-!
# Files that break a loader

Two kinds of file are loaded: configurations and catalogues.  Each loader has faults that its
callers know of.  A configuration file may set what makes no sense; a catalogue may be missing, be
no data or be data of another kind.  Any other fault breaks the caller, and no bytes in a file
should give one.

Some do.  `load_eq_misfit_iff` and `ofFile_undocumented_iff` say exactly which: bytes that are no
text, texts with a number too long to be converted and, for configurations, documents of the wrong
shape (`ConfigFile.Misshapen`).  `undocumented_faults_occur` has instances.
-/

namespace GeoLint

/-! ### Configurations -/

namespace ConfigFile

/-- The callers of the loader know of the fault. -/
def Fault.Documented : Fault → Prop
  | .invalid _ => True
  | .misfit _ => False

/-- The content of a file is no configuration, and not for what it sets. -/
inductive Breaks (content : ByteArray) : Misfit → Prop
  /-- It is no text. -/
  | notUnicode : String.fromUTF8? content = none → Breaks content .notUnicode
  /-- It is a text with a number that is too long. -/
  | numberTooLong {text : String} : String.fromUTF8? content = some text →
    Value.parseToml text = .error .tooManyDigits → Breaks content .numberTooLong
  /-- It is a document of the wrong shape. -/
  | misshapen {text : String} {document : Table} {m : Misfit} :
    String.fromUTF8? content = some text → Value.parseToml text = .ok document →
    Misshapen document m → Breaks content m

theorem ofDocument_eq_misfit_iff {document : Table} {m : Misfit} :
    ofDocument document = .error (.misfit m) ↔ Misshapen document m := by
  rw [← settings_eq_error_iff, ofDocument]
  cases settings document with
  | error m' => simp
  | ok rules =>
    simp only [reduceCtorEq, iff_false]
    cases ofRules (overlay standardRules rules) <;> simp

theorem load_of_breaks {content : ByteArray} {m : Misfit} (h : Breaks content m) :
    load (.file content) = .error (.misfit m) := by
  cases h with
  | notUnicode htext => simp only [load, htext]
  | numberTooLong htext htoml => simp only [load, htext, htoml]
  | misshapen htext htoml hshape =>
    simp only [load, htext, htoml, ofDocument_eq_misfit_iff.2 hshape]
    rfl

/-- **Which files break the loader of configurations**, and how. -/
theorem load_eq_misfit_iff {source : Source} {m : Misfit} :
    load source = .error (.misfit m) ↔ ∃ content, source = .file content ∧ Breaks content m := by
  refine ⟨fun h => ?_, fun ⟨content, hsource, hbreaks⟩ => hsource ▸ load_of_breaks hbreaks⟩
  cases source with
  | missing => cases h
  | unreadable => cases h
  | file content =>
    refine ⟨content, rfl, ?_⟩
    rw [load] at h
    cases htext : String.fromUTF8? content with
    | none =>
      rw [htext] at h
      cases h
      exact .notUnicode htext
    | some text =>
      simp only [htext] at h
      cases htoml : Value.parseToml text with
      | error fault =>
        rw [htoml] at h
        cases fault with
        | malformed => cases h
        | tooManyDigits =>
          cases h
          exact .numberTooLong htext htoml
      | ok document =>
        simp only [htoml] at h
        cases hdocument : ofDocument document with
        | ok config =>
          rw [hdocument] at h
          cases h
        | error fault =>
          rw [hdocument] at h
          cases h
          exact .misshapen htext htoml (ofDocument_eq_misfit_iff.1 hdocument)

theorem load_undocumented_iff {source : Source} {fault : Fault} :
    (load source = .error fault ∧ ¬ fault.Documented) ↔
      ∃ content m, source = .file content ∧ fault = .misfit m ∧ Breaks content m := by
  cases fault with
  | invalid issues => simp [Fault.Documented]
  | misfit m => simp [Fault.Documented, load_eq_misfit_iff]

end ConfigFile

/-! ### Catalogues -/

namespace Catalogue

/-- The callers of the loader know of the fault. -/
def FileFault.Documented : FileFault → Prop
  | .missing | .notData | .invalid _ => True
  | .notUnicode | .numberTooLong => False

/-- The bytes of a file are no data, and not for their notation. -/
inductive Breaks (bytes : ByteArray) : FileFault → Prop
  /-- They are no text. -/
  | notUnicode : String.fromUTF8? bytes = none → Breaks bytes .notUnicode
  /-- They are a text with a number that is too long. -/
  | numberTooLong {text : String} : String.fromUTF8? bytes = some text →
    Value.parseJson text = .error .tooManyDigits → Breaks bytes .numberTooLong

theorem ofFile_of_breaks {bytes : ByteArray} {fault : FileFault} (h : Breaks bytes fault) :
    ofFile (some bytes) = .error fault ∧ ¬ fault.Documented := by
  cases h with
  | notUnicode htext => exact ⟨by simp only [ofFile, htext], id⟩
  | numberTooLong htext hjson => exact ⟨by simp only [ofFile, htext, hjson], id⟩

/-- **Which files break the loader of catalogues**, and how. -/
theorem ofFile_undocumented_iff {content : Option ByteArray} {fault : FileFault} :
    (ofFile content = .error fault ∧ ¬ fault.Documented) ↔
      ∃ bytes, content = some bytes ∧ Breaks bytes fault := by
  refine ⟨fun ⟨h, hfault⟩ => ?_, fun ⟨bytes, hbytes, hbreaks⟩ => hbytes ▸ ofFile_of_breaks hbreaks⟩
  cases content with
  | none =>
    cases h
    exact absurd trivial hfault
  | some bytes =>
    refine ⟨bytes, rfl, ?_⟩
    rw [ofFile] at h
    cases htext : String.fromUTF8? bytes with
    | none =>
      rw [htext] at h
      cases h
      exact .notUnicode htext
    | some text =>
      simp only [htext] at h
      cases hjson : Value.parseJson text with
      | error reason =>
        rw [hjson] at h
        cases reason with
        | malformed =>
          cases h
          exact absurd trivial hfault
        | tooManyDigits =>
          cases h
          exact .numberTooLong htext hjson
      | ok v =>
        simp only [hjson] at h
        cases hv : ofValue v with
        | ok c =>
          rw [hv] at h
          cases h
        | error issues =>
          rw [hv] at h
          cases h
          exact absurd trivial hfault

end Catalogue

/-! ### Both loaders -/

/-- An answer is a result or a known fault, unless it is a fault that is not known. -/
theorem ok_or_known_iff {ε α : Type} (known : ε → Prop) (answer : Except ε α) :
    ((∃ a, answer = .ok a) ∨ ∃ e, answer = .error e ∧ known e) ↔
      ¬ ∃ e, answer = .error e ∧ ¬ known e := by
  cases answer with
  | ok a => simp
  | error e => simp

/-- **The loaders fail with the faults their callers know of, but for the files that break them.**

A configuration loads, or is refused for what it sets, exactly if it is no file that breaks the
loader (`ConfigFile.Breaks`), and such a file gives the fault that goes with what is wrong with it.
The same is so of a catalogue, which loads, or is missing, no data or no records
(`Catalogue.Breaks`). -/
theorem documented_faults_iff (source : ConfigFile.Source) (content : Option ByteArray) :
    (∀ fault, (ConfigFile.load source = .error fault ∧ ¬ fault.Documented) ↔
      ∃ bytes m, source = .file bytes ∧ fault = .misfit m ∧ ConfigFile.Breaks bytes m) ∧
    (((∃ loaded, ConfigFile.load source = .ok loaded) ∨
        ∃ fault, ConfigFile.load source = .error fault ∧ fault.Documented) ↔
      ∀ bytes m, source = .file bytes → ¬ ConfigFile.Breaks bytes m) ∧
    (∀ fault, (Catalogue.ofFile content = .error fault ∧ ¬ fault.Documented) ↔
      ∃ bytes, content = some bytes ∧ Catalogue.Breaks bytes fault) ∧
    (((∃ c, Catalogue.ofFile content = .ok c) ∨
        ∃ fault, Catalogue.ofFile content = .error fault ∧ fault.Documented) ↔
      ∀ bytes fault, content = some bytes → ¬ Catalogue.Breaks bytes fault) := by
  refine ⟨fun _ => ConfigFile.load_undocumented_iff, ?_,
    fun _ => Catalogue.ofFile_undocumented_iff, ?_⟩
  · rw [ok_or_known_iff ConfigFile.Fault.Documented]
    simp only [ConfigFile.load_undocumented_iff, not_exists, not_and]
    exact ⟨fun h bytes m hsource => h _ bytes m hsource rfl,
      fun h _ bytes m hsource _ => h bytes m hsource⟩
  · rw [ok_or_known_iff Catalogue.FileFault.Documented]
    simp only [Catalogue.ofFile_undocumented_iff, not_exists, not_and]
    exact ⟨fun h bytes fault hcontent => h fault bytes hcontent,
      fun h fault bytes hcontent => h bytes fault hcontent⟩

theorem fromUTF8?_stray : String.fromUTF8? ⟨#[0xFF]⟩ = none := by
  refine dif_neg ?_
  decide

/-- A byte that no text has breaks both loaders.  The loader of configurations also breaks at a
number in place of the tools or of the rules, and at a list of rules with an empty one. -/
theorem undocumented_faults_occur :
    ConfigFile.load (.file ⟨#[0xFF]⟩) = .error (.misfit .notUnicode) ∧
    ConfigFile.load (.file "tool=3".toUTF8) = .error (.misfit .notTable) ∧
    ConfigFile.load (.file "tool.ggb-lint.rules=5".toUTF8) = .error (.misfit .notPairs) ∧
    ConfigFile.load (.file "tool.ggb-lint.rules=[[]]".toUTF8) = .error (.misfit .notTwoParts) ∧
    Catalogue.ofFile (some ⟨#[0xFF]⟩) = .error .notUnicode ∧
    ¬ (∀ source fault, ConfigFile.load source = .error fault → fault.Documented) ∧
    ¬ ∀ content fault, Catalogue.ofFile content = .error fault → fault.Documented := by
  have hload : ConfigFile.load (.file ⟨#[0xFF]⟩) = .error (.misfit .notUnicode) :=
    ConfigFile.load_of_breaks (.notUnicode fromUTF8?_stray)
  have hofFile := Catalogue.ofFile_of_breaks (.notUnicode fromUTF8?_stray)
  refine ⟨hload, ?_, ?_, ?_, hofFile.1, fun h => h _ _ hload, fun h => h _ _ hofFile.1⟩
  · have hread : Value.parseToml "tool=3" = .ok [("tool", .whole 3)] := by decide +kernel
    have hplain : ∀ t, Value.whole 3 ≠ .table t := by simp
    exact ConfigFile.load_of_breaks (.misshapen (ConfigFile.fromUTF8?_toUTF8 _) hread
      (.tool rfl hplain))
  · have hread : Value.parseToml "tool.ggb-lint.rules=5" =
        .ok [("tool", .table [("ggb-lint", .table [("rules", .whole 5)])])] := by
      decide +kernel
    have hplain : ¬ ConfigFile.Listed (.whole 5) := by simp [ConfigFile.Listed]
    exact ConfigFile.load_of_breaks (.misshapen (ConfigFile.fromUTF8?_toUTF8 _) hread
      (.rules (.inl rfl) (.inl rfl) rfl (.plain hplain)))
  · have hread : Value.parseToml "tool.ggb-lint.rules=[[]]" =
        .ok [("tool", .table [("ggb-lint", .table [("rules", .list [.list []])])])] := by
      decide +kernel
    exact ConfigFile.load_of_breaks (.misshapen (ConfigFile.fromUTF8?_toUTF8 _) hread
      (.rules (.inl rfl) (.inl rfl) rfl (.list (.here (.list (by decide))))))

end GeoLint
