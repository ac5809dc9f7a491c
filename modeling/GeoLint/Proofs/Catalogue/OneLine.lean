import GeoLint.Catalogue.Bundled
import GeoLint.Proofs.Catalogue.AcceptedTypes
import GeoLint.Proofs.Catalogue.BlankBranches
import GeoLint.Proofs.Text.Lines

/-!
# The texts of a catalogue fit on a line

Findings quote the texts of a catalogue: names of commands, and signatures, types and descriptions
of overloads.  A catalogue `FitsLines` if each of these is on one line.

The notation of signatures is read by cutting, so what is read holds no character that was not
written (`subset_of_mem_branches`, `subset_of_mem_slots`, `subset_of_parameterList?`).  Hence a
catalogue fits lines if its records do (`fitsLines_ofRecords`), and the bundled one does
(`fitsLines_bundled`).
-/

namespace GeoLint

open Text (OneLine isLineBreak)

/-! ### What is read was written -/

namespace Signature

section LevelCut

variable {σ : Type} {separator : Char} {step : σ → Char → σ} {top : σ → Prop}
variable {cut : σ → List Char → List (List Char)} (hcut : LevelCut separator step top cut)

include hcut

theorem LevelCut.subset_of_mem {level : σ} {cs w : List Char} (h : w ∈ cut level cs) : w ⊆ cs := by
  induction cs generalizing level w with
  | nil =>
    rw [hcut.nil, List.mem_singleton] at h
    rw [h]
    exact List.nil_subset _
  | cons c cs ih =>
    by_cases hc : c = separator ∧ top level
    · rw [hc.1, hcut.cuts level hc.2] at h
      rcases List.mem_cons.1 h with rfl | h
      · exact List.nil_subset _
      · exact List.subset_cons_of_subset _ (ih h)
    · obtain ⟨first, others, hcons⟩ := List.exists_cons_of_ne_nil (hcut.ne_nil (step level c) cs)
      rw [hcut.grows level c hc, hcons] at h
      rcases List.mem_cons.1 h with rfl | h
      · exact List.cons_subset_cons c (ih (hcons ▸ List.mem_cons_self))
      · exact List.subset_cons_of_subset _ (ih (hcons ▸ List.mem_cons_of_mem _ h))

end LevelCut

theorem dropLastIf_subset (p : List Char → Bool) (ws : List (List Char)) :
    dropLastIf p ws ⊆ ws := by
  rcases List.eq_nil_or_concat ws with rfl | ⟨front, w, rfl⟩
  · exact List.nil_subset _
  · rw [List.concat_eq_append, dropLastIf_concat]
    split
    · exact List.subset_append_left _ _
    · exact List.Subset.refl _

variable {cs w : List Char}

theorem subset_of_mem_branches (h : w ∈ branches cs) : w ⊆ cs :=
  levelCut_bars.subset_of_mem (dropLastIf_subset _ _ h)

theorem subset_of_mem_slots (h : w ∈ slots cs) : w ⊆ cs := by
  obtain ⟨v, hv, rfl⟩ := List.mem_map.1 (dropLastIf_subset _ _ h)
  exact fun c hc => levelCut_commas.subset_of_mem hv (Text.mem_of_mem_trim hc)

theorem subset_of_parameterList? (h : parameterList? cs = some w) : w ⊆ cs := by
  induction cs with
  | nil => cases h
  | cons c cs ih =>
    rw [parameterList?] at h
    split at h
    · obtain rfl := Option.some.inj h
      exact List.subset_cons_of_subset _ (List.takeWhile_prefix _).subset
    · exact List.subset_cons_of_subset _ (ih h)

theorem subset_slotText (cs : List Char) : slotText cs ⊆ cs :=
  fun _ hc => List.mem_of_mem_filter (Text.mem_of_mem_trim hc)

/-- The type of a slot is a text in it, or stands for what is written there. -/
theorem ReadAs.type_cases {p : Parameter} (h : ReadAs cs p) :
    p.type.toList ⊆ cs ∨ p.type = "any" ∨ p.type = "String" := by
  cases h with
  | dots => exact .inr (.inl rfl)
  | quoted => exact .inr (.inr rfl)
  | typed =>
    rw [String.toList_ofList]
    exact .inl (subset_slotText cs)
  | words _ htext =>
    rw [String.toList_ofList]
    exact .inl fun c hc => subset_slotText cs (htext ▸ List.mem_append_left _ hc)
  | @word type others _ _ hlisted =>
    have hmem : type ∈ listed cs := hlisted ▸ List.mem_cons_self
    obtain ⟨piece, hpiece, rfl⟩ := List.mem_map.1 hmem
    rw [String.toList_ofList]
    exact .inl fun c hc => subset_slotText cs ((Text.of_mem_fullPieces hpiece).2 c hc).1

theorem oneLine_type_of_mem_parameters {branch : List Char}
    (hbranch : ∀ c ∈ branch, isLineBreak c = false) {p : Parameter} (h : p ∈ parameters branch) :
    OneLine p.type := by
  rw [parameters] at h
  split at h
  · cases h
  · rename_i inner hinner
    obtain ⟨slot, hslot, hparse⟩ := List.mem_filterMap.1 h
    rcases (readAs_of_parse? hparse).type_cases with hsubset | hany | hstring
    · exact fun c hc => hbranch c
        (subset_of_parameterList? hinner (subset_of_mem_slots hslot (hsubset hc)))
    · rw [hany]
      decide
    · rw [hstring]
      decide

end Signature

/-! ### Records, overloads, catalogues -/

/-- The texts of a record that findings quote are on one line each. -/
structure Record.FitsLines (r : Record) : Prop where
  /-- The signature. -/
  signature : OneLine r.signature
  /-- The name of the command. -/
  command : OneLine r.command
  /-- What the command does. -/
  description : OneLine r.description

/-- The texts of an overload that findings quote are on one line each. -/
structure Overload.FitsLines (o : Overload) : Prop where
  /-- The signature. -/
  signature : OneLine o.signature
  /-- What the command does. -/
  description : OneLine o.description
  /-- The types of the slots. -/
  types : ∀ p ∈ o.parameters, OneLine p.type

/-- The texts of a catalogue that findings quote are on one line each. -/
structure Catalogue.FitsLines (c : Catalogue) : Prop where
  /-- The names of the commands. -/
  names : ∀ name ∈ c.names, OneLine name
  /-- The overloads. -/
  overloads : ∀ name o, c.HasOverload name o → o.FitsLines

theorem Record.FitsLines.overload {r : Record} (h : r.FitsLines) {o : Overload}
    (ho : o ∈ r.overloads) : o.FitsLines := by
  obtain ⟨b, hb, rfl⟩ := List.mem_map.1 ho
  have hbranch : ∀ c ∈ Text.trim b, isLineBreak c = false := fun c hc =>
    h.signature c (Signature.subset_of_mem_branches hb (Text.mem_of_mem_trim hc))
  exact ⟨Text.oneLine_ofList.2 hbranch, h.description,
    fun p hp => Signature.oneLine_type_of_mem_parameters hbranch hp⟩

namespace Catalogue

/-- **A catalogue fits lines if its records do.** -/
theorem fitsLines_ofRecords {records : List Record} (h : ∀ r ∈ records, r.FitsLines) :
    (ofRecords records).FitsLines := by
  refine ⟨fun name hname => ?_, fun name o ho => ?_⟩
  · rw [ofRecords, names_ofOverloads, List.mem_eraseDups, List.mem_map] at hname
    obtain ⟨o, ho, rfl⟩ := hname
    obtain ⟨r, hr, ho⟩ := List.mem_flatMap.1 ho
    rw [command_of_mem_overloads ho]
    exact (h r hr).command
  · obtain ⟨r, hr, -, ho⟩ := hasOverload_ofRecords.1 ho
    exact (h r hr).overload ho

/-! ### The bundled catalogue -/

/-- Records of literals are checked one by one, over their characters. -/
theorem fitsLines_cons {signature command description : List Char} {examples : List Example}
    {note : String} {records : List Record}
    (h : ((signature ++ (command ++ description)).all fun c => !isLineBreak c) = true)
    (hrecords : ∀ r ∈ records, r.FitsLines) :
    ∀ r ∈ ⟨.ofList signature, .ofList command, .ofList description, examples, note⟩ :: records,
      Record.FitsLines r := by
  simp only [List.all_append, Bool.and_eq_true, List.all_eq_true, Bool.not_eq_true'] at h
  refine List.forall_mem_cons.2 ⟨⟨?_, ?_, ?_⟩, hrecords⟩
  · exact Text.oneLine_ofList.2 h.1
  · exact Text.oneLine_ofList.2 h.2.1
  · exact Text.oneLine_ofList.2 h.2.2

set_option maxRecDepth 1000 in
theorem fitsLines_bundledRecords : ∀ r ∈ bundledRecords, r.FitsLines := by
  simp only [bundledRecords, List.forall_mem_append, and_assoc]
  refine ⟨?_, ?_, ?_, ?_⟩
  all_goals
    first
      | unfold objectCommands
      | unfold geometryCommands
      | unfold analysisCommands
      | unfold scriptCommands
    repeat' first
      | exact List.forall_mem_nil _
      | refine fitsLines_cons (by decide +kernel) ?_

/-- **The bundled catalogue fits lines.** -/
theorem fitsLines_bundled : bundled.FitsLines :=
  fitsLines_ofRecords fitsLines_bundledRecords

end Catalogue

end GeoLint
