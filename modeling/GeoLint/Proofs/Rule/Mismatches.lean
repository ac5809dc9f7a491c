import GeoLint.Proofs.Catalogue.Grouping
import GeoLint.Proofs.Rule.Findings
import Mathlib.Data.List.Forall2
import Mathlib.Data.List.Nodup

/-!
# What is reported about arguments

A call is held against one overload of its command, the `Chosen` one: the first with as many slots
as there are arguments, or else the first.  What is reported is what does not fit that overload:
that the number of arguments is out of its range, and which arguments have the wrong type
(`checkCount_eq`, `exists_indices_of_checkTypes`).  So nothing is reported exactly when the chosen
overload accepts the call (`check_eq_nil_iff`), and what another overload accepts plays no part.
-/

namespace GeoLint

/-- Argument `i` has a slot, but the slot takes no argument of its type. -/
def ArgumentTypes.Misfit (args : List Expr) (slots : List Parameter) (i : Nat) : Prop :=
  ∃ arg slot, args[i]? = some arg ∧ slots[i]? = some slot ∧
    ∀ t ∈ slot.accepted, compatible arg.inferredType t = false

namespace Overload

open ArgumentTypes (compatible Misfit)

/-- The overload that a call with `n` arguments is held against. -/
inductive Chosen (os : List Overload) (n : Nat) : Overload → Prop where
  /-- It is the first with `n` slots. -/
  | exact {before after : List Overload} {o : Overload} (h : os = before ++ o :: after)
    (hbefore : ∀ p ∈ before, p.total ≠ n) (ho : o.total = n) : Chosen os n o
  /-- It is the first of all, and none has `n` slots. -/
  | first {after : List Overload} {o : Overload} (h : os = o :: after)
    (hnone : ∀ p ∈ os, p.total ≠ n) : Chosen os n o

/-- The overload takes so many arguments, and has a slot for each that takes it. -/
structure Accepts (o : Overload) (args : List Expr) : Prop where
  /-- No required slot stays empty. -/
  required_le : o.required ≤ args.length
  /-- No argument is left over. -/
  le_total : args.length ≤ o.total
  /-- Each argument has a type that its slot takes. -/
  fits : ∀ (i : Nat) (arg : Expr), args[i]? = some arg → ∃ slot, o.parameters[i]? = some slot ∧
    ∃ t ∈ slot.accepted, compatible arg.inferredType t = true

theorem required_le_total (o : Overload) : o.required ≤ o.total :=
  List.countP_le_length

theorem Chosen.mem {os : List Overload} {n : Nat} {o : Overload} (h : Chosen os n o) : o ∈ os := by
  cases h with
  | exact h => simp [h]
  | first h => simp [h]

/-- If an overload has as many slots as there are arguments, then the chosen one has. -/
theorem Chosen.total_eq {os : List Overload} {n : Nat} {o p : Overload} (h : Chosen os n o)
    (hp : p ∈ os) (hn : p.total = n) : o.total = n := by
  cases h with
  | exact _ _ ho => exact ho
  | first _ hnone => exact absurd hn (hnone p hp)

theorem chosen_iff {os : List Overload} {n : Nat} {o : Overload} :
    Chosen os n o ↔ (os.find? fun p => p.total = n).or os.head? = some o := by
  constructor
  · intro h
    cases h with
    | exact h hbefore ho =>
      rw [List.find?_eq_some_iff_append.2 ⟨by simpa using ho, _, _, h, by simpa using hbefore⟩]
      rfl
    | first h hnone =>
      rw [List.find?_eq_none.2 (by simpa using hnone), h]
      rfl
  · intro h
    cases hfind : os.find? fun p => p.total = n with
    | some p =>
      rw [hfind, Option.some_or, Option.some.injEq] at h
      rw [h, List.find?_eq_some_iff_append] at hfind
      obtain ⟨ho, before, after, hos, hbefore⟩ := hfind
      exact .exact hos (by simpa using hbefore) (by simpa using ho)
    | none =>
      rw [hfind, Option.none_or] at h
      obtain ⟨after, hos⟩ := List.head?_eq_some_iff.1 h
      exact .first hos (by simpa using List.find?_eq_none.1 hfind)

theorem exists_chosen {os : List Overload} (h : os ≠ []) (n : Nat) : ∃ o, Chosen os n o := by
  simp only [chosen_iff]
  rw [← Option.isSome_iff_exists, Option.isSome_or, Bool.or_eq_true]
  exact .inr (List.isSome_head?.2 h)

theorem accepts_iff {o : Overload} {args : List Expr} :
    o.Accepts args ↔ (o.required ≤ args.length ∧ args.length ≤ o.total) ∧
      ∀ i, ¬ Misfit args o.parameters i := by
  constructor
  · rintro ⟨hrequired, htotal, hfits⟩
    refine ⟨⟨hrequired, htotal⟩, ?_⟩
    rintro i ⟨arg, slot, harg, hslot, hmisfits⟩
    obtain ⟨slot', hslot', t, ht, hcompatible⟩ := hfits i arg harg
    obtain rfl := Option.some.inj (hslot.symm.trans hslot')
    rw [hmisfits t ht] at hcompatible
    cases hcompatible
  · rintro ⟨⟨hrequired, htotal⟩, hnone⟩
    refine ⟨hrequired, htotal, fun i arg harg => ?_⟩
    have hi : i < o.parameters.length :=
      Nat.lt_of_lt_of_le (List.getElem?_eq_some_iff.1 harg).1 htotal
    refine ⟨o.parameters[i], List.getElem?_eq_getElem hi, ?_⟩
    by_contra hmisfits
    refine hnone i ⟨arg, _, harg, List.getElem?_eq_getElem hi, fun t ht => ?_⟩
    rw [Bool.eq_false_iff]
    exact fun hcompatible => hmisfits ⟨t, ht, hcompatible⟩

theorem accepts_singleton {o : Overload} {arg : Expr} {slot : Parameter} {slots : List Parameter}
    (hslots : o.parameters = slot :: slots) (hrequired : o.required ≤ 1)
    (hfits : ArgumentTypes.fits arg slot = true) : o.Accepts [arg] := by
  have htotal : 1 ≤ o.total := by simp [total, hslots]
  refine ⟨hrequired, htotal, fun i arg' harg => ?_⟩
  cases i with
  | zero =>
    obtain rfl := Option.some.inj harg
    exact ⟨slot, by rw [hslots]; rfl, by simpa [ArgumentTypes.fits] using hfits⟩
  | succ i => cases harg

end Overload

theorem Catalogue.bestMatch?_eq_some_iff {c : Catalogue} {name : String} {n : Nat} {o : Overload} :
    c.bestMatch? name n = some o ↔
      ∃ os, c.overloads? name = some os ∧ Overload.Chosen os n o := by
  rw [bestMatch?]
  cases c.overloads? name with
  | none => simp
  | some os => simp [Overload.chosen_iff]

namespace ArgumentTypes

variable (ctx : Context) (s : Statement)

/-- The report that the number of arguments is out of the range of an overload: it is made at the
name of the command, with the severity of the rule. -/
def miscount (o : Overload) : Finding :=
  ctx.reportAs none (.name s.command)
    s!"Command \"{s.command.text}\" expects {o.total} argument(s) but got {s.arguments.length}"
    [s!"Expected signature: {o.signature}", o.description]

/-- The report that the type of argument `i` does not fit its slot: it is made at the argument, as
a warning. -/
def mistype (i : Nat) (arg : Expr) (slot : Parameter) : Finding :=
  ctx.reportAs (some .warning) (.expr arg)
    (s!"Argument {i + 1} of \"{s.command.text}\" has the wrong type: " ++
      s!"expected {slot.type}, got {arg.inferredType}")
    [s!"This argument should be of type {slot.type}"]

theorem checkCount_eq (o : Overload) :
    checkCount ctx s o =
      if o.required ≤ s.arguments.length ∧ s.arguments.length ≤ o.total then []
      else [miscount ctx s o] := by
  rw [checkCount]
  simp only [Bool.and_eq_true, decide_eq_true_eq]
  rfl

theorem fits_eq_false_iff {arg : Expr} {slot : Parameter} :
    fits arg slot = false ↔ ∀ t ∈ slot.accepted, compatible arg.inferredType t = false := by
  rw [fits, List.any_eq_false]
  simp

@[simp] theorem misfit_zero {arg : Expr} {args : List Expr} {slot : Parameter}
    {slots : List Parameter} :
    Misfit (arg :: args) (slot :: slots) 0 ↔ fits arg slot = false := by
  simp [Misfit, fits_eq_false_iff]

@[simp] theorem misfit_succ {arg : Expr} {args : List Expr} {slot : Parameter}
    {slots : List Parameter} {i : Nat} :
    Misfit (arg :: args) (slot :: slots) (i + 1) ↔ Misfit args slots i := by
  simp [Misfit]

theorem Misfit.lt {args : List Expr} {slots : List Parameter} {i : Nat}
    (h : Misfit args slots i) : i < min args.length slots.length := by
  obtain ⟨arg, slot, harg, hslot, -⟩ := h
  exact Nat.lt_min.2 ⟨(List.getElem?_eq_some_iff.1 harg).1, (List.getElem?_eq_some_iff.1 hslot).1⟩

/-- **The arguments that are reported are those that do not fit**, in order. -/
theorem exists_indices_of_checkTypes (index : Nat) (args : List Expr) (slots : List Parameter) :
    ∃ is : List Nat, is.Pairwise (· < ·) ∧ (∀ i, i ∈ is ↔ Misfit args slots i) ∧
      List.Forall₂ (fun i f => ∃ arg slot, args[i]? = some arg ∧ slots[i]? = some slot ∧
        f = mistype ctx s (index + i) arg slot) is (checkTypes ctx s index args slots) := by
  induction args generalizing index slots with
  | nil => exact ⟨[], .nil, by simp [Misfit], .nil⟩
  | cons arg args ih =>
    cases slots with
    | nil => exact ⟨[], .nil, by simp [Misfit], .nil⟩
    | cons slot slots =>
      obtain ⟨is, hsorted, hmem, hreports⟩ := ih (index + 1) slots
      -- Seen from here, the indices of the arguments that follow are one higher.
      have hrest : List.Forall₂ (fun i f => ∃ arg' slot', (arg :: args)[i]? = some arg' ∧
          (slot :: slots)[i]? = some slot' ∧ f = mistype ctx s (index + i) arg' slot')
          (is.map (· + 1)) (checkTypes ctx s (index + 1) args slots) := by
        rw [List.forall₂_map_left_iff]
        refine hreports.imp fun i f hf => ?_
        rwa [Nat.add_right_comm] at hf
      have hsorted' : (is.map (· + 1)).Pairwise (· < ·) :=
        List.pairwise_map.2 (hsorted.imp (Nat.succ_lt_succ ·))
      rw [checkTypes, checkArgument]
      cases hfits : fits arg slot with
      | true =>
        refine ⟨is.map (· + 1), hsorted', fun i => ?_, hrest⟩
        cases i with
        | zero => simp [hfits]
        | succ i => simp [hmem]
      | false =>
        refine ⟨0 :: is.map (· + 1), List.pairwise_cons.2 ⟨by simp, hsorted'⟩, fun i => ?_,
          .cons ⟨arg, slot, rfl, rfl, rfl⟩ hrest⟩
        cases i with
        | zero => simp [hfits]
        | succ i => simp [hmem]

variable {ctx s}

theorem exists_mistype_of_mem_checkTypes {args : List Expr} {slots : List Parameter} {f : Finding}
    (h : f ∈ checkTypes ctx s 0 args slots) :
    ∃ i arg, ∃ slot ∈ slots, f = mistype ctx s i arg slot := by
  obtain ⟨is, -, -, hreports⟩ := exists_indices_of_checkTypes ctx s 0 args slots
  obtain ⟨k, hk, rfl⟩ := List.getElem_of_mem h
  obtain ⟨arg, slot, -, hslot, hf⟩ := hreports.get (hreports.length_eq ▸ hk) hk
  exact ⟨_, arg, slot, List.mem_of_getElem? hslot, hf⟩

/-! ### One statement -/

theorem checkCount_of_total {o : Overload} (h : o.total = s.arguments.length) :
    checkCount ctx s o = [] := by
  rw [checkCount_eq, if_pos ⟨h ▸ o.required_le_total, Nat.le_of_eq h.symm⟩]

theorem check_of_chosen {os : List Overload} {o : Overload}
    (hos : ctx.catalogue.overloads? s.command.text = some os)
    (ho : Overload.Chosen os s.arguments.length o) :
    check ctx s = checkCount ctx s o ++ checkTypes ctx s 0 s.arguments o.parameters := by
  rw [check, Catalogue.bestMatch?_eq_some_iff.2 ⟨os, hos, ho⟩]

theorem checkTypes_eq_nil_iff {o : Overload} :
    checkTypes ctx s 0 s.arguments o.parameters = [] ↔
      ∀ i, ¬ Misfit s.arguments o.parameters i := by
  obtain ⟨is, -, hmem, hreports⟩ := exists_indices_of_checkTypes ctx s 0 s.arguments o.parameters
  simp only [← hmem]
  rw [← List.eq_nil_iff_forall_not_mem, ← List.length_eq_zero_iff, ← hreports.length_eq,
    List.length_eq_zero_iff]

/-- **Nothing is reported exactly when the chosen overload accepts the call.** -/
theorem check_eq_nil_iff {os : List Overload} {o : Overload}
    (hos : ctx.catalogue.overloads? s.command.text = some os)
    (ho : Overload.Chosen os s.arguments.length o) :
    check ctx s = [] ↔ o.Accepts s.arguments := by
  rw [check_of_chosen hos ho, List.append_eq_nil_iff, checkTypes_eq_nil_iff, checkCount_eq,
    Overload.accepts_iff]
  simp

/-! ### Messages -/

/-- The number of an argument can be read off the message about it. -/
theorem eq_of_message_mistype {i j : Nat} {arg arg' : Expr} {slot slot' : Parameter}
    (h : (mistype ctx s i arg slot).message = (mistype ctx s j arg' slot').message) : i = j := by
  -- The digits of the number end at the blank that follows them.
  have hdigits (n : Nat) (rest : String) :
      (n.repr ++ (" of \"" ++ rest)).toList.takeWhile Char.isDigit = Nat.toDigits 10 n := by
    rw [String.toList_append, String.toList_append, Nat.toList_repr, List.takeWhile_append_of_pos]
    · exact List.append_nil _
    · exact fun c hc => Nat.isDigit_of_mem_toDigits (by decide) (by decide) hc
  simp only [mistype, Context.reportAs, String.append_assoc, String.append_right_inj] at h
  have htake := congrArg (fun text => text.toList.takeWhile Char.isDigit) h
  have htoDigits : Nat.toDigits 10 (i + 1) = Nat.toDigits 10 (j + 1) :=
    (hdigits (i + 1) _).symm.trans (htake.trans (hdigits (j + 1) _))
  exact Nat.succ.inj (Entries.eq_of_toDigits htoDigits)

theorem message_miscount_ne (o : Overload) (i : Nat) (arg : Expr) (slot : Parameter) :
    (miscount ctx s o).message ≠ (mistype ctx s i arg slot).message := by
  intro h
  have hhead := congrArg (fun message => message.toList.head?) h
  simp [miscount, mistype, Context.reportAs, toString] at hhead

theorem nodup_messages_checkTypes (ctx : Context) (s : Statement) (args : List Expr)
    (slots : List Parameter) :
    ((checkTypes ctx s 0 args slots).map Finding.message).Nodup := by
  obtain ⟨is, hsorted, -, hreports⟩ := exists_indices_of_checkTypes ctx s 0 args slots
  have hlength := hreports.length_eq
  rw [List.nodup_iff_pairwise_ne, List.pairwise_map, List.pairwise_iff_getElem]
  intro k l hk hl hkl hmessage
  have hk' : k < is.length := by omega
  have hl' : l < is.length := by omega
  obtain ⟨arg, slot, -, -, hf⟩ := hreports.get hk' hk
  obtain ⟨arg', slot', -, -, hf'⟩ := hreports.get hl' hl
  rw [List.get_eq_getElem] at hf hf'
  simp only [hf, hf'] at hmessage
  have hindex := eq_of_message_mistype hmessage
  have hlt := List.pairwise_iff_getElem.1 hsorted k l hk' hl' hkl
  simp only [List.get_eq_getElem] at hindex
  omega

theorem nodup_messages (ctx : Context) (s : Statement) :
    ((check ctx s).map Finding.message).Nodup := by
  rw [check]
  cases ctx.catalogue.bestMatch? s.command.text s.arguments.length with
  | none => exact List.nodup_nil
  | some o =>
    have htypes := nodup_messages_checkTypes ctx s s.arguments o.parameters
    simp only [checkCount_eq]
    split
    · exact htypes
    · refine List.nodup_cons.2 ⟨fun hmem => ?_, htypes⟩
      obtain ⟨f, hf, hmessage⟩ := List.mem_map.1 hmem
      obtain ⟨i, arg, slot, -, rfl⟩ := exists_mistype_of_mem_checkTypes hf
      exact message_miscount_ne o i arg slot hmessage.symm

end ArgumentTypes

open ArgumentTypes (check miscount mistype Misfit)

/-- **What is reported is what does not fit the chosen overload.**  The rule goes through the
statements in order.  It says nothing about a command that is not known.  Otherwise it reports the
number of arguments if it is out of the range of the chosen overload, and then each argument that
has a slot but not the type for it.  So the number is reported only where no overload has it, no
message is given twice, and where nothing is reported some overload accepts the call. -/
theorem mismatches_with_chosen_overload {records : List Record} {ctx : Context}
    (h : ctx.catalogue = .ofRecords records) :
    ArgumentTypes.rule.run ctx = .ok (ctx.script.body.flatMap (check ctx)) ∧
    ∀ s : Statement,
      (ctx.catalogue.knows s.command.text = false → check ctx s = []) ∧
      ∀ os, ctx.catalogue.overloads? s.command.text = some os →
        ∃ o counts types, Overload.Chosen os s.arguments.length o ∧
          check ctx s = counts ++ types ∧
          counts = (if o.required ≤ s.arguments.length ∧ s.arguments.length ≤ o.total then []
            else [miscount ctx s o]) ∧
          (∃ is : List Nat, is.Pairwise (· < ·) ∧
            (∀ i, i ∈ is ↔
              i < min s.arguments.length o.total ∧ Misfit s.arguments o.parameters i) ∧
            List.Forall₂ (fun i f => ∃ arg slot, s.arguments[i]? = some arg ∧
              o.parameters[i]? = some slot ∧ f = mistype ctx s i arg slot) is types) ∧
          (counts ≠ [] → ∀ p ∈ os, p.total ≠ s.arguments.length) ∧
          ((check ctx s).map Finding.message).Nodup ∧
          (check ctx s = [] → ∃ p ∈ os, p.Accepts s.arguments) := by
  refine ⟨ArgumentTypes.run_eq ctx, fun s => ⟨?_, ?_⟩⟩
  · intro hunknown
    rw [Catalogue.knows, Option.isSome_eq_false_iff, Option.isNone_iff_eq_none] at hunknown
    rw [check, Catalogue.bestMatch?, hunknown]
  · intro os hos
    obtain ⟨o, ho⟩ :=
      Overload.exists_chosen (Catalogue.ne_nil_of_overloads? (h ▸ hos)) s.arguments.length
    obtain ⟨is, hsorted, hmem, hreports⟩ :=
      ArgumentTypes.exists_indices_of_checkTypes ctx s 0 s.arguments o.parameters
    refine ⟨o, _, _, ho, ArgumentTypes.check_of_chosen hos ho,
      ArgumentTypes.checkCount_eq ctx s o, ⟨is, hsorted, fun i => ?_, ?_⟩, ?_,
      ArgumentTypes.nodup_messages ctx s, ?_⟩
    · rw [hmem, iff_and_self]
      exact ArgumentTypes.Misfit.lt
    · simpa only [Nat.zero_add] using hreports
    · intro hcounts p hp hn
      exact hcounts (ArgumentTypes.checkCount_of_total (ho.total_eq hp hn))
    · exact fun hnone => ⟨o, ho.mem, (ArgumentTypes.check_eq_nil_iff hos ho).1 hnone⟩

/-- No overload takes four arguments, and the one that is chosen takes no text in front. -/
theorem mismatches_with_chosen_overload_four_arguments :
    ∃ (records : List Record) (ctx : Context) (s : Statement) (os : List Overload),
      records = [⟨"F( <Number>, ... ) | F( <String>, <String>, <String> )", "F", "", [], ""⟩] ∧
      ctx.catalogue = .ofRecords records ∧
      s.arguments.map Expr.inferredType = ["String", "Boolean", "Object", "Object"] ∧
      ctx.catalogue.overloads? s.command.text = some os ∧
      (check ctx s).map Finding.message =
        ["Command \"F\" expects 2 argument(s) but got 4",
          "Argument 1 of \"F\" has the wrong type: expected Number, got String"] ∧
      ∃ o counts types, Overload.Chosen os s.arguments.length o ∧ check ctx s = counts ++ types ∧
        counts = (if o.required ≤ s.arguments.length ∧ s.arguments.length ≤ o.total then []
          else [miscount ctx s o]) ∧
        (counts ≠ [] → ∀ p ∈ os, p.total ≠ s.arguments.length) := by
  let here : Span := .point .origin
  let s : Statement := ⟨⟨"F", here⟩,
    [.text "a" here, .truth true here, .name ⟨"b", here⟩, .call ⟨"g", here⟩ [] here], here⟩
  let ctx : Context := ⟨"correct-arg-types", .error, [], ⟨[s], here⟩, "", .ofRecords
    [⟨"F( <Number>, ... ) | F( <String>, <String>, <String> )", "F", "", [], ""⟩]⟩
  obtain ⟨os, hos⟩ : ∃ os, ctx.catalogue.overloads? s.command.text = some os :=
    Option.isSome_iff_exists.1 (by decide +kernel)
  obtain ⟨o, counts, types, ho, hcheck, hcounts, -, hnone, -⟩ :=
    ((mismatches_with_chosen_overload (rfl : ctx.catalogue = .ofRecords _)).2 s).2 os hos
  exact ⟨_, ctx, s, os, rfl, rfl, rfl, hos, by decide +kernel, o, counts, types, ho, hcheck,
    hcounts, hnone⟩

/-- **A call that the chosen overload accepts is never reported, and any other call of a known
command is.**  The chosen overload is the one that the catalogue gives as the best match.  It makes
no difference what the overloads that are not chosen accept. -/
theorem silent_iff_chosen_accepts {records : List Record} {ctx : Context}
    (h : ctx.catalogue = .ofRecords records) (s : Statement) {os : List Overload}
    (hos : ctx.catalogue.overloads? s.command.text = some os) :
    (∃ o ∈ os, Overload.Chosen os s.arguments.length o) ∧
      ∀ o, Overload.Chosen os s.arguments.length o →
        ctx.catalogue.bestMatch? s.command.text s.arguments.length = some o ∧
        (check ctx s = [] ↔ o.Accepts s.arguments) := by
  obtain ⟨o, ho⟩ :=
    Overload.exists_chosen (Catalogue.ne_nil_of_overloads? (h ▸ hos)) s.arguments.length
  refine ⟨⟨o, ho.mem, ho⟩, fun o ho => ⟨?_, ArgumentTypes.check_eq_nil_iff hos ho⟩⟩
  exact Catalogue.bestMatch?_eq_some_iff.2 ⟨os, hos, ho⟩

/-- The first overload is chosen although it has one slot more, and accepts the call. -/
theorem silent_iff_chosen_accepts_optional_slot :
    ∃ (records : List Record) (ctx : Context) (s : Statement) (os : List Overload) (o : Overload),
      records = [⟨"F( <Number>, ... ) | F( <String>, <String>, <String> )", "F", "", [], ""⟩] ∧
      ctx.catalogue = .ofRecords records ∧ s.arguments.map Expr.inferredType = ["Object"] ∧
      ctx.catalogue.overloads? s.command.text = some os ∧
      Overload.Chosen os s.arguments.length o ∧
      ctx.catalogue.bestMatch? s.command.text s.arguments.length = some o ∧
      o.total = 2 ∧ o.Accepts s.arguments ∧ check ctx s = [] := by
  let here : Span := .point .origin
  let s : Statement := ⟨⟨"F", here⟩, [.name ⟨"a", here⟩], here⟩
  let ctx : Context := ⟨"correct-arg-types", .error, [], ⟨[s], here⟩, "", .ofRecords
    [⟨"F( <Number>, ... ) | F( <String>, <String>, <String> )", "F", "", [], ""⟩]⟩
  let variadic : Overload := ⟨"F", [⟨"Number", false, none⟩, ⟨"any", true, none⟩], "",
    "F( <Number>, ... )", [], ""⟩
  let texts : Overload := ⟨"F", List.replicate 3 ⟨"String", false, none⟩, "",
    "F( <String>, <String>, <String> )", [], ""⟩
  have hos : ctx.catalogue.overloads? s.command.text = some [variadic, texts] := by decide +kernel
  have ho : Overload.Chosen [variadic, texts] s.arguments.length variadic := .first rfl (by decide)
  have haccepts : variadic.Accepts s.arguments := Overload.accepts_singleton rfl (by decide) rfl
  obtain ⟨hbest, hsilent⟩ := (silent_iff_chosen_accepts rfl s hos).2 variadic ho
  exact ⟨_, ctx, s, _, variadic, rfl, rfl, rfl, hos, ho, hbest, rfl, haccepts,
    hsilent.2 haccepts⟩

/-- **What an overload accepts can be reported all the same**, against an overload of as many slots
that stands before it. -/
theorem accepted_call_reported :
    ∃ (c : Catalogue) (script : Script) (s : Statement) (os : List Overload) (o : Overload),
      Catalogue.ofValue (.list [.table [("signature", .text "F( <Number> ) | F( <String> )"),
        ("commandBase", .text "F")]]) = .ok c ∧
      Script.parse "F('a')" = .ok script ∧ script.body = [s] ∧
      c.overloads? s.command.text = some os ∧ o ∈ os ∧ o.Accepts s.arguments ∧
      ∀ ctx : Context, ctx.catalogue = c → check ctx s ≠ [] := by
  let s : Statement := ⟨⟨"F", .point ⟨1, 1⟩⟩, [.text "a" (.point ⟨1, 3⟩)], ⟨⟨1, 1⟩, ⟨1, 6⟩⟩⟩
  let number : Overload := ⟨"F", [⟨"Number", false, none⟩], "", "F( <Number> )", [], ""⟩
  let text : Overload := ⟨"F", [⟨"String", false, none⟩], "", "F( <String> )", [], ""⟩
  obtain ⟨script, hparse, hbody⟩ : ∃ script, Script.parse "F('a')" = .ok script ∧
      script.body = [s] := ⟨_, rfl, rfl⟩
  obtain ⟨c, hc, hos⟩ : ∃ c, Catalogue.ofValue (.list [.table
      [("signature", .text "F( <Number> ) | F( <String> )"), ("commandBase", .text "F")]]) = .ok c ∧
      c.overloads? s.command.text = some [number, text] := ⟨_, rfl, by decide +kernel⟩
  have haccepts : text.Accepts s.arguments := Overload.accepts_singleton rfl (by decide) rfl
  have hrejects : ¬ number.Accepts s.arguments := by
    intro h
    exact (Overload.accepts_iff.1 h).2 0 ⟨_, _, rfl, rfl, by decide⟩
  have hchosen : Overload.Chosen [number, text] s.arguments.length number :=
    .exact (List.nil_append _).symm (by simp) rfl
  refine ⟨c, script, s, _, text, hc, hparse, hbody, hos, List.mem_cons_of_mem _ List.mem_cons_self,
    haccepts, fun ctx hctx hnone => ?_⟩
  exact hrejects ((ArgumentTypes.check_eq_nil_iff (hctx.symm ▸ hos) hchosen).1 hnone)

end GeoLint
