import GeoLint.Proofs.Token.Unique

/-!
# What the tokens of a text do not depend on

Two things that tokens do not depend on, both read off `next_eq`.

* **Where the text starts.**  From another place the same text gives the same tokens, but for their
  places (`scanFrom_alike`).  How the places are related is up to the caller: any relation will do
  that the steps of the scanner keep (`Steady`).
* **What follows.**  What stands behind a lexeme may be exchanged for anything that starts with a
  blank or a line end (`Breaks`), since no lexeme goes on there (`next_exchange`,
  `scanFrom_exchange`).  The one lexeme that does is a string literal that nothing closes
  (`IsOpen`).
-/

namespace GeoLint

namespace Token

/-! ### All tokens from a cursor on -/

/-- The tokens from a cursor on without the unknown ones, and where the script ends. -/
def scanFrom (c : Cursor) : List Token × Position := run c.rest.length c

/-- The token, unless it is unknown. -/
def known (t : Token) : List Token := if t.kind = .unknown then [] else [t]

theorem run_of_ending {c : Cursor} (h : (next c).1.kind = .ending) (fuel : Nat) :
    run fuel c = ([], (next c).1.position) := by
  cases fuel with
  | zero => rfl
  | succ fuel => simp [run, h]

theorem run_of_ne_ending {c : Cursor} (h : (next c).1.kind ≠ .ending) (fuel : Nat) :
    run (fuel + 1) c =
      (known (next c).1 ++ (run fuel (next c).2).1, (run fuel (next c).2).2) := by
  simp only [run, h, if_false, known]
  split <;> rfl

/-- Fuel beyond the number of characters changes nothing. -/
theorem run_eq_scanFrom {c : Cursor} {fuel : Nat} (h : c.rest.length ≤ fuel) :
    run fuel c = scanFrom c := by
  have hmore : ∀ (fuel : Nat) (c : Cursor), c.rest.length ≤ fuel →
      run (fuel + 1) c = run fuel c := by
    intro fuel
    induction fuel with
    | zero =>
      intro c hc
      have hnil : c.rest = [] := List.length_eq_zero_iff.1 (by omega)
      have hending : (next c).1.kind = .ending := by
        rw [next_of_nil hnil]
        rfl
      rw [run_of_ending hending, run_of_ending hending]
    | succ fuel ih =>
      intro c hc
      by_cases hending : (next c).1.kind = .ending
      · rw [run_of_ending hending, run_of_ending hending]
      · have hrest : (next c).2.rest.length ≤ fuel := by
          obtain hlt | ⟨-, hc⟩ := next_progress c
          · omega
          · exact absurd hc hending
        rw [run_of_ne_ending hending, run_of_ne_ending hending, ih _ hrest]
  rw [scanFrom]
  induction fuel, h using Nat.le_induction with
  | base => rfl
  | succ fuel hle ih => rw [hmore fuel c hle, ih]

theorem scan_eq (source : String) : scan source = scanFrom (.ofSource source) :=
  run_eq_scanFrom (length_ofSource source).le

theorem scanFrom_of_ending {c : Cursor} (h : (next c).1.kind = .ending) :
    scanFrom c = ([], (next c).1.position) :=
  run_of_ending h _

theorem scanFrom_of_ne_ending {c : Cursor} (h : (next c).1.kind ≠ .ending) :
    scanFrom c = (known (next c).1 ++ (scanFrom (next c).2).1, (scanFrom (next c).2).2) := by
  have hrest : (next c).2.rest.length ≤ c.rest.length := by
    obtain hlt | ⟨-, hc⟩ := next_progress c
    · omega
    · exact absurd hc h
  rw [← run_eq_scanFrom (Nat.le_succ c.rest.length), run_of_ne_ending h, run_eq_scanFrom hrest]

/-- What holds at the end of the script and passes from behind a token to in front of it holds at
every cursor. -/
theorem induction_next {P : Cursor → Prop}
    (ending : ∀ c, (next c).1.kind = .ending → P c)
    (step : ∀ c, (next c).1.kind ≠ .ending → P (next c).2 → P c) (c : Cursor) : P c := by
  generalize hn : c.rest.length = n
  induction n using Nat.strong_induction_on generalizing c with
  | h n ih =>
    by_cases hending : (next c).1.kind = .ending
    · exact ending c hending
    · refine step c hending (ih _ ?_ _ rfl)
      obtain hlt | ⟨-, hc⟩ := next_progress c
      · omega
      · exact absurd hc hending

/-! ### Where the text starts -/

/-- A relation between places that the steps of the scanner keep. -/
structure Steady (ρ : Position → Position → Prop) : Prop where
  /-- Along a line. -/
  right : ∀ {p p'} n, ρ p p' → ρ (p.right n) (p'.right n)
  /-- To the next line. -/
  nextLine : ∀ {p p'}, ρ p p' → ρ p.nextLine p'.nextLine

theorem Steady.across {ρ : Position → Position → Prop} (hρ : Steady ρ) {p p' : Position}
    (h : ρ p p') (cs : List Char) : ρ (p.across cs) (p'.across cs) := by
  fun_induction Position.across p cs generalizing p' with
  | case1 => exact h
  | case2 => exact hρ.right 1 h
  | case3 p c cs ih => exact ih (hρ.right 2 h)
  | case4 p c cs hlast hescape ih =>
    have hc : c ≠ '\\' := by
      rintro rfl
      cases cs with
      | nil => exact hlast rfl rfl
      | cons d cs => exact hescape d cs rfl rfl
    rw [Position.across_plain hc]
    refine ih ?_
    rw [Position.step, Position.step]
    split
    · exact hρ.nextLine h
    · exact hρ.right 1 h

/-- The second token is the first one at a place related by `ρ`. -/
structure Alike (ρ : Position → Position → Prop) (t t' : Token) : Prop where
  /-- Of the same kind. -/
  kind : t'.kind = t.kind
  /-- With the same text. -/
  text : t'.text = t.text
  /-- At a related place. -/
  place : ρ t.position t'.position

theorem Alike.known {ρ : Position → Position → Prop} {t t' : Token} (h : Alike ρ t t') :
    List.Forall₂ (Alike ρ) (known t) (known t') := by
  rw [Token.known, Token.known, h.kind]
  split
  · exact .nil
  · exact .cons h .nil

/-- A call from another place. -/
theorem next_alike {ρ : Position → Position → Prop} (hρ : Steady ρ) {c : Cursor} {p : Position}
    (h : ρ c.position p) :
    Alike ρ (next c).1 (next ⟨c.rest, p⟩).1 ∧ (next ⟨c.rest, p⟩).2.rest = (next c).2.rest ∧
      ρ (next c).2.position (next ⟨c.rest, p⟩).2.position := by
  have hhere := next_at c c.position
  have hthere := next_at c p
  have hplace := hρ.right (layout c.rest).length h
  rw [show (⟨c.rest, c.position⟩ : Cursor) = c from rfl] at hhere
  rw [hthere]
  refine ⟨⟨rfl, rfl, ?_⟩, rfl, ?_⟩
  · rw [hhere]
    exact hplace
  · rw [hhere]
    exact hρ.across hplace _

/-- **The tokens of a text are the same wherever it starts**, but for their places. -/
theorem scanFrom_alike {ρ : Position → Position → Prop} (hρ : Steady ρ) {c : Cursor} {p : Position}
    (h : ρ c.position p) :
    List.Forall₂ (Alike ρ) (scanFrom c).1 (scanFrom ⟨c.rest, p⟩).1 ∧
      ρ (scanFrom c).2 (scanFrom ⟨c.rest, p⟩).2 := by
  induction c using induction_next generalizing p with
  | ending c hending =>
    obtain ⟨hlike, -, -⟩ := next_alike hρ h
    rw [scanFrom_of_ending hending, scanFrom_of_ending (hlike.kind.trans hending)]
    exact ⟨.nil, hlike.place⟩
  | step c hending ih =>
    obtain ⟨hlike, hrest, hplace⟩ := next_alike hρ h
    obtain ⟨htokens, hstop⟩ := ih hplace
    rw [← hrest] at htokens hstop
    have hthere : (next ⟨c.rest, p⟩).1.kind ≠ .ending := by rwa [hlike.kind]
    rw [scanFrom_of_ne_ending hending, scanFrom_of_ne_ending hthere]
    exact ⟨List.rel_append hlike.known htokens, hstop⟩

/-! ### What follows -/

/-- The text is used up, or starts with a blank or a line end. -/
def Breaks (cs : List Char) : Prop :=
  ∀ c rest, cs = c :: rest → isSpace c = true ∨ c = '\n'

/-- The pattern matches no blank and no line end. -/
def Solid (p : RegularExpression Char) : Prop :=
  ∀ w ∈ p.matches', ∀ c ∈ w, isSpace c = false ∧ c ≠ '\n'

theorem isPrefix_of_breaks {v a x : List Char} (hv : ∀ c ∈ v, isSpace c = false ∧ c ≠ '\n')
    (hx : Breaks x) (h : v <+: a ++ x) : v <+: a := by
  by_cases hlength : v.length ≤ a.length
  · exact List.prefix_of_prefix_length_le h (List.prefix_append a x) hlength
  · -- A longer prefix would hold the first character of `x`.
    obtain ⟨u, rfl⟩ := List.prefix_of_prefix_length_le (List.prefix_append a x) h (by omega)
    rw [List.prefix_append_right_inj] at h
    cases u with
    | nil => simp
    | cons c u =>
      obtain ⟨rest, rfl⟩ := h
      obtain ⟨hspace, hline⟩ := hv c (by simp)
      rcases hx c _ rfl with hc | hc
      · rw [hspace] at hc
        cases hc
      · exact absurd hc hline

theorem isNameChar_solid {c : Char} (h : isNameChar c = true) : isSpace c = false ∧ c ≠ '\n' := by
  constructor
  · rw [Bool.eq_false_iff]
    intro hc
    rcases (isSpace_iff c).1 hc with rfl | rfl | rfl <;> exact absurd h (by decide)
  · rintro rfl
    exact absurd h (by decide)

theorem solid_name : Solid Pattern.name := by
  intro w hw c hc
  obtain ⟨d, ds, rfl, hd, hds⟩ := (mem_name_iff w).1 hw
  rcases List.mem_cons.1 hc with rfl | hc
  · exact isNameChar_solid (isNameChar_of_isLetter hd)
  · exact isNameChar_solid (hds c hc)

theorem solid_number : Solid Pattern.number := by
  have hdigits : ∀ ds, IsDigits ds → ∀ c ∈ ds, isSpace c = false ∧ c ≠ '\n' := by
    intro ds hds c hc
    exact isNameChar_solid (by simp [isNameChar, hds c hc])
  have hmarks : ∀ c ∈ ['-', '+', '.', 'e', 'E'], isSpace c = false ∧ c ≠ '\n' := by
    simp [isSpace]
  intro w hw c hc
  obtain ⟨m, ds, f, e, rfl, hm, ⟨-, hds⟩, hf, he⟩ := (mem_number_iff w).1 hw
  simp only [List.mem_append] at hc
  rcases hc with hc | hc | hc | hc
  · obtain rfl | rfl := hm
    · cases hc
    · exact hmarks c (by simp_all)
  · exact hdigits ds hds c hc
  · obtain rfl | ⟨xs, rfl, -, hxs⟩ := hf
    · cases hc
    · rcases List.mem_cons.1 hc with rfl | hc
      · exact hmarks _ (by simp)
      · exact hdigits xs hxs c hc
  · obtain rfl | ⟨mark, s, xs, rfl, hmark, hs, hxs⟩ := he
    · cases hc
    · rw [List.mem_cons, List.mem_append] at hc
      rcases hc with rfl | hc | hc
      · obtain rfl | rfl := hmark <;> exact hmarks _ (by simp)
      · obtain rfl | rfl | rfl := hs <;> exact hmarks c (by simp_all)
      · exact hdigits xs hxs c hc

theorem LongestMatch.exchange {p : RegularExpression Char} (hp : Solid p) {w y v x : List Char}
    (h : LongestMatch p (w ++ (y ++ v)) w) (hx : Breaks x) :
    LongestMatch p (w ++ (y ++ x)) w := by
  refine ⟨h.1, List.prefix_append _ _, fun u hu hprefix => h.2.2 u hu ?_⟩
  rw [← List.append_assoc] at hprefix ⊢
  exact (isPrefix_of_breaks (hp u hu) hx hprefix).trans (List.prefix_append _ _)

theorem Alone.exchange {c : Char} {y v x : List Char} (h : Alone c (y ++ v)) (hx : Breaks x) :
    Alone c (y ++ x) := by
  -- What starts here in the new text ends in front of `x`, so it started in the old text as well.
  have hback : ∀ w, (∀ d ∈ w, isSpace d = false ∧ d ≠ '\n') → w <+: c :: (y ++ x) →
      w <+: c :: (y ++ v) := by
    intro w hw hprefix
    rw [← List.cons_append] at hprefix ⊢
    exact (isPrefix_of_breaks hw hx hprefix).trans (List.prefix_append _ _)
  exact
    { blank := h.blank
      comment := fun hc => h.comment (hback _ (by simp [isSpace]) hc)
      quote := h.quote
      number := fun w hw hc => h.number w hw (hback w (solid_number w hw) hc)
      name := fun w hw hc => h.name w hw (hback w (solid_name w hw) hc) }

theorem advance_rest_suffix (n : Nat) (c : Cursor) : (advance n c).rest <:+ c.rest :=
  ⟨_, flatMap_slices c n⟩

/-- The lexeme is a string literal that nothing closes. -/
def IsOpen (w : List Char) : Prop :=
  ∃ q body, w = q :: body ∧ IsQuote q ∧ Unclosed q body

/-- The script ends inside a string literal. -/
def EndsInLiteral (source : String) : Prop :=
  ∃ n, IsOpen (lexemeAt source n)

/-- A script without quotes has no string literals. -/
theorem not_endsInLiteral {source : String} (h : ∀ c ∈ source.toList, ¬ IsQuote c) :
    ¬ EndsInLiteral source := by
  rintro ⟨n, q, body, hw, hq, -⟩
  have htext := (takes (cursorAfter source n)).text
  have hsuffix := advance_rest_suffix n (.ofSource source)
  refine h q (hsuffix.subset ?_) hq
  change q ∈ (cursorAfter source n).rest
  rw [htext, show lexemeText (cursorAfter source n) = q :: body from hw]
  simp

/-- What follows a lexeme may be exchanged. -/
theorem IsLexeme.exchange {kind : Kind} {w value y v x : List Char}
    (h : IsLexeme kind w value (y ++ v)) (hkind : kind ≠ .ending) (hopen : v = [] → ¬ IsOpen w)
    (hx : Breaks x) : IsLexeme kind w value (y ++ x) := by
  generalize hrest : y ++ v = rest at h
  cases h with
  | ending => exact absurd rfl hkind
  | number hmatch => exact .number ((hrest ▸ hmatch).exchange solid_number hx)
  | identifier hmatch hw => exact .identifier ((hrest ▸ hmatch).exchange solid_name hx) hw
  | truth hmatch hw => exact .truth ((hrest ▸ hmatch).exchange solid_name hx) hw
  | closed hq hbody => exact .closed hq hbody
  | unclosed hq hbody =>
    have hv : v = [] := (List.append_eq_nil_iff.1 hrest).2
    exact absurd ⟨_, _, rfl, hq, hbody⟩ (hopen hv)
  | single halone => exact .single ((hrest ▸ halone).exchange hx)

/-- A comment in front of a lexeme ends at a line end that belongs to the lexeme. -/
theorem IsLayout.exchange {skipped w rest rest' : List Char} (h : IsLayout skipped (w ++ rest))
    (hw : w ≠ []) : IsLayout skipped (w ++ rest') := by
  obtain ⟨blanks, note, heq, hblanks, hnote⟩ := h
  refine ⟨blanks, note, heq, hblanks, hnote.imp_right ?_⟩
  rintro ⟨hbody, hline⟩
  refine ⟨hbody, .inr ?_⟩
  obtain ⟨c, cs, rfl⟩ := List.exists_cons_of_ne_nil hw
  obtain hnil | ⟨more, hmore⟩ := hline
  · cases hnil
  · obtain ⟨rfl, -⟩ := List.cons.inj hmore
    exact ⟨cs ++ rest', rfl⟩

/-- **A call does not depend on what follows the lexeme.** -/
theorem next_exchange {c : Cursor} {u y v x : List Char} (hc : c.rest = u ++ v)
    (hrest : (next c).2.rest = y ++ v) (hkind : (next c).1.kind ≠ .ending)
    (hopen : v = [] → ¬ IsOpen (lexemeText c)) (hx : Breaks x) :
    next ⟨u ++ x, c.position⟩ = ((next c).1, ⟨y ++ x, (next c).2.position⟩) := by
  have htakes := takes c
  have hlexeme := htakes.lexeme
  have hlayout := htakes.layout
  have htext := htakes.text
  rw [hrest] at hlexeme htext hlayout
  have hu : u = layout c.rest ++ (lexemeText c ++ y) := by
    have hsplit : u ++ v = layout c.rest ++ (lexemeText c ++ y) ++ v := by
      rw [← hc, List.append_assoc, List.append_assoc]
      exact htext
    exact List.append_cancel_right hsplit
  have hnext := next_eq (hlayout.exchange (hlexeme.ne_nil hkind))
    (hlexeme.exchange hkind hopen hx) c.position
  have hhere := next_at c c.position
  rw [show (⟨c.rest, c.position⟩ : Cursor) = c from rfl] at hhere
  rw [String.ofList_toList] at hnext
  rw [hu, List.append_assoc, List.append_assoc, hnext]
  rw [hhere]

theorem scanFrom_of_isLayout {skipped : List Char} (h : IsLayout skipped []) (p : Position) :
    scanFrom ⟨skipped, p⟩ = ([], p.right skipped.length) := by
  have hnext : next ⟨skipped ++ ([] ++ []), p⟩ = _ := next_eq h .ending p
  rw [List.append_nil, List.append_nil] at hnext
  rw [scanFrom_of_ending (by rw [hnext]), hnext]

/-- The calls up to the first final token leave layout alone. -/
theorem exists_stop (c : Cursor) : ∃ stop, IsLayout (advance stop c).rest [] ∧
    (upcoming stop c).kind = .ending ∧ ∀ k < stop, (upcoming k c).kind ≠ .ending := by
  obtain ⟨stop, hstop, hbefore, -⟩ := run_eq c.rest.length c (Nat.le_refl _)
  refine ⟨stop, ?_, hstop, hbefore⟩
  obtain ⟨hw, -, hrest⟩ := (takes (advance stop c)).lexeme.eq_nil hstop
  have htext := (takes (advance stop c)).text
  have hlayout := (takes (advance stop c)).layout
  rw [hw, hrest, List.append_nil] at htext hlayout
  rw [List.append_nil] at htext
  rwa [← htext] at hlayout

/-- **The tokens in front of a place do not depend on what follows it.**  After `n` calls, `y` is
left of the text in front of the place. -/
theorem scanFrom_exchange {c : Cursor} {n : Nat} {u y v x : List Char} (hc : c.rest = u ++ v)
    (hrest : (advance n c).rest = y ++ v) (hkind : ∀ k < n, (upcoming k c).kind ≠ .ending)
    (hopen : v = [] → ∀ k, ¬ IsOpen (lexemeText (advance k c))) (hx : Breaks x) :
    ∃ ts, scanFrom c = (ts ++ (scanFrom (advance n c)).1, (scanFrom (advance n c)).2) ∧
      scanFrom ⟨u ++ x, c.position⟩ =
        (ts ++ (scanFrom ⟨y ++ x, (advance n c).position⟩).1,
          (scanFrom ⟨y ++ x, (advance n c).position⟩).2) := by
  induction n generalizing c u with
  | zero =>
    obtain rfl : u = y := List.append_cancel_right (hc.symm.trans hrest)
    exact ⟨[], rfl, rfl⟩
  | succ n ih =>
    have hfirst : (next c).1.kind ≠ .ending := hkind 0 (Nat.succ_pos n)
    -- The calls after the first leave the exchanged text alone, so the first does.
    obtain ⟨z, hz⟩ : ∃ z, (next c).2.rest = z ++ v := by
      obtain ⟨z, hz⟩ := advance_rest_suffix n (next c).2
      refine ⟨z ++ y, hz.symm.trans ?_⟩
      rw [List.append_assoc, ← hrest]
      rfl
    obtain ⟨ts, hhere, hthere⟩ := ih hz hrest (fun k hk => hkind (k + 1) (Nat.succ_lt_succ hk))
      (fun hv k => hopen hv (k + 1))
    have hnext := next_exchange hc hz hfirst (fun hv => hopen hv 0) hx
    refine ⟨known (next c).1 ++ ts, ?_, ?_⟩
    · rw [scanFrom_of_ne_ending hfirst, hhere, List.append_assoc]
      rfl
    · rw [scanFrom_of_ne_ending (by rw [hnext]; exact hfirst), hnext, hthere, List.append_assoc]
      rfl

end Token

end GeoLint
