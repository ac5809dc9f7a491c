import GeoLint.Proofs.Rule.Moved
import GeoLint.Proofs.Syntax.Exchange

/-!
# Joining scripts

Two scripts with a line end between them say what the one says and then what the other says
(`parse_joined`).  Lines are counted on, so all of the second script moves down by the number of the
line where the first one ends; a `Position.down` keeps the column.

The line end separates the scripts for the scanner, unless it falls into a string literal
(`scan_joined`), and for the parser, which looks at no more than it (`Parsing.statements_append`).
The built-in rules look at one statement at a time (`Engine.found_joined`).
-/

namespace GeoLint

/-- The place `d` lines further down. -/
def Position.down (d : Nat) (p : Position) : Position := ⟨p.line + d, p.column⟩

namespace Token

/-! ### The tokens -/

theorem steady_down (d : Nat) : Steady fun p p' => p' = p.down d where
  right n h := by
    rw [h]
    rfl
  nextLine h := by
    rw [h, Position.nextLine, Position.nextLine, Position.down, Position.down, Nat.add_right_comm]

theorem alone_newline (rest : List Char) : Alone '\n' rest where
  blank := by decide
  comment h := absurd (List.cons_prefix_cons.1 h).1 (by decide)
  quote := by
    rintro (h | h) <;> exact absurd h (by decide)
  number w hw h := by
    obtain ⟨c, cs, rfl, hc⟩ := head_of_mem_number hw
    obtain rfl := (List.cons_prefix_cons.1 h).1
    exact absurd hc (by decide)
  name w hw h := by
    obtain ⟨c, cs, rfl, hc, -⟩ := (mem_name_iff w).1 hw
    obtain rfl := (List.cons_prefix_cons.1 h).1
    exact absurd hc (by decide)

/-- Behind the layout at the end of a script, a line end is a token. -/
theorem next_newline {skipped : List Char} (h : IsLayout skipped []) (rest : List Char)
    (p : Position) : next ⟨skipped ++ '\n' :: rest, p⟩ =
      (⟨.newline, "\n", p.right skipped.length⟩,
        ⟨rest, Position.origin.down (p.right skipped.length).line⟩) := by
  have hlayout : IsLayout skipped (['\n'] ++ rest) := by
    obtain ⟨blanks, note, heq, hblanks, hnote⟩ := h
    refine ⟨blanks, note, heq, hblanks, hnote.imp_right ?_⟩
    rintro ⟨hbody, -⟩
    exact ⟨hbody, .inr ⟨_, rfl⟩⟩
  have hline : (p.right skipped.length).across ['\n'] =
      Position.origin.down (p.right skipped.length).line := by
    rw [Position.down, Nat.add_comm]
    rfl
  have hnext := next_eq hlayout (.single (alone_newline rest)) p
  rwa [hline] at hnext

theorem scanFrom_newline {skipped : List Char} (h : IsLayout skipped []) (source : String)
    (p : Position) {q : Position} (hq : q = p.right skipped.length) :
    scanFrom ⟨skipped ++ '\n' :: source.toList, p⟩ =
      (⟨.newline, "\n", q⟩ :: (scan source).1.map (Token.moved (.down q.line)),
        (scan source).2.down q.line) := by
  subst hq
  have hnext := next_newline h source.toList p
  generalize p.right skipped.length = q at hnext ⊢
  have halike := scanFrom_alike (steady_down q.line) (c := .ofSource source) rfl
  have hplace : ∀ p p', p' = Position.down q.line p → id p' = Position.down q.line p :=
    fun _ _ h => h
  have htokens := Token.map_moved_eq hplace halike.1
  rw [show List.map (Token.moved id) _ = _ from List.map_id _, ← scan_eq] at htokens
  rw [scanFrom_of_ne_ending (by simp [hnext]), hnext, ← htokens]
  exact Prod.ext rfl (by rw [scan_eq]; exact halike.2)

/-- **The tokens of two scripts with a line end between them.** -/
theorem scan_joined {s₁ : String} (hopen : ¬ EndsInLiteral s₁) (s₂ : String) :
    scan (s₁ ++ "\n" ++ s₂) =
      ((scan s₁).1 ++ ⟨.newline, "\n", (scan s₁).2⟩ ::
          (scan s₂).1.map (Token.moved (.down (scan s₁).2.line)),
        (scan s₂).2.down (scan s₁).2.line) := by
  obtain ⟨stop, hlayout, -, hbefore⟩ := exists_stop (.ofSource s₁)
  have hbreaks : Breaks ('\n' :: s₂.toList) := by
    intro c rest h
    exact .inr (List.cons.inj h).1.symm
  obtain ⟨ts, hhere, hthere⟩ := scanFrom_exchange (c := .ofSource s₁) (v := [])
    (List.append_nil _).symm (List.append_nil _).symm hbefore (fun _ k hk => hopen ⟨k, hk⟩) hbreaks
  have hsource : (⟨(Cursor.ofSource s₁).rest ++ '\n' :: s₂.toList, (Cursor.ofSource s₁).position⟩
      : Cursor) = .ofSource (s₁ ++ "\n" ++ s₂) := by
    simp [Cursor.ofSource]
  have hend : scanFrom (advance stop (.ofSource s₁)) = _ := scanFrom_of_isLayout hlayout _
  rw [hend, List.append_nil, ← scan_eq] at hhere
  rw [hsource, ← scan_eq, scanFrom_newline hlayout s₂ _ rfl] at hthere
  rw [hthere, hhere]

end Token

/-! ### The tree -/

namespace Parsing

/-- The tree or the error of a script, a line end and other tokens that have been moved. -/
theorem script_append {ts : List Token} {stop : Position} {s : Script}
    (h : script ts stop = .ok s) {t : Token} (ht : t.kind = .newline)
    (place : Position → Position) (us : List Token) (stop' : Position) :
    (∀ s', script us stop' = .ok s' → ∃ s'',
      script (ts ++ t :: us.map (Token.moved place)) (place stop') = .ok s'' ∧
        s''.body = s.body ++ s'.body.map (Statement.moved place)) ∧
    ∀ e, script us stop' = .error e → ∃ e',
      script (ts ++ t :: us.map (Token.moved place)) (place stop') = .error e' ∧
        e'.complaint = e.complaint ∧ e'.position = place e.position := by
  have happend := statements_append (statements_of_script h) ht (us.map (Token.moved place))
  rw [List.length_map, statements_moved] at happend
  rw [script, script, happend]
  cases statements us.length us with
  | ok body =>
    refine ⟨fun s' hs' => ?_, by rintro e ⟨⟩⟩
    rw [← Except.ok.inj hs']
    exact ⟨_, rfl, rfl⟩
  | error stuck =>
    refine ⟨by rintro s' ⟨⟩, fun e he => ?_⟩
    rw [← Except.error.inj he]
    exact ⟨_, rfl, rfl, headPosition_map place stop' stuck.rest⟩

end Parsing

/-! ### The findings -/

theorem Engine.found_joined {r : Rule} {check : Context → Statement → List Finding}
    (h : r.ChecksBy check) (e : Engine) {source source₁ source₂ : String} {a b c : Script}
    {place : Position → Position} (hbody : c.body = a.body ++ b.body.map (Statement.moved place)) :
    e.found source c r check =
      e.found source₁ a r check ++ (e.found source₂ b r check).map (Finding.moved place) := by
  rw [found, found, found]
  cases e.config.severityFor r.id r.severity with
  | none => rfl
  | some severity =>
    have hctx (source' : String) (script : Script) :
        (e.context source' script r severity).Agrees (e.context source c r severity) :=
      ⟨rfl, rfl, rfl⟩
    simp only [hbody, List.flatMap_append, List.flatMap_map, List.map_flatMap]
    congr 1
    · exact List.flatMap_congr fun s _ => check_eq_of_agrees h (hctx source₁ a) s
    · exact List.flatMap_congr fun s _ => h.moved _ (hctx source₂ b) s

open Token Parsing

/-- **Joining scripts with a line end.**

The first script parses and does not end inside a string literal; `d` is the line where it ends.  If
the second one parses as well, so does the joined one: its statements are those of the first and
then those of the second, moved down by `d` lines, and each built-in rule, however it is set,
reports what it reports for the first and then what it reports for the second, moved down.  If the
second one does not parse, the joined one gives the same complaint, moved down. -/
theorem parse_joined {s₁ : String} {a : Script} (h₁ : Script.parse s₁ = .ok a)
    (hopen : ¬ EndsInLiteral s₁) (s₂ : String) {d : Nat} (hd : d = (scan s₁).2.line) :
    (∀ b, Script.parse s₂ = .ok b →
      ∃ c, Script.parse (s₁ ++ "\n" ++ s₂) = .ok c ∧
        c.body = a.body ++ b.body.map (Statement.moved (.down d)) ∧
        ∀ r ∈ RuleTable.builtin.rules, ∀ config catalogue file, ∃ m₁ m₂,
          ((Engine.mk ⟨[r]⟩ config catalogue).lint s₁ file).value = .ok ⟨file, m₁⟩ ∧
          ((Engine.mk ⟨[r]⟩ config catalogue).lint s₂ file).value = .ok ⟨file, m₂⟩ ∧
          ((Engine.mk ⟨[r]⟩ config catalogue).lint (s₁ ++ "\n" ++ s₂) file).value =
            .ok ⟨file, m₁ ++ m₂.map (Finding.moved (.down d))⟩) ∧
    ∀ e, Script.parse s₂ = .error e →
      ∃ e', Script.parse (s₁ ++ "\n" ++ s₂) = .error e' ∧ e'.complaint = e.complaint ∧
        (e.complaint ≠ .tooDeep → e'.position = e.position.down d) := by
  subst hd
  obtain ⟨hok, herror⟩ := script_append (t := ⟨.newline, "\n", (scan s₁).2⟩)
    ((parse_eq s₁).symm.trans h₁) rfl (.down (scan s₁).2.line) (scan s₂).1 (scan s₂).2
  have hjoined := parse_eq (s₁ ++ "\n" ++ s₂)
  rw [scan_joined hopen] at hjoined
  rw [← hjoined] at hok herror
  constructor
  · intro b h₂
    obtain ⟨c, hc, hbody⟩ := hok b h₂
    refine ⟨c, hc, hbody, fun r hr config catalogue file => ?_⟩
    obtain ⟨check, hcheck⟩ := RuleTable.exists_checksBy hr
    refine ⟨_, _, Engine.lint_single hcheck h₁ config catalogue file,
      Engine.lint_single hcheck h₂ config catalogue file, ?_⟩
    rw [Engine.lint_single hcheck hc, Engine.found_joined hcheck _ hbody]
  · intro e h₂
    obtain ⟨e', he', hcomplaint, hposition⟩ := herror e h₂
    exact ⟨e', he', hcomplaint, fun _ => hposition⟩

/-- The first script ends on its second line, so a complaint about line one is about line three. -/
theorem parse_joined_two_lines :
    (∃ a, Script.parse "A(b)\n" = .ok a) ∧
      ∃ e, Script.parse ("A(b)\n" ++ "\n" ++ "C(") = .error e ∧
        e.complaint = .unexpected .ending "" ∧ e.position = ⟨3, 3⟩ := by
  obtain ⟨a, h₁⟩ : ∃ a, Script.parse "A(b)\n" = .ok a := ⟨_, by rfl⟩
  have h₂ : Script.parse "C(" = .error ⟨.unexpected .ending "", ⟨1, 3⟩, 2, 2⟩ := by rfl
  have hopen : ¬ EndsInLiteral "A(b)\n" := not_endsInLiteral (by simp [IsQuote])
  have hd : 2 = (scan "A(b)\n").2.line := by decide
  obtain ⟨e, he, hcomplaint, hposition⟩ := (parse_joined h₁ hopen "C(" hd).2 _ h₂
  exact ⟨⟨a, h₁⟩, e, he, hcomplaint, hposition (by decide)⟩

end GeoLint
