import GeoLint.EditDistance
import Mathlib.Data.List.Infix
import Mathlib.Data.List.Induction
import Mathlib.Order.Bounds.Basic

/-!
# The distance is the length of the shortest edit script

An `Edit` inserts, deletes or replaces one character of a text, and a script is a list of edits made
one after the other (`Edit.performAll?`).  The main statement, `distance_isLeast_script`: the
distance between two texts is the least length of a script that turns one into the other, and so it
is a metric.

Between the rows of the table and the scripts stands `cost`, which takes two texts apart character
by character.  The rows hold the costs of all prefixes, read from their ends (`nextRow_eq` for one
row, `lastRow_eq` for the last).  No edit lowers a cost by more than one (`cost_le_of_perform?`), so
that no script is shorter than the cost, and `turns_cost` builds a script that is as short.
-/

namespace GeoLint

namespace EditDistance

/-! ### Edits -/

/-- A change of one character.  Places are counted from zero. -/
inductive Edit where
  /-- Put a character in front of place `i`, or at the end. -/
  | insert (i : Nat) (c : Char)
  /-- Take away the character at place `i`. -/
  | delete (i : Nat)
  /-- Put another character at place `i`. -/
  | replace (i : Nat) (c : Char)
deriving DecidableEq, Repr

/-- The text with `w` in place of the `k` characters from place `i` on; none if there are fewer. -/
def splice? (i k : Nat) (w cs : List Char) : Option (List Char) :=
  if i + k ≤ cs.length then some (cs.take i ++ (w ++ cs.drop (i + k))) else none

namespace Edit

/-- The text after an edit; none if the text has no such place. -/
def perform? : Edit → List Char → Option (List Char)
  | insert i c => splice? i 0 [c]
  | delete i => splice? i 1 []
  | replace i c => splice? i 1 [c]

/-- The text after all edits of a script. -/
def performAll? (script : List Edit) (cs : List Char) : Option (List Char) :=
  script.foldlM (fun text e => e.perform? text) cs

end Edit

theorem splice?_append (front gone w back : List Char) :
    splice? front.length gone.length w (front ++ (gone ++ back)) = some (front ++ (w ++ back)) := by
  have hlength : front.length + gone.length ≤ (front ++ (gone ++ back)).length := by
    simp only [List.length_append]
    omega
  rw [splice?, if_pos hlength]
  simp [← List.drop_drop]

theorem exists_of_splice? {i k : Nat} {w cs cs' : List Char} (h : splice? i k w cs = some cs') :
    ∃ front gone back, cs = front ++ (gone ++ back) ∧ front.length = i ∧ gone.length = k ∧
      cs' = front ++ (w ++ back) := by
  rw [splice?] at h
  split at h
  · rename_i hlength
    refine ⟨cs.take i, (cs.drop i).take k, (cs.drop i).drop k, by simp, ?_, ?_, ?_⟩
    · exact List.length_take_of_le (by omega)
    · exact List.length_take_of_le (by rw [List.length_drop]; omega)
    · rw [List.drop_drop]
      exact (Option.some.inj h).symm
  · cases h

/-- What stands behind the text is not touched. -/
theorem splice?_append_right {i k : Nat} {w cs cs' : List Char} (h : splice? i k w cs = some cs')
    (rest : List Char) : splice? i k w (cs ++ rest) = some (cs' ++ rest) := by
  obtain ⟨front, gone, back, rfl, rfl, rfl, rfl⟩ := exists_of_splice? h
  simpa using splice?_append front gone w (back ++ rest)

namespace Edit

theorem perform?_append {e : Edit} {cs cs' : List Char} (h : e.perform? cs = some cs')
    (rest : List Char) : e.perform? (cs ++ rest) = some (cs' ++ rest) := by
  cases e <;> exact splice?_append_right h rest

theorem perform?_insert (c : Char) (front back : List Char) :
    (insert front.length c).perform? (front ++ back) = some (front ++ c :: back) :=
  splice?_append front [] [c] back

theorem perform?_delete (c : Char) (front back : List Char) :
    (delete front.length).perform? (front ++ c :: back) = some (front ++ back) :=
  splice?_append front [c] [] back

theorem perform?_replace (c d : Char) (front back : List Char) :
    (replace front.length d).perform? (front ++ c :: back) = some (front ++ d :: back) :=
  splice?_append front [c] [d] back

/-- Every edit is an insertion, a deletion or a replacement between what stands before and what
stands behind it. -/
theorem cases_of_perform? {e : Edit} {cs cs' : List Char} (h : e.perform? cs = some cs') :
    ∃ front back, (∃ c, cs = front ++ back ∧ cs' = front ++ c :: back) ∨
      (∃ c, cs = front ++ c :: back ∧ cs' = front ++ back) ∨
      ∃ c d, cs = front ++ c :: back ∧ cs' = front ++ d :: back := by
  cases e with
  | insert i c =>
    obtain ⟨front, gone, back, rfl, -, hgone, rfl⟩ := exists_of_splice? h
    obtain rfl := List.length_eq_zero_iff.1 hgone
    exact ⟨front, back, .inl ⟨c, rfl, rfl⟩⟩
  | delete i =>
    obtain ⟨front, gone, back, rfl, -, hgone, rfl⟩ := exists_of_splice? h
    obtain ⟨c, rfl⟩ := List.length_eq_one_iff.1 hgone
    exact ⟨front, back, .inr (.inl ⟨c, rfl, rfl⟩)⟩
  | replace i d =>
    obtain ⟨front, gone, back, rfl, -, hgone, rfl⟩ := exists_of_splice? h
    obtain ⟨c, rfl⟩ := List.length_eq_one_iff.1 hgone
    exact ⟨front, back, .inr (.inr ⟨c, d, rfl, rfl⟩)⟩

theorem performAll?_cons (e : Edit) (script : List Edit) (cs : List Char) :
    performAll? (e :: script) cs = (e.perform? cs).bind (performAll? script) := rfl

theorem performAll?_append (script more : List Edit) (cs : List Char) :
    performAll? (script ++ more) cs = (performAll? script cs).bind (performAll? more) := by
  rw [performAll?, List.foldlM_append]
  rfl

theorem performAll?_append_right {script : List Edit} {cs ds : List Char}
    (h : performAll? script cs = some ds) (rest : List Char) :
    performAll? script (cs ++ rest) = some (ds ++ rest) := by
  induction script generalizing cs with
  | nil =>
    obtain rfl := Option.some.inj h
    rfl
  | cons e script ih =>
    rw [performAll?_cons, Option.bind_eq_some_iff] at h
    obtain ⟨cs', hcs', hds⟩ := h
    rw [performAll?_cons, perform?_append hcs' rest]
    exact ih hds

end Edit

/-- Some script of `n` edits turns the one text into the other. -/
def Turns (n : Nat) (cs ds : List Char) : Prop :=
  ∃ script : List Edit, script.length = n ∧ Edit.performAll? script cs = some ds

/-! ### Costs -/

/-- The cost of turning one text into another, both taken apart from the front: the first character
is deleted, or inserted, or kept or replaced. -/
def cost : List Char → List Char → Nat
  | [], ds => ds.length
  | _ :: cs, [] => cs.length + 1
  | c :: cs, d :: ds =>
    min (min (cost cs (d :: ds) + 1) (cost (c :: cs) ds + 1)) (cost cs ds + if c = d then 0 else 1)
termination_by cs ds => cs.length + ds.length

theorem cost_nil_left (ds : List Char) : cost [] ds = ds.length := by
  rw [cost]

theorem cost_nil_right (cs : List Char) : cost cs [] = cs.length := by
  cases cs <;> simp [cost]

theorem cost_cons_cons (c d : Char) (cs ds : List Char) :
    cost (c :: cs) (d :: ds) =
      min (min (cost cs (d :: ds) + 1) (cost (c :: cs) ds + 1))
        (cost cs ds + if c = d then 0 else 1) := by
  rw [cost]

theorem cost_self (cs : List Char) : cost cs cs = 0 := by
  induction cs with
  | nil => rw [cost_nil_left, List.length_nil]
  | cons c cs ih => simp [cost_cons_cons, ih]

theorem cost_comm (cs ds : List Char) : cost cs ds = cost ds cs := by
  fun_induction cost cs ds with
  | case1 ds => rw [cost_nil_right]
  | case2 c cs => rw [cost_nil_left, List.length_cons]
  | case3 c cs d ds ih₁ ih₂ ih₃ =>
    rw [cost_cons_cons d c, ih₁, ih₂, ih₃, min_comm (cost (d :: ds) cs + 1)]
    simp only [eq_comm]

/-- To delete a character costs one. -/
theorem cost_cons_le (c : Char) (cs ds : List Char) : cost (c :: cs) ds ≤ cost cs ds + 1 := by
  cases ds with
  | nil => simp [cost_nil_right]
  | cons d ds =>
    rw [cost_cons_cons]
    omega

/-- To insert a character costs one. -/
theorem cost_cons_right_le (cs : List Char) (d : Char) (ds : List Char) :
    cost cs (d :: ds) ≤ cost cs ds + 1 := by
  rw [cost_comm cs, cost_comm cs]
  exact cost_cons_le d ds cs

/-! ### Rows -/

theorem inits_eq_cons (ds : List Char) : ds.inits = [] :: ds.inits.tail := by
  cases ds <;> rfl

/-- The cells behind the first: `pre` is the prefix, from its end, that they continue. -/
theorem rowTail_eq (c : Char) (cs pre ds : List Char) :
    rowTail c (cost (c :: cs) pre) (cost cs pre) ds
        (ds.inits.tail.map fun p => cost cs (p.reverse ++ pre)) =
      ds.inits.tail.map fun p => cost (c :: cs) (p.reverse ++ pre) := by
  induction ds generalizing pre with
  | nil => rfl
  | cons d ds ih =>
    -- the prefixes of `d :: ds` that are not empty continue the prefix with `d` at its end
    have hprefixes (cs : List Char) :
        ((d :: ds).inits.tail.map fun p => cost cs (p.reverse ++ pre)) =
          cost cs (d :: pre) :: ds.inits.tail.map fun p => cost cs (p.reverse ++ d :: pre) := by
      rw [List.inits_cons, List.tail_cons, List.map_map, inits_eq_cons ds, List.map_cons,
        List.tail_cons]
      simp [Function.comp_def]
    rw [hprefixes, hprefixes, rowTail, ← ih (d :: pre), cost_cons_cons c d]

/-- **One row gives the next**: if a row holds the costs of one text, the row below holds the costs
of the text with one more character. -/
theorem nextRow_eq (c : Char) (cs ds : List Char) :
    nextRow ds (ds.inits.map fun p => cost cs p.reverse) c =
      ds.inits.map fun p => cost (c :: cs) p.reverse := by
  have htail := rowTail_eq c cs [] ds
  simp only [List.append_nil, cost_nil_right, List.length_cons] at htail
  rw [inits_eq_cons ds]
  simp only [List.map_cons, List.reverse_nil, cost_nil_right, List.length_cons, nextRow, htail]

/-- **The last row holds the costs of all prefixes.** -/
theorem lastRow_eq (cs ds : List Char) :
    lastRow cs ds = ds.inits.map fun p => cost cs.reverse p.reverse := by
  induction cs using List.reverseRecOn with
  | nil =>
    simp only [lastRow, List.foldl_nil, List.reverse_nil, cost_nil_left, List.length_reverse]
    refine List.ext_getElem (by simp) fun i hi hi' => ?_
    have hle : i ≤ ds.length := by simpa [Nat.lt_succ_iff] using hi
    simp [hle]
  | append_singleton cs c ih =>
    rw [lastRow, List.foldl_concat, ← lastRow, ih, nextRow_eq, List.reverse_concat]

theorem distance_eq_cost (cs ds : List Char) : distance cs ds = cost cs.reverse ds.reverse := by
  have hlast : ds.inits.getLast? = some ds := by
    rw [List.getLast?_eq_getElem?]
    simp
  rw [distance, lastRow_eq, List.getLastD_eq_getLast?, List.getLast?_map, hlast]
  rfl

/-! ### No script is shorter than the cost -/

/-- A front that both texts share does not widen the gap between their costs. -/
theorem cost_append_le {cs cs' : List Char} (h : ∀ ds, cost cs ds ≤ cost cs' ds + 1)
    (front ds : List Char) : cost (front ++ cs) ds ≤ cost (front ++ cs') ds + 1 := by
  induction front generalizing ds with
  | nil => exact h ds
  | cons c front ih =>
    induction ds with
    | nil =>
      have hfront := ih []
      simp only [cost_nil_right, List.cons_append, List.length_cons] at hfront ⊢
      omega
    | cons d ds ihds =>
      have hdelete := ih (d :: ds)
      have hkeep := ih ds
      simp only [List.cons_append, cost_cons_cons] at ihds ⊢
      omega

theorem cost_le_cost_cons (c : Char) (cs ds : List Char) : cost cs ds ≤ cost (c :: cs) ds + 1 := by
  induction ds with
  | nil =>
    simp only [cost_nil_right, List.length_cons]
    omega
  | cons d ds ih =>
    have hinsert := cost_cons_right_le cs d ds
    rw [cost_cons_cons]
    omega

theorem cost_cons_le_cost_cons (c c' : Char) (cs ds : List Char) :
    cost (c :: cs) ds ≤ cost (c' :: cs) ds + 1 := by
  induction ds with
  | nil => simp [cost_nil_right]
  | cons d ds ih =>
    rw [cost_cons_cons c, cost_cons_cons c']
    split <;> omega

/-- **An edit lowers a cost by one at most.** -/
theorem cost_le_of_perform? {e : Edit} {cs cs' : List Char} (h : e.perform? cs = some cs')
    (ds : List Char) : cost cs.reverse ds ≤ cost cs'.reverse ds + 1 := by
  obtain ⟨front, back, ⟨c, rfl, rfl⟩ | ⟨c, rfl, rfl⟩ | ⟨c, d, rfl, rfl⟩⟩ :=
    Edit.cases_of_perform? h
  all_goals simp only [List.reverse_append, List.reverse_cons, List.append_assoc,
    List.singleton_append]
  · exact cost_append_le (cost_le_cost_cons c front.reverse) back.reverse ds
  · exact cost_append_le (cost_cons_le c front.reverse) back.reverse ds
  · exact cost_append_le (cost_cons_le_cost_cons c d front.reverse) back.reverse ds

theorem cost_le_length {script : List Edit} {cs ds : List Char}
    (h : Edit.performAll? script cs = some ds) : cost cs.reverse ds.reverse ≤ script.length := by
  induction script generalizing cs with
  | nil =>
    obtain rfl := Option.some.inj h
    rw [cost_self]
    exact Nat.zero_le _
  | cons e script ih =>
    rw [Edit.performAll?_cons, Option.bind_eq_some_iff] at h
    obtain ⟨cs', hcs', hds⟩ := h
    calc cost cs.reverse ds.reverse
        ≤ cost cs'.reverse ds.reverse + 1 := cost_le_of_perform? hcs' ds.reverse
      _ ≤ script.length + 1 := Nat.succ_le_succ (ih hds)
      _ = (e :: script).length := List.length_cons.symm

/-! ### A script as short as the cost -/

namespace Turns

variable {n : Nat} {cs ds : List Char}

theorem delete (h : Turns n cs ds) (c : Char) : Turns (n + 1) (cs ++ [c]) ds := by
  obtain ⟨script, hlength, hperform⟩ := h
  have hdelete := Edit.perform?_delete c cs []
  rw [List.append_nil] at hdelete
  refine ⟨.delete cs.length :: script, by rw [List.length_cons, hlength], ?_⟩
  rw [Edit.performAll?_cons, hdelete, Option.bind_some, hperform]

theorem insert (h : Turns n cs ds) (d : Char) : Turns (n + 1) cs (ds ++ [d]) := by
  obtain ⟨script, hlength, hperform⟩ := h
  have hinsert := Edit.perform?_insert d ds []
  rw [List.append_nil] at hinsert
  refine ⟨script ++ [.insert ds.length d], by simp [hlength], ?_⟩
  rw [Edit.performAll?_append, hperform, Option.bind_some, Edit.performAll?_cons, hinsert]
  rfl

theorem keep (h : Turns n cs ds) (c : Char) : Turns n (cs ++ [c]) (ds ++ [c]) := by
  obtain ⟨script, hlength, hperform⟩ := h
  exact ⟨script, hlength, Edit.performAll?_append_right hperform [c]⟩

theorem replace (h : Turns n cs ds) (c d : Char) : Turns (n + 1) (cs ++ [c]) (ds ++ [d]) := by
  obtain ⟨script, hlength, hperform⟩ := h
  have hreplace := Edit.perform?_replace c d cs []
  refine ⟨.replace cs.length d :: script, by rw [List.length_cons, hlength], ?_⟩
  rw [Edit.performAll?_cons, hreplace, Option.bind_some, Edit.performAll?_append_right hperform]

theorem trans {m : Nat} {es : List Char} (h : Turns n cs ds) (h' : Turns m ds es) :
    Turns (n + m) cs es := by
  obtain ⟨script, hlength, hperform⟩ := h
  obtain ⟨script', hlength', hperform'⟩ := h'
  refine ⟨script ++ script', by rw [List.length_append, hlength, hlength'], ?_⟩
  rw [Edit.performAll?_append, hperform, Option.bind_some, hperform']

theorem min {m : Nat} (h : Turns n cs ds) (h' : Turns m cs ds) : Turns (min n m) cs ds := by
  rcases Nat.le_total n m with hle | hle
  · rwa [Nat.min_eq_left hle]
  · rwa [Nat.min_eq_right hle]

end Turns

theorem turns_zero_iff {cs ds : List Char} : Turns 0 cs ds ↔ cs = ds := by
  constructor
  · rintro ⟨script, hlength, hperform⟩
    obtain rfl := List.length_eq_zero_iff.1 hlength
    exact Option.some.inj hperform
  · rintro rfl
    exact ⟨[], rfl, rfl⟩

theorem turns_nil_left (ds : List Char) : Turns ds.length [] ds.reverse := by
  induction ds with
  | nil => exact turns_zero_iff.2 rfl
  | cons d ds ih =>
    rw [List.reverse_cons]
    exact ih.insert d

theorem turns_nil_right (cs : List Char) : Turns cs.length cs.reverse [] := by
  induction cs with
  | nil => exact turns_zero_iff.2 rfl
  | cons c cs ih =>
    rw [List.reverse_cons]
    exact ih.delete c

/-- **A script of as many edits as the cost** turns one text into the other. -/
theorem turns_cost (cs ds : List Char) : Turns (cost cs ds) cs.reverse ds.reverse := by
  fun_induction cost cs ds with
  | case1 ds => exact turns_nil_left ds
  | case2 c cs => exact turns_nil_right (c :: cs)
  | case3 c cs d ds ihdelete ihinsert ihkeep =>
    simp only [List.reverse_cons] at ihdelete ihinsert ⊢
    have hkeep : Turns (cost cs ds + if c = d then 0 else 1) (cs.reverse ++ [c])
        (ds.reverse ++ [d]) := by
      split
      · rename_i heq
        subst heq
        exact ihkeep.keep c
      · exact ihkeep.replace c d
    exact ((ihdelete.delete c).min (ihinsert.insert d)).min hkeep

/-! ### The distance -/

theorem turns_distance (cs ds : List Char) : Turns (distance cs ds) cs ds := by
  have h := turns_cost cs.reverse ds.reverse
  rwa [List.reverse_reverse, List.reverse_reverse, ← distance_eq_cost] at h

theorem distance_le_of_turns {n : Nat} {cs ds : List Char} (h : Turns n cs ds) :
    distance cs ds ≤ n := by
  obtain ⟨script, rfl, hperform⟩ := h
  rw [distance_eq_cost]
  exact cost_le_length hperform

/-- **The distance is the least number of edits.**  Some script of so many insertions, deletions and
replacements turns the one text into the other, and no shorter script does.  So the distance is zero
between equal texts only, it is the same in both directions, and no way around by a third text is
shorter. -/
theorem distance_isLeast_script (cs ds : List Char) :
    IsLeast {n | ∃ script : List Edit, script.length = n ∧ Edit.performAll? script cs = some ds}
        (distance cs ds) ∧
      (distance cs ds = 0 ↔ cs = ds) ∧ distance cs ds = distance ds cs ∧
      ∀ es, distance cs es ≤ distance cs ds + distance ds es := by
  refine ⟨⟨turns_distance cs ds, fun n => distance_le_of_turns⟩, ⟨fun h => ?_, fun h => ?_⟩, ?_,
    fun es => ?_⟩
  · rw [← turns_zero_iff, ← h]
    exact turns_distance cs ds
  · exact Nat.le_zero.1 (distance_le_of_turns (turns_zero_iff.2 h))
  · rw [distance_eq_cost, distance_eq_cost, cost_comm]
  · exact distance_le_of_turns ((turns_distance cs ds).trans (turns_distance ds es))

example : distance "kitten".toList "sitting".toList = 3 ∧
    Edit.performAll? [.replace 0 's', .replace 4 'i', .insert 6 'g'] "kitten".toList =
      some "sitting".toList := by decide

end EditDistance

end GeoLint
