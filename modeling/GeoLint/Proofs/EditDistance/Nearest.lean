import GeoLint.EditDistance
import Mathlib.Data.List.FinRange
import Mathlib.Data.List.Nodup

/-!
# Suggestions are the nearest names

A list of names may hold a name more than once, so that what is suggested are positions of the list.
`Precedes` ranks them: the nearer first, and of two that are equally near the one that stands first.
The main statement, `similar_nearest`: the suggestions are the names at the first three positions of
this ranking, among those within the limit.

The rule sorts by distance alone.  That it ranks positions all the same is the stability of the sort
(`filter_mergeSort_key`), which leaves positions of one distance in their order.
-/

namespace GeoLint

namespace EditDistance

/-! ### Sorting by a key -/

section Stable

variable {n : Nat} (key : Fin n → Nat)

/-- The order in which a sort by a key compares. -/
def keyLE (i j : Fin n) : Bool := key i ≤ key j

theorem keyLE_trans (i j k : Fin n) (hij : keyLE key i j = true) (hjk : keyLE key j k = true) :
    keyLE key i k = true := by
  simp only [keyLE, decide_eq_true_eq] at *
  exact Nat.le_trans hij hjk

theorem keyLE_total (i j : Fin n) : (keyLE key i j || keyLE key j i) = true := by
  simpa [keyLE] using Nat.le_total (key i) (key j)

/-- **A sort is stable**: what has the same key stays in order. -/
theorem filter_mergeSort_key (is : List (Fin n)) (k : Nat) :
    (is.mergeSort (keyLE key)).filter (fun i => key i = k) = is.filter fun i => key i = k := by
  have hsame : (is.filter fun i => key i = k).Pairwise fun i j => keyLE key i j = true := by
    rw [List.pairwise_filter]
    refine List.pairwise_of_forall fun i j hi hj => ?_
    rw [decide_eq_true_eq] at hi hj
    simp [keyLE, hi, hj]
  have hsublist := (List.sublist_mergeSort (keyLE_trans key) (keyLE_total key) hsame
    List.filter_sublist).filter fun i => key i = k
  simp only [List.filter_filter, Bool.and_self] at hsublist
  exact (hsublist.eq_of_length ((List.mergeSort_perm is (keyLE key)).filter _).length_eq.symm).symm

theorem pairwise_mergeSort_key {is : List (Fin n)} (h : is.Pairwise (· < ·)) :
    (is.mergeSort (keyLE key)).Pairwise fun i j => key i < key j ∨ key i = key j ∧ i < j := by
  have hsorted := List.pairwise_mergeSort (keyLE_trans key) (keyLE_total key) is
  rw [List.pairwise_iff_forall_sublist] at hsorted ⊢
  intro i j hij
  have hle : key i ≤ key j := by simpa [keyLE] using hsorted hij
  refine (Nat.lt_or_eq_of_le hle).imp_right fun heq => ⟨heq, ?_⟩
  -- two positions of one key stand as they stood before the sort
  have hpair := hij.filter fun l => key l = key j
  rw [filter_mergeSort_key] at hpair
  exact List.pairwise_iff_forall_sublist.1 (h.filter _) (by simpa [heq] using hpair)

end Stable

/-! ### Positions of names -/

variable (target : String) (names : List String) (limit : Int)

/-- The distance of the name at a position. -/
def distanceAt (i : Fin names.length) : Nat :=
  nameDistance target (names.get i)

/-- The name at position `i` is nearer than the one at position `j`, or it is as near and stands
before it. -/
def Precedes (i j : Fin names.length) : Prop :=
  distanceAt target names i < distanceAt target names j ∨
    distanceAt target names i = distanceAt target names j ∧ i < j

/-- The positions within the limit, in the order of the list. -/
def inRange : List (Fin names.length) :=
  (List.finRange names.length).filter fun i => (distanceAt target names i : Int) ≤ limit

/-- The positions within the limit, the nearest first. -/
def ranking : List (Fin names.length) :=
  (inRange target names limit).mergeSort (keyLE (distanceAt target names))

theorem candidates_eq : candidates target names limit =
    (inRange target names limit).map fun i => (distanceAt target names i, names.get i) := by
  have hnames : names.map (fun n => (nameDistance target n, n)) =
      (List.finRange names.length).map fun i => (distanceAt target names i, names.get i) := by
    conv_lhs => rw [← List.map_get_finRange names, List.map_map]
    rfl
  rw [candidates, hnames, List.filter_map, inRange]
  simp only [Function.comp_def]

theorem similar_eq : similar target names limit =
    ((ranking target names limit).take maxSuggestions).map names.get := by
  have hranked :
      (ranking target names limit).map (fun i => (distanceAt target names i, names.get i)) =
        (candidates target names limit).mergeSort fun a b => a.1 ≤ b.1 := by
    rw [ranking, candidates_eq, List.map_mergeSort]
    intro i _ j _
    rw [keyLE]
  rw [similar, ← hranked, ← List.map_take, List.map_map]
  rfl

theorem mem_ranking {i : Fin names.length} :
    i ∈ ranking target names limit ↔ (distanceAt target names i : Int) ≤ limit := by
  simp [ranking, inRange]

theorem pairwise_ranking : (ranking target names limit).Pairwise (Precedes target names) :=
  pairwise_mergeSort_key _ ((List.pairwise_lt_finRange _).filter _)

/-- **The suggestions are the nearest names.**  They are the names at three positions, or at fewer
if no more are within the limit.  Each is within the limit; the nearer come first, and of two that
are equally near the one that stands first in the list.  Every position within the limit that is
left out comes behind all of them in this order. -/
theorem similar_nearest : ∃ picks : List (Fin names.length),
    similar target names limit = picks.map names.get ∧
    picks.length = min 3 ((List.finRange names.length).countP fun i =>
      (distanceAt target names i : Int) ≤ limit) ∧
    (∀ i ∈ picks, (distanceAt target names i : Int) ≤ limit) ∧
    picks.Pairwise (Precedes target names) ∧
    ∀ i, (distanceAt target names i : Int) ≤ limit → i ∉ picks →
      ∀ j ∈ picks, Precedes target names j i := by
  have hsplit := List.take_append_drop maxSuggestions (ranking target names limit)
  have hpairwise := pairwise_ranking target names limit
  rw [← hsplit, List.pairwise_append] at hpairwise
  refine ⟨_, similar_eq target names limit, ?_, fun i hi => ?_, hpairwise.1, ?_⟩
  · rw [List.length_take, ranking, List.length_mergeSort, inRange, ← List.countP_eq_length_filter]
    rfl
  · exact (mem_ranking target names limit).1 (List.mem_of_mem_take hi)
  · intro i hi hout j hj
    have hrank := (mem_ranking target names limit).2 hi
    rw [← hsplit, List.mem_append] at hrank
    exact hpairwise.2.2 j hj i (hrank.resolve_left hout)

end EditDistance

end GeoLint
