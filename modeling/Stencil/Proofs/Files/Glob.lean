import Mathlib.Data.List.Basic
import Mathlib.Tactic.Common
import Stencil.Loading.Templates

/-!
# The templates of a directory

The pattern for templates selects the names that end in `.html`, whatever stands before that. What it
selects in a directory comes in the order of the names (`Glob.files_templatePattern`); a name that leads
nowhere is passed over.

* `matchesStar_iff`, `matchesPieces_ending`: a star followed by a word matches the texts that end so;
* `sorted_child`: paths in one directory are ordered by their last names.
-/

namespace Stencil

namespace Glob

/-- A star matches whatever stands before an ending that the rest matches. -/
theorem matchesStar_iff {rest : List Char → Bool} {s : List Char} :
    matchesStar rest s = true ↔ ∃ t, t <:+ s ∧ rest t = true := by
  induction s with
  | nil => simp [matchesStar]
  | cons c s ih =>
    rw [matchesStar, Bool.or_eq_true, ih]
    constructor
    · rintro (h | ⟨t, ht, h⟩)
      · exact ⟨c :: s, List.suffix_refl _, h⟩
      · exact ⟨t, ht.trans (List.suffix_cons c s), h⟩
    · rintro ⟨t, ht, h⟩
      rcases List.suffix_cons_iff.1 ht with rfl | ht
      · exact .inl h
      · exact .inr ⟨t, ht, h⟩

theorem matchesPieces_word {word s : List Char} :
    matchesPieces (word.map .char) s = true ↔ s = word := by
  induction word generalizing s with
  | nil => simp [matchesPieces]
  | cons w word ih =>
    cases s with
    | nil => simp [matchesPieces]
    | cons c s =>
      rw [List.map_cons, matchesPieces, Bool.and_eq_true, ih, GlobPiece.admits, beq_iff_eq,
        List.cons.injEq]
      exact GlobPiece.noConfusion

/-- A star followed by a word matches the texts that end in the word. -/
theorem matchesPieces_ending (word s : List Char) :
    matchesPieces (.star :: word.map .char) s = word.isSuffixOf s := by
  rw [Bool.eq_iff_iff, matchesPieces, matchesStar_iff, List.isSuffixOf_iff_suffix]
  constructor
  · rintro ⟨t, ht, h⟩
    exact matchesPieces_word.1 h ▸ ht
  · exact fun h => ⟨word, h, matchesPieces_word.2 rfl⟩

/-- Paths in one directory are ordered by their last names. -/
theorem sorted_child (p : FilePath) (a b : String) :
    sorted (p.child a) (p.child b) = decide (a ≤ b) := by
  have hlast : ∀ names : List String, names ++ [b] < names ++ [a] ↔ b < a := by
    intro names
    induction names with
    | nil => simp [List.cons_lt_cons_iff]
    | cons name names ih => simp [ih]
  have hlt : (p.child b).names < (p.child a).names ↔ b < a := hlast p.names
  rw [sorted, Bool.eq_iff_iff, Bool.not_eq_true', decide_eq_false_iff_not, decide_eq_true_iff, hlt,
    String.not_lt]

/-- Sorting names and leaving some out can be done in either order. -/
theorem filter_mergeSort (p : String → Bool) (names : List String) :
    (names.filter p).mergeSort (fun a b => decide (a ≤ b)) =
      (names.mergeSort fun a b => decide (a ≤ b)).filter p := by
  have hsorted : ∀ names : List String,
      (names.mergeSort fun a b => decide (a ≤ b)).Pairwise (· ≤ ·) := by
    intro names
    have hpairwise : (names.mergeSort fun a b => decide (a ≤ b)).Pairwise
        fun a b => decide (a ≤ b) = true :=
      List.pairwise_mergeSort
        (fun a b c hab hbc => by simpa using String.le_trans (by simpa using hab) (by simpa using hbc))
        (fun a b => by simpa using String.le_total a b) names
    simpa using hpairwise
  refine List.Perm.eq_of_pairwise (fun a b _ _ => String.le_antisymm) (hsorted _)
    ((hsorted names).filter p) ?_
  exact (List.mergeSort_perm _ _).trans ((List.mergeSort_perm _ _).symm.filter p)

end Glob

namespace Disk

/-- How the names of templates end. -/
def templateEnding : List Char := ['.', 'h', 't', 'm', 'l']

/-- The names of the templates among the entries of a directory, in order. -/
def templateNames (entries : List (String × Entry)) : List String :=
  ((entries.map Prod.fst).filter fun name => templateEnding.isSuffixOf name.toList).mergeSort
    fun a b => decide (a ≤ b)

end Disk

namespace Glob

open Disk

variable {disk : Disk} {path : FilePath}

theorem map_selectNames (entries : List (String × Entry)) :
    (selectNames templatePattern entries).map Prod.fst =
      (entries.map Prod.fst).filter fun name => templateEnding.isSuffixOf name.toList := by
  have hpieces : readPieces templatePattern.length templatePattern.toList =
      .star :: templateEnding.map .char := by decide
  rw [selectNames, hpieces, List.filter_map]
  simp only [matchesPieces_ending]
  rfl

/-- The paths of templates in a directory: its names that end in `.html`, in order, as far as they lead
    anywhere. -/
theorem files_templatePattern {entries : List (String × Entry)}
    (h : disk.find path = .ok (.directory entries)) :
    files disk path templatePattern = .ok (((templateNames entries).map path.child).filter fun q =>
      (disk.find q).toOption.isSome) := by
  have hselect : select disk [templatePattern] path =
      (((entries.map Prod.fst).filter fun name => templateEnding.isSuffixOf name.toList).map
        path.child).filter fun q => (disk.find q).toOption.isSome := by
    have hpattern : isPattern templatePattern = true := by decide
    simp only [select, if_pos hpattern, h, map_selectNames]
    rw [List.flatMap_singleton']
    refine List.filter_congr fun q _ => ?_
    rcases disk.find q with reason | (bytes | entries) <;> rfl
  have hfiles : files disk path templatePattern =
      .ok ((select disk [templatePattern] path).mergeSort sorted) := by
    have hnames : patternNames templatePattern = [templatePattern] := by decide
    have hstart : (FilePath.ofString templatePattern).start = .here := by decide
    rw [files, hnames, hstart]
    rfl
  rw [hfiles, hselect, templateNames]
  generalize (entries.map Prod.fst).filter _ = names
  rw [List.filter_map, ← List.map_mergeSort fun a _ b _ => (sorted_child path a b).symm,
    filter_mergeSort, ← List.filter_map]

end Glob

end Stencil
