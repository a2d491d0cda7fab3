import Mathlib.Data.List.Infix
import PeerWatch.Proofs.Text.Pieces
import PeerWatch.Uri.Path

/-!
# Directories of a path

How the base of a path lies in the path. A base of more directories only grows, and there is an end
to its growth: the path with one slash more. Where the path ends in a slash, that is one directory
more than the path has.
-/

namespace PeerWatch.Uri

open PeerWatch.Text (cut length_cut flatMap_cut)

def EndsInSlash (s : String) : Prop := s.toList.getLast? = some '/'

instance (s : String) : Decidable (EndsInSlash s) := inferInstanceAs (Decidable (_ = _))

/-- A base that is made of a path alone: it ends in a slash, and is a part of the path from the
start, or of the path closed by a slash if it is not. -/
structure MadeOf (path base : String) : Prop where
  closed : EndsInSlash base
  within_closed : EndsInSlash path → base.toList <+: path.toList
  within_open : ¬ EndsInSlash path → base.toList <+: path.toList ++ ['/']

variable {path : List Char} {n : Nat}

/-- The bound on the number of directories is that of taking from a list. -/
theorem baseChars_eq (path : List Char) (n : Nat) :
    baseChars path n = ((cut '/' path).take (n + 1)).flatMap (· ++ ['/']) := by
  have hlength : (cut '/' path).length = path.count '/' + 1 := length_cut path
  have hbound : min n ((cut '/' path).length - 1) + 1 = min (n + 1) (cut '/' path).length := by
    omega
  show ((cut '/' path).take (min n ((cut '/' path).length - 1) + 1)).flatMap (· ++ ['/']) = _
  rw [hbound, ← List.take_eq_take_min]

theorem count_closed {pieces : List (List Char)} (h : ∀ piece ∈ pieces, '/' ∉ piece) :
    (pieces.flatMap (· ++ ['/'])).count '/' = pieces.length := by
  induction pieces with
  | nil => rfl
  | cons piece pieces ih =>
      rw [List.forall_mem_cons] at h
      rw [List.flatMap_cons, List.count_append, List.count_append, List.count_singleton_self,
        List.count_eq_zero_of_not_mem h.1, ih h.2, List.length_cons]
      omega

/-- A base has one slash for each directory and the one before the first. -/
theorem count_baseChars (path : List Char) (n : Nat) :
    (baseChars path n).count '/' = min n (path.count '/') + 1 := by
  have hpieces : ∀ piece ∈ (cut '/' path).take (n + 1), '/' ∉ piece :=
    fun _ hpiece => Text.not_mem_of_mem_cut (List.mem_of_mem_take hpiece)
  rw [baseChars_eq, count_closed hpieces, List.length_take, length_cut]
  omega

theorem baseChars_growing {m : Nat} (h : m ≤ n) : baseChars path m <+: baseChars path n := by
  rw [baseChars_eq, baseChars_eq]
  apply List.IsPrefix.flatMap
  exact List.take_prefix_take_left (Nat.succ_le_succ h)

theorem exists_closed {pieces : List (List Char)} (h : pieces ≠ []) :
    ∃ before, pieces.flatMap (· ++ ['/']) = before ++ ['/'] := by
  refine ⟨pieces.dropLast.flatMap (· ++ ['/']) ++ pieces.getLast h, ?_⟩
  have hsplit := congrArg (List.flatMap (· ++ ['/'])) (List.dropLast_concat_getLast h)
  rw [← hsplit, List.flatMap_append, List.flatMap_singleton, List.append_assoc]

theorem baseChars_closed (path : List Char) (n : Nat) :
    (baseChars path n).getLast? = some '/' := by
  have hpieces : (cut '/' path).take (n + 1) ≠ [] := by
    intro hnil
    have hlength := congrArg List.length hnil
    rw [List.length_take, length_cut] at hlength
    simp at hlength
  obtain ⟨before, hbefore⟩ := exists_closed hpieces
  rw [baseChars_eq, hbefore, List.getLast?_concat]

/-- With as many directories as the path has slashes, the base is the whole path, closed once
more. -/
theorem baseChars_of_le (h : path.count '/' ≤ n) : baseChars path n = path ++ ['/'] := by
  have hall : (cut '/' path).length ≤ n + 1 := by
    rw [length_cut]
    omega
  rw [baseChars_eq, List.take_of_length_le hall, flatMap_cut]

/-- With fewer, it lies within the path. -/
theorem baseChars_of_lt (h : n < path.count '/') : baseChars path n <+: path := by
  have hrest : (cut '/' path).drop (n + 1) ≠ [] := by
    intro hnil
    have hlength := congrArg List.length hnil
    rw [List.length_drop, length_cut, List.length_nil] at hlength
    omega
  obtain ⟨before, hbefore⟩ := exists_closed hrest
  have hsplit := congrArg (List.flatMap (· ++ ['/'])) (List.take_append_drop (n + 1) (cut '/' path))
  rw [List.flatMap_append, ← baseChars_eq, hbefore, flatMap_cut, ← List.append_assoc] at hsplit
  exact ⟨before, List.append_cancel_right hsplit⟩

theorem not_prefix_of_le (h : path.count '/' ≤ n) : ¬ baseChars path n <+: path := by
  intro hwithin
  have hlength := hwithin.length_le
  rw [baseChars_of_le h, List.length_append, List.length_singleton] at hlength
  omega

theorem baseChars_within_closed (path : List Char) (n : Nat) :
    baseChars path n <+: path ++ ['/'] := by
  by_cases h : n < path.count '/'
  · exact (baseChars_of_lt h).trans (List.prefix_append _ _)
  · rw [baseChars_of_le (Nat.le_of_not_lt h)]

/-- The base of a path grows with the number of directories until it is the path closed by a slash.
So it is made of the path alone, except where the path is closed already and the number reaches that
of its slashes. -/
theorem base_path_made_of_path_iff (path : String) (n : Nat) :
    EndsInSlash (basePath path n) ∧
      (∀ m ≤ n, (basePath path m).toList <+: (basePath path n).toList) ∧
      (basePath path n).toList.count '/' = min n (path.toList.count '/') + 1 ∧
      (path.toList.count '/' ≤ n → basePath path n = path ++ "/") ∧
      (MadeOf path (basePath path n) ↔ ¬ (EndsInSlash path ∧ path.toList.count '/' ≤ n)) := by
  have hbase (m : Nat) : (basePath path m).toList = baseChars path.toList m := by
    rw [basePath, String.toList_ofList]
  have hclosed : EndsInSlash (basePath path n) := by
    rw [EndsInSlash, hbase]
    exact baseChars_closed path.toList n
  refine ⟨hclosed, ?_, ?_, ?_, ?_⟩
  · intro m hm
    rw [hbase, hbase]
    exact baseChars_growing hm
  · rw [hbase]
    exact count_baseChars path.toList n
  · intro hle
    apply String.toList_inj.1
    rw [hbase, baseChars_of_le hle, String.toList_append]
    rfl
  constructor
  · rintro hmade ⟨hend, hle⟩
    have hwithin := hmade.within_closed hend
    rw [hbase] at hwithin
    exact not_prefix_of_le hle hwithin
  · intro hnot
    refine ⟨hclosed, ?_, ?_⟩
    · intro hend
      rw [hbase]
      exact baseChars_of_lt (Nat.lt_of_not_le fun hle => hnot ⟨hend, hle⟩)
    · intro _
      rw [hbase]
      exact baseChars_within_closed path.toList n

/-- The empty piece behind the last slash of a closed path counts as one of its directories. -/
theorem base_path_adds_empty_directory :
    basePath "/alice/files/" 10 = "/alice/files//" ∧
      ¬ MadeOf "/alice/files/" (basePath "/alice/files/" 10) := by
  have hbase : basePath "/alice/files/" 10 = "/alice/files//" := by
    decide
  refine ⟨hbase, ?_⟩
  intro hmade
  have hwithin := hmade.within_closed (by decide)
  rw [hbase] at hwithin
  exact absurd hwithin (by decide)

end PeerWatch.Uri
