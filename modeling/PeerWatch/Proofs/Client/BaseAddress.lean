import Mathlib.Data.List.DropRight
import PeerWatch.Client.Address

/-!
# Base addresses without slashes at the end

The base address of a node loses the slashes at its end. It stays absolute, unless there is nothing
but slashes after the scheme: then those of the scheme go as well.
-/

namespace PeerWatch.Client

/-- A scheme of the web with at least two slashes, and nothing behind them. -/
def IsBareScheme (url : String) : Prop :=
  ∃ scheme ∈ ["http:", "https:"], ∃ n,
    url.toList = scheme.toList ++ ['/', '/'] ++ List.replicate n '/'

theorem isAbsolute_iff {s : String} :
    isAbsolute s = true ↔
      ∃ scheme ∈ ["http:", "https:"], ∃ rest, s.toList = scheme.toList ++ ['/', '/'] ++ rest := by
  unfold isAbsolute schemes
  simp only [List.any_cons, List.any_nil, Bool.or_false, Bool.or_eq_true,
    List.isPrefixOf_iff_prefix, List.mem_cons, List.not_mem_nil, or_false, exists_eq_or_imp,
    exists_eq_left]
  constructor
  · rintro (⟨rest, h⟩ | ⟨rest, h⟩)
    · exact .inl ⟨rest, h.symm⟩
    · exact .inr ⟨rest, h.symm⟩
  · rintro (⟨rest, h⟩ | ⟨rest, h⟩)
    · exact .inl ⟨rest, h.symm⟩
    · exact .inr ⟨rest, h.symm⟩

/-! ## Without slashes at the end -/

theorem toList_trimSlashes (s : String) :
    (trimSlashes s).toList = s.toList.rdropWhile (· == '/') := String.toList_ofList

theorem rdropWhile_append (p : Char → Bool) (first rest : List Char) :
    (first ++ rest).rdropWhile p =
      if rest.all p then first.rdropWhile p else first ++ rest.rdropWhile p := by
  have hempty : (rest.reverse.dropWhile p).isEmpty = rest.all p := by
    rw [Bool.eq_iff_iff, List.isEmpty_iff, List.dropWhile_eq_nil_iff, List.all_eq_true]
    simp
  unfold List.rdropWhile
  rw [List.reverse_append, List.dropWhile_append, hempty]
  split
  · rfl
  · rw [List.reverse_append, List.reverse_reverse]

/-- What is left of an absolute address: its scheme alone if only slashes follow, and else an
absolute address again. -/
theorem rdropWhile_absolute {scheme : String} (h : scheme ∈ ["http:", "https:"])
    (rest : List Char) :
    (scheme.toList ++ ['/', '/'] ++ rest).rdropWhile (· == '/') =
      if rest.all (· == '/') then scheme.toList
      else scheme.toList ++ ['/', '/'] ++ rest.rdropWhile (· == '/') := by
  have hscheme : (scheme.toList ++ ['/', '/']).rdropWhile (· == '/') = scheme.toList := by
    simp only [List.mem_cons, List.not_mem_nil, or_false] at h
    rcases h with rfl | rfl <;> decide
  rw [rdropWhile_append, hscheme]

theorem isAbsolute_trimSlashes_iff {s : String} :
    isAbsolute (trimSlashes s) = true ↔ isAbsolute s = true ∧ ¬ IsBareScheme s := by
  constructor
  · intro h
    obtain ⟨scheme, hscheme, rest, hrest⟩ := isAbsolute_iff.1 h
    rw [toList_trimSlashes] at hrest
    refine ⟨isAbsolute_iff.2 ⟨scheme, hscheme, ?_⟩, ?_⟩
    · obtain ⟨slashes, hslashes⟩ := List.rdropWhile_prefix (· == '/') (l := s.toList)
      exact ⟨rest ++ slashes, by rw [← hslashes, hrest, List.append_assoc]⟩
    · rintro ⟨other, hother, n, hs⟩
      have hall : (List.replicate n '/').all (· == '/') = true := by simp
      rw [hs, rdropWhile_absolute hother, if_pos hall] at hrest
      -- one of the two schemes would hold two slashes
      have hslash : '/' ∈ other.toList := by simp [hrest]
      simp only [List.mem_cons, List.not_mem_nil, or_false] at hother
      rcases hother with rfl | rfl <;> exact absurd hslash (by decide)
  · rintro ⟨h, hbare⟩
    obtain ⟨scheme, hscheme, rest, hrest⟩ := isAbsolute_iff.1 h
    have hrest' : rest.all (· == '/') = false := by
      rw [← Bool.not_eq_true, List.all_eq_true]
      intro hall
      have hslashes : rest = List.replicate rest.length '/' :=
        List.eq_replicate_of_mem fun c hc => by simpa using hall c hc
      exact hbare ⟨scheme, hscheme, rest.length, by rw [← hslashes, hrest]⟩
    refine isAbsolute_iff.2 ⟨scheme, hscheme, rest.rdropWhile (· == '/'), ?_⟩
    rw [toList_trimSlashes, hrest, rdropWhile_absolute hscheme, hrest',
      if_neg Bool.false_ne_true]

theorem IsBareScheme.isAbsolute {s : String} (h : IsBareScheme s) : isAbsolute s = true := by
  obtain ⟨scheme, hscheme, n, hs⟩ := h
  exact isAbsolute_iff.2 ⟨scheme, hscheme, _, hs⟩

theorem isBareScheme_iff {s : String} :
    IsBareScheme s ↔ isAbsolute s = true ∧ isAbsolute (trimSlashes s) = false := by
  rw [← Bool.not_eq_true, isAbsolute_trimSlashes_iff, not_and, not_not]
  constructor
  · intro h
    exact ⟨h.isAbsolute, fun _ => h⟩
  · rintro ⟨habsolute, h⟩
    exact h habsolute

instance (s : String) : Decidable (IsBareScheme s) := decidable_of_iff' _ isBareScheme_iff

theorem ofConfigured_ne_invalidUrl_iff {configured : String} :
    (∀ url, Base.ofConfigured configured ≠ .error (.invalidUrl url)) ↔
      isAbsolute (trimSlashes configured) = true := by
  unfold Base.ofConfigured
  by_cases h : isAbsolute (trimSlashes configured) = true <;> simp [h]

end PeerWatch.Client
