import PeerWatch.Proofs.Text.Pieces
import PeerWatch.Session.CookieJar

/-!
# Cookies in a header

A header holds pairs of a certain form only, and what is read of any header has that form. Written to
a header and read back, a jar is the same exactly if all of its pairs have the form.
-/

namespace PeerWatch.Session

open PeerWatch.Text (StartsBare EndsBare)

namespace CookieJar

/-- A pair as a header can hold it. The value may start with blanks and hold equals signs, and both
parts may be empty. -/
structure Sendable (pair : String × String) : Prop where
  name_one_piece : ';' ∉ pair.1.toList
  name_no_equals : '=' ∉ pair.1.toList
  name_start : StartsBare pair.1.toList
  name_end : EndsBare pair.1.toList
  value_one_piece : ';' ∉ pair.2.toList
  value_end : EndsBare pair.2.toList

/-! ## What is read is sendable -/

theorem sendable_pairOf {piece : List Char} (hone : ';' ∉ piece) (hstart : StartsBare piece)
    (hend : EndsBare piece) : Sendable (pairOf piece) := by
  cases hcut : Text.cutOnce '=' piece with
  | none =>
      have hequals : '=' ∉ piece := Text.cutOnce_eq_none_iff.1 hcut
      rw [pairOf, hcut]
      exact ⟨by simpa, by simpa, by simpa, by simpa, by simp, by simp [EndsBare]⟩
  | some parts =>
      obtain ⟨name, value⟩ := parts
      obtain ⟨rfl, hequals⟩ := Text.eq_of_cutOnce hcut
      have hname : ∀ c ∈ Text.trim name, c ∈ name := fun c => Text.mem_of_mem_trim
      have hvalue : EndsBare value := by
        rw [← List.singleton_append, ← List.append_assoc] at hend
        exact hend.of_append
      rw [pairOf, hcut]
      simp only [List.mem_append, List.mem_cons, not_or] at hone
      refine ⟨?_, ?_, ?_, ?_, ?_, ?_⟩ <;> simp only [String.toList_ofList]
      · exact fun h => hone.1 (hname _ h)
      · exact fun h => hequals (hname _ h)
      · exact Text.startsBare_trim name
      · exact Text.endsBare_trim name
      · exact hone.2.2
      · exact hvalue

theorem sendable_parse (header : String) : ∀ pair ∈ (parse header).pairs, Sendable pair := by
  intro pair hpair
  simp only [parse, List.mem_map, List.mem_filter] at hpair
  obtain ⟨_, ⟨⟨piece, hpiece, rfl⟩, -⟩, rfl⟩ := hpair
  have hone : ';' ∉ piece := Text.not_mem_of_mem_cut hpiece
  exact sendable_pairOf (fun h => hone (Text.mem_of_mem_trim h)) (Text.startsBare_trim piece)
    (Text.endsBare_trim piece)

/-! ## What is sendable is read back -/

theorem pairText_ne_nil (pair : String × String) : pairText pair ≠ [] := by
  simp [pairText]

namespace Sendable

variable {pair : String × String}

theorem one_piece (h : Sendable pair) : ';' ∉ pairText pair := by
  simp [pairText, h.name_one_piece, h.value_one_piece]

theorem pairText_start (h : Sendable pair) : StartsBare (pairText pair) := by
  unfold pairText
  cases hname : pair.1.toList with
  | nil => exact Text.startsBare_cons.2 (by decide)
  | cons c name =>
      have hstart := h.name_start
      rw [hname] at hstart
      exact Text.startsBare_cons.2 (Text.startsBare_cons.1 hstart)

theorem pairText_end (h : Sendable pair) : EndsBare (pairText pair) := by
  unfold pairText
  rw [Text.endsBare_append (by simp)]
  cases hvalue : pair.2.toList with
  | nil => simp [EndsBare]; decide
  | cons c value =>
      have hend := h.value_end
      rw [hvalue] at hend
      rw [← List.singleton_append, Text.endsBare_append (by simp)]
      exact hend

theorem trim_pairText (h : Sendable pair) : Text.trim (pairText pair) = pairText pair :=
  Text.trim_of_bare h.pairText_start h.pairText_end

theorem pairOf_pairText (h : Sendable pair) : pairOf (pairText pair) = pair := by
  have hname : Text.trim pair.1.toList = pair.1.toList := Text.trim_of_bare h.name_start h.name_end
  rw [pairOf, pairText, Text.cutOnce_append_cons h.name_no_equals]
  simp only [hname, String.ofList_toList]

end Sendable

/-- The pieces of a written header, but for the blank behind each semicolon. -/
theorem cut_toHeader {first : String × String} {pairs : List (String × String)}
    (h : ∀ pair ∈ first :: pairs, Sendable pair) :
    (Text.cut ';' (toHeader ⟨first :: pairs⟩).toList).map Text.trim =
      (first :: pairs).map pairText := by
  have hone : ∀ piece ∈ pairText first :: pairs.map pairText, ';' ∉ piece := by
    intro piece hpiece
    rw [← List.map_cons, List.mem_map] at hpiece
    obtain ⟨pair, hpair, rfl⟩ := hpiece
    exact (h pair hpair).one_piece
  have hrest : ∀ pair ∈ pairs, Text.trim (' ' :: pairText pair) = pairText pair := by
    intro pair hpair
    rw [Text.trim_cons_of_isBlank (by decide)]
    exact (h pair (List.mem_cons_of_mem _ hpair)).trim_pairText
  rw [toHeader, String.toList_ofList, List.map_cons, Text.cut_join (by decide) hone, List.map_cons,
    (h first List.mem_cons_self).trim_pairText, List.map_map, List.map_map]
  exact congrArg _ (List.map_congr_left hrest)

theorem parse_toHeader {jar : CookieJar} (h : ∀ pair ∈ jar.pairs, Sendable pair) :
    parse jar.toHeader = jar := by
  obtain ⟨pairs⟩ := jar
  cases pairs with
  | nil => rfl
  | cons first pairs =>
      have hkept : ((first :: pairs).map pairText).filter (! ·.isEmpty) =
          (first :: pairs).map pairText := by
        rw [List.filter_eq_self]
        intro piece hpiece
        obtain ⟨pair, -, rfl⟩ := List.mem_map.1 hpiece
        simpa using pairText_ne_nil pair
      have hpairs : ((first :: pairs).map pairText).map pairOf = first :: pairs := by
        have hback : ∀ pair ∈ first :: pairs, (pairOf ∘ pairText) pair = id pair :=
          fun pair hpair => (h pair hpair).pairOf_pairText
        rw [List.map_map, List.map_congr_left hback, List.map_id]
      rw [parse, cut_toHeader h, hkept, hpairs]

/-- Every pair that is read of a header is sendable. A jar survives being written and read exactly
if its pairs are; repeated names and the order of the pairs are kept. So a header that was read once
is written and read without loss from then on. -/
theorem header_keeps_sendable_jars :
    (∀ header, ∀ pair ∈ (parse header).pairs, Sendable pair) ∧
      (∀ jar, parse jar.toHeader = jar ↔ ∀ pair ∈ jar.pairs, Sendable pair) ∧
      ∀ header, parse (parse header).toHeader = parse header := by
  refine ⟨sendable_parse, fun jar => ⟨fun h => ?_, parse_toHeader⟩, fun header => ?_⟩
  · rw [← h]
    exact sendable_parse jar.toHeader
  · exact parse_toHeader (sendable_parse header)

end CookieJar
end PeerWatch.Session
