import Mathlib.Tactic.Tauto
import PeerWatch.Proofs.Text.Matching

/-!
# Substitution in a text made of blocks

When a text is made of blocks, a substitution that passes over whole blocks and puts blocks in the
place of those it takes leads to a text made of blocks again. Which blocks the result is made of is
told together with what is good about them, so that one substitution can be followed after the
other.
-/

namespace PeerWatch.Text

namespace Substitution

/-! ## The matches that are replaced -/

/-- What the parts consumed, for each match that starts at a place or behind it. -/
def hitsFrom (sub : Substitution) : Nat → Cursor → List (List (List Char))
  | 0, _ => []
  | n + 1, c =>
    match matchParts? sub.parts c with
    | some (ws, next) => ws :: sub.hitsFrom n next
    | none =>
      match c.ahead with
      | [] => []
      | x :: xs => sub.hitsFrom n ⟨some x, xs⟩

/-- What the parts consumed, for each match that is replaced in a text. -/
def hits (sub : Substitution) (cs : List Char) : List (List (List Char)) :=
  sub.hitsFrom (cs.length + 1) ⟨none, cs⟩

/-- No match starts within the text, whatever follows it. -/
def Inert (sub : Substitution) : Option Char → List Char → Prop
  | _, [] => True
  | before, x :: xs =>
    (∀ rest, matchParts? sub.parts ⟨before, x :: (xs ++ rest)⟩ = none) ∧ sub.Inert (some x) xs

variable {sub : Substitution}

theorem applyFrom_inert {c : Cursor} {text rest : List Char} (h : sub.Inert c.before text)
    (hahead : c.ahead = text ++ rest) {n : Nat} (hn : text.length ≤ n) :
    sub.applyFrom n c = text ++ sub.applyFrom (n - text.length) (c.skip text) := by
  induction text generalizing c n with
  | nil => rfl
  | cons x xs ih =>
      obtain ⟨before, ahead⟩ := c
      obtain rfl : ahead = x :: (xs ++ rest) := hahead
      obtain ⟨n, rfl⟩ : ∃ m, n = m + 1 := ⟨n - 1, by rw [List.length_cons] at hn; omega⟩
      have hskip := Cursor.skip_append ⟨before, x :: (xs ++ rest)⟩ [x] xs
      rw [List.singleton_append] at hskip
      rw [applyFrom, h.1 rest, List.length_cons, Nat.add_sub_add_right, ← hskip]
      exact congrArg (x :: ·) (ih h.2 rfl (Nat.le_of_succ_le_succ hn))

theorem hitsFrom_inert {c : Cursor} {text rest : List Char} (h : sub.Inert c.before text)
    (hahead : c.ahead = text ++ rest) {n : Nat} (hn : text.length ≤ n) :
    sub.hitsFrom n c = sub.hitsFrom (n - text.length) (c.skip text) := by
  induction text generalizing c n with
  | nil => rfl
  | cons x xs ih =>
      obtain ⟨before, ahead⟩ := c
      obtain rfl : ahead = x :: (xs ++ rest) := hahead
      obtain ⟨n, rfl⟩ : ∃ m, n = m + 1 := ⟨n - 1, by rw [List.length_cons] at hn; omega⟩
      have hskip := Cursor.skip_append ⟨before, x :: (xs ++ rest)⟩ [x] xs
      rw [List.singleton_append] at hskip
      rw [hitsFrom, h.1 rest, List.length_cons, Nat.add_sub_add_right, ← hskip]
      exact ih h.2 rfl (Nat.le_of_succ_le_succ hn)

theorem exists_match_of_mem_hitsFrom {n : Nat} {c : Cursor} {ws : List (List Char)}
    (h : ws ∈ sub.hitsFrom n c) : ∃ c last, matchParts? sub.parts c = some (ws, last) := by
  induction n generalizing c with
  | zero => exact absurd h List.not_mem_nil
  | succ n ih =>
      rw [hitsFrom] at h
      split at h
      · next found next hmatch =>
          rcases List.mem_cons.1 h with rfl | h
          · exact ⟨c, next, hmatch⟩
          · exact ih h
      · split at h
        · exact absurd h List.not_mem_nil
        · exact ih h

end Substitution

/-! ## Texts made of blocks -/

section Blocks

variable {β : Type} (text : β → List Char)

/-- A text made of blocks of a kind, which are all good exactly under a condition. -/
def Consists (Kind Good : β → Prop) (cs : List Char) (condition : Prop) : Prop :=
  ∃ blocks : List β, cs = blocks.flatMap text ∧ (∀ b ∈ blocks, Kind b) ∧
    ((∀ b ∈ blocks, Good b) ↔ condition)

variable {text} {Kind Good : β → Prop}

theorem Consists.append {cs ds : List Char} {p q : Prop} (hcs : Consists text Kind Good cs p)
    (hds : Consists text Kind Good ds q) : Consists text Kind Good (cs ++ ds) (p ∧ q) := by
  obtain ⟨bs, rfl, hbs, hp⟩ := hcs
  obtain ⟨es, rfl, hes, hq⟩ := hds
  refine ⟨bs ++ es, List.flatMap_append.symm, List.forall_mem_append.2 ⟨hbs, hes⟩, ?_⟩
  rw [List.forall_mem_append, hp, hq]

theorem Consists.nil : Consists text Kind Good [] True :=
  ⟨[], rfl, fun _ hb => absurd hb List.not_mem_nil, by simp⟩

theorem Consists.single {b : β} (h : Kind b) : Consists text Kind Good (text b) (Good b) :=
  ⟨[b], (List.flatMap_singleton text b).symm, List.forall_mem_singleton.2 h,
    List.forall_mem_singleton⟩

theorem Consists.mono {Wider : β → Prop} {cs : List Char} {p : Prop}
    (h : Consists text Kind Good cs p) (hwider : ∀ b, Kind b → Wider b) :
    Consists text Wider Good cs p := by
  obtain ⟨bs, hcs, hbs, hp⟩ := h
  exact ⟨bs, hcs, fun b hb => hwider b (hbs b hb), hp⟩

theorem Consists.congr {cs : List Char} {p q : Prop} (h : Consists text Kind Good cs p)
    (hpq : p ↔ q) : Consists text Kind Good cs q := by
  obtain ⟨bs, hcs, hbs, hp⟩ := h
  exact ⟨bs, hcs, hbs, hp.trans hpq⟩

/-- How a match meets the blocks of a text: what it takes and what it leaves of the last block it
takes is a number of blocks, and what is put in place with what is left consists of blocks again. -/
structure Exchange (sub : Substitution) (text : β → List Char) (New Good : β → Prop)
    (fine : Prop) (ws : List (List Char)) (last : Cursor) (taken : List β) (left : List Char) :
    Prop where
  consumes : ws.flatten ≠ []
  taken_eq : taken.flatMap text = ws.flatten ++ left
  inert : sub.Inert last.before left
  made : Consists text New Good (sub.fill ws ++ left) ((∀ b ∈ taken, Good b) ∧ fine)

/-- A substitution that goes through texts of old blocks block by block. The new blocks are good
where the old ones are, apart from the matches that are not fine. -/
structure Respects (sub : Substitution) (text : β → List Char) (Old New Good : β → Prop)
    (Fine : List (List Char) → Prop) : Prop where
  keeps : ∀ b, Old b → New b
  passes : ∀ b, Old b → (∃ x, text b = [x]) ∨ text b ≠ [] ∧ ∀ before, sub.Inert before (text b)
  replaces : ∀ {blocks : List β} {c last : Cursor} {ws : List (List Char)},
    (∀ b ∈ blocks, Old b) → c.ahead = blocks.flatMap text →
    matchParts? sub.parts c = some (ws, last) →
    ∃ taken rest left, blocks = taken ++ rest ∧
      Exchange sub text New Good (Fine ws) ws last taken left

variable {sub : Substitution} {Old New : β → Prop} {Fine : List (List Char) → Prop}

theorem Respects.applyFrom (h : Respects sub text Old New Good Fine) {n : Nat} {c : Cursor}
    {blocks : List β} (hold : ∀ b ∈ blocks, Old b) (hahead : c.ahead = blocks.flatMap text)
    (hn : c.ahead.length < n) :
    Consists text New Good (sub.applyFrom n c)
      ((∀ b ∈ blocks, Good b) ∧ ∀ ws ∈ sub.hitsFrom n c, Fine ws) := by
  induction hsize : c.ahead.length using Nat.strongRecOn generalizing n c blocks with
  | ind size ih =>
  obtain _ | n := n
  · exact absurd hn (Nat.not_lt_zero _)
  cases hmatch : matchParts? sub.parts c with
  | some found =>
      obtain ⟨ws, last⟩ := found
      obtain ⟨taken, rest, left, rfl, hex⟩ := h.replaces hold hahead hmatch
      obtain ⟨htaken, hrest⟩ := List.forall_mem_append.1 hold
      have hsplit : c.ahead = ws.flatten ++ (left ++ rest.flatMap text) := by
        rw [hahead, List.flatMap_append, hex.taken_eq, List.append_assoc]
      have hlast : last.ahead = left ++ rest.flatMap text := by
        rw [(matchParts?_sound hmatch).2.2, Cursor.ahead_skip hsplit]
      have hcount : c.ahead.length =
          ws.flatten.length + (left.length + (rest.flatMap text).length) := by
        rw [hsplit, List.length_append, List.length_append]
      have hpos : 0 < ws.flatten.length := List.length_pos_iff.2 hex.consumes
      have hleft : left.length ≤ n := by omega
      have hnext := Cursor.ahead_skip hlast
      have hgo := ih (rest.flatMap text).length (by omega) hrest hnext
        (n := n - left.length) (by rw [hnext]; omega) (by rw [hnext])
      rw [Substitution.applyFrom, Substitution.hitsFrom, hmatch]
      dsimp only
      rw [Substitution.applyFrom_inert hex.inert hlast hleft,
        Substitution.hitsFrom_inert hex.inert hlast hleft, ← List.append_assoc]
      refine (hex.made.append hgo).congr ?_
      rw [List.forall_mem_append, List.forall_mem_cons]
      tauto
  | none =>
      cases blocks with
      | nil =>
          have hempty : c.ahead = [] := hahead
          rw [Substitution.applyFrom, Substitution.hitsFrom, hmatch, hempty]
          exact Consists.nil.congr (by simp)
      | cons b bs =>
          obtain ⟨hb, hbs⟩ := List.forall_mem_cons.1 hold
          have hkept : Consists text New Good (text b) (Good b) := .single (h.keeps b hb)
          have hfirst : c.ahead = text b ++ bs.flatMap text := hahead
          have hcount : c.ahead.length = (text b).length + (bs.flatMap text).length := by
            rw [hfirst, List.length_append]
          rcases h.passes b hb with ⟨x, hx⟩ | ⟨hne, hinert⟩
          · rw [hx, List.length_singleton] at hcount
            have hless : (bs.flatMap text).length < n := by omega
            have hgo := ih (bs.flatMap text).length (by omega) hbs
              (c := ⟨some x, bs.flatMap text⟩) rfl hless rfl
            rw [Substitution.applyFrom, Substitution.hitsFrom, hmatch, hfirst, hx]
            dsimp only [List.singleton_append]
            refine ((hx ▸ hkept).append hgo).congr ?_
            rw [List.forall_mem_cons, and_assoc]
          · have hpos : 0 < (text b).length := List.length_pos_iff.2 hne
            have hlen : (text b).length ≤ n + 1 := by omega
            have hnext := Cursor.ahead_skip hfirst
            have hgo := ih (bs.flatMap text).length (by omega) hbs hnext
              (n := n + 1 - (text b).length) (by rw [hnext]; omega) (by rw [hnext])
            rw [Substitution.applyFrom_inert (hinert c.before) hfirst hlen,
              Substitution.hitsFrom_inert (hinert c.before) hfirst hlen]
            refine (hkept.append hgo).congr ?_
            rw [List.forall_mem_cons, and_assoc]

/-- A text of old blocks becomes a text of new ones, which are all good exactly if the old ones are
and every match is fine. -/
theorem Respects.apply (h : Respects sub text Old New Good Fine) {cs : List Char} {p : Prop}
    (hcs : Consists text Old Good cs p) :
    Consists text New Good (sub.apply cs) (p ∧ ∀ ws ∈ sub.hits cs, Fine ws) := by
  obtain ⟨blocks, hahead, hold, hp⟩ := hcs
  exact (h.applyFrom hold (c := ⟨none, cs⟩) hahead (Nat.lt_succ_self _)).congr (by rw [hp]; rfl)

end Blocks
end PeerWatch.Text
