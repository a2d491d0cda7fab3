import Mathlib.Data.List.Basic
import PeerWatch.Markup.Linkify
import PeerWatch.Proofs.Text.Rewriting

/-!
# Where addresses begin

Every address and every mark begins at the edge of a line or after a blank, with a word that ends
in a character no attribute name ends in. So no rule finds a match inside the tags that an earlier
rule has put in, as long as the values in those tags hold no blanks.
-/

namespace PeerWatch.Markup

open PeerWatch.Text

/-! ## Characters -/

/-- The character neither separates words nor means anything to a reader of markup. -/
def isSafe (c : Char) : Bool := !isBlank c && c != '"' && c != '<' && c != '>'

theorem isSafe_iff {c : Char} :
    isSafe c ↔ isBlank c = false ∧ c ≠ '"' ∧ c ≠ '<' ∧ c ≠ '>' := by
  simp [isSafe, and_assoc]

theorem isSafe_of_code {c : Char} (h : 34 < c.toNat ∧ c.toNat < 127)
    (hangle : c.toNat ≠ 60 ∧ c.toNat ≠ 62) : isSafe c := by
  refine isSafe_iff.2 ⟨?_, ?_, ?_, ?_⟩
  · simp only [isBlank, Bool.or_eq_false_iff, Bool.and_eq_false_iff, decide_eq_false_iff_not,
      beq_eq_false_iff_ne, ne_eq]
    omega
  · rintro rfl
    exact absurd h.1 (by decide)
  · rintro rfl
    exact hangle.1 rfl
  · rintro rfl
    exact hangle.2 rfl

theorem isSafe_of_contains {cs : List Char} (hcs : cs.all isSafe) {c : Char}
    (h : cs.contains c) : isSafe c :=
  List.all_eq_true.1 hcs c (List.contains_iff_mem.1 h)

-- by `all`, since the instance for all characters there are could be found otherwise
theorem forall_mem_of_all {p : Char → Prop} [DecidablePred p] {cs : List Char}
    (h : cs.all (p ·)) : ∀ c ∈ cs, p c :=
  fun c hc => of_decide_eq_true (List.all_eq_true.1 h c hc)

theorem isLower_iff {c : Char} : c.isLower ↔ 97 ≤ c.toNat ∧ c.toNat ≤ 122 := by
  change (decide (c.val ≥ 'a'.val) && decide (c.val ≤ 'z'.val)) = true ↔ _
  simp [UInt32.le_iff_toNat_le, ← Char.toNat_val]

theorem isDigit_iff {c : Char} : c.isDigit ↔ 48 ≤ c.toNat ∧ c.toNat ≤ 57 := by
  simp [Char.isDigit, UInt32.le_iff_toNat_le, ← Char.toNat_val]

theorem isSafe_of_isLower {c : Char} (h : c.isLower) : isSafe c := by
  have hcode := isLower_iff.1 h
  exact isSafe_of_code (by omega) (by omega)

theorem isSafe_of_isDigit {c : Char} (h : c.isDigit) : isSafe c := by
  have hcode := isDigit_iff.1 h
  exact isSafe_of_code (by omega) (by omega)

theorem toLower_eq_or (c : Char) : c.toLower = c ∨ isSafe c ∧ c.toLower.isLower := by
  by_cases h : c.val ≥ 'A'.val ∧ c.val ≤ 'Z'.val
  · have hcode : 65 ≤ c.toNat ∧ c.toNat ≤ 90 := by
      simpa [UInt32.le_iff_toNat_le, ← Char.toNat_val] using h
    have hlower : c.toLower.toNat = (c.val + ('a'.val - 'A'.val)).toNat :=
      congrArg Char.toNat (dif_pos h)
    have hsum : c.toLower.toNat = c.toNat + 32 := by
      rw [hlower, UInt32.toNat_add]
      change (c.toNat + 32) % 2 ^ 32 = _
      omega
    exact .inr ⟨isSafe_of_code (by omega) (by omega), isLower_iff.2 (by omega)⟩
  · exact .inl (dif_neg h)

theorem foldLetter_eq_or (c : Char) : foldLetter c = c ∨ isSafe c ∧ (foldLetter c).isLower := by
  rw [foldLetter]
  split
  · next h => exact .inr (h ▸ by decide)
  split
  · next h => exact .inr (h ▸ by decide)
  · exact toLower_eq_or c

theorem isSafe_of_isLetter {c : Char} (h : isLetter c) : isSafe c := by
  rcases foldLetter_eq_or c with heq | ⟨hsafe, -⟩
  · exact isSafe_of_isLower (heq ▸ h)
  · exact hsafe

theorem isSafe_of_sameLetter {a c : Char} (ha : isSafe (foldLetter a)) (h : sameLetter a c) :
    isSafe c := by
  have hfold : foldLetter a = foldLetter c := eq_of_beq h
  rcases foldLetter_eq_or c with heq | ⟨hsafe, -⟩
  · rwa [← heq, ← hfold]
  · exact hsafe

theorem isLetter_of_sameLetter {a c : Char} (ha : isLetter a) (h : sameLetter a c) :
    isLetter c := by
  have hfold : foldLetter a = foldLetter c := eq_of_beq h
  rwa [isLetter, ← hfold]

theorem eq_of_sameLetter {a c : Char} (ha : foldLetter a = a ∧ a.isLower = false)
    (h : sameLetter a c) : c = a := by
  have hfold : foldLetter a = foldLetter c := eq_of_beq h
  rcases foldLetter_eq_or c with heq | ⟨-, hlower⟩
  · rw [← heq, ← hfold, ha.1]
  · rw [← hfold, ha.1, ha.2] at hlower
    exact absurd hlower Bool.false_ne_true

theorem isSafe_of_endsAddress {c : Char} (h : endsAddress c) : isSafe c := by
  rw [endsAddress, Bool.or_eq_true, Bool.or_eq_true] at h
  rcases h with (h | h) | h
  · exact isSafe_of_isLetter h
  · exact isSafe_of_isDigit h
  · exact isSafe_of_contains (by decide) h

theorem isSafe_of_inAddress {c : Char} (h : inAddress c) : isSafe c := by
  rw [inAddress, Bool.or_eq_true] at h
  rcases h with h | h
  · exact isSafe_of_endsAddress h
  · exact isSafe_of_contains (by decide) h

theorem isSafe_of_inMailName {c : Char} (h : inMailName c) : isSafe c := by
  simp only [inMailName, Bool.or_eq_true, beq_iff_eq] at h
  rcases h with ((h | h) | rfl) | rfl
  · exact isSafe_of_isLetter h
  · exact isSafe_of_isDigit h
  · decide
  · decide

theorem isSafe_of_isClosing {c : Char} (h : isClosing c) : isSafe c :=
  isSafe_of_contains (by decide) h

/-! ## The words at the beginning of addresses -/

/-- The characters that end the first word of an address, or are a mark. -/
def isOpener (c : Char) : Bool := c.isDigit || ":.@_-*".toList.contains c

/-- The first character that is no letter is there, and it may belong to an address. -/
def opens (cs : List Char) : Bool :=
  match cs.dropWhile isLetter with
  | [] => false
  | c :: _ => isOpener c

/-- The first character that is no letter is there, and it belongs to no address. -/
def isShut (cs : List Char) : Bool :=
  match cs.dropWhile isLetter with
  | [] => false
  | c :: _ => !isOpener c

/-- After every blank comes a word that no address begins with, and there are no line feeds. -/
def isSealed : List Char → Bool
  | [] => true
  | c :: cs => (!isBlank c || (c != '\n' && isShut cs)) && isSealed cs

theorem dropWhile_isLetter_append {cs rest ds : List Char} {c : Char}
    (h : cs.dropWhile isLetter = c :: ds) :
    (cs ++ rest).dropWhile isLetter = c :: (ds ++ rest) := by
  rw [List.dropWhile_append, h]
  rfl

theorem isShut_append {cs : List Char} (h : isShut cs) (rest : List Char) :
    isShut (cs ++ rest) := by
  cases hdrop : cs.dropWhile isLetter with
  | nil => simp [isShut, hdrop] at h
  | cons c ds => simpa [isShut, hdrop, dropWhile_isLetter_append hdrop] using h

theorem not_opens_of_isShut {cs : List Char} (h : isShut cs) : ¬opens cs := by
  cases hdrop : cs.dropWhile isLetter with
  | nil => simp [opens, hdrop]
  | cons c ds => simpa [opens, isShut, hdrop] using h

theorem opens_append {cs : List Char} (hcs : ∀ c ∈ cs, isLetter c ∨ isOpener c) {c : Char}
    (hc : isLetter c = false ∧ isOpener c) (rest : List Char) : opens (cs ++ c :: rest) := by
  induction cs with
  | nil => simp [opens, hc.1, hc.2]
  | cons d ds ih =>
      obtain ⟨hd, hds⟩ := List.forall_mem_cons.1 hcs
      have hrest := ih hds
      cases hletter : isLetter d with
      | true => simpa [opens, hletter] using hrest
      | false =>
          have hopener : isOpener d := hd.resolve_left (by simp [hletter])
          simp [opens, hletter, hopener]

theorem isSealed_append {cs ds : List Char} (hcs : isSealed cs) (hds : isSealed ds) :
    isSealed (cs ++ ds) := by
  induction cs with
  | nil => exact hds
  | cons c cs ih =>
      simp only [isSealed, List.cons_append, Bool.and_eq_true, Bool.or_eq_true] at hcs ⊢
      refine ⟨hcs.1.imp_right fun hword => ⟨hword.1, isShut_append hword.2 ds⟩, ih hcs.2⟩

theorem isSealed_of_append (cs : List Char) {ds : List Char} (h : isSealed (cs ++ ds)) :
    isSealed ds := by
  induction cs with
  | nil => exact h
  | cons c cs ih =>
      rw [List.cons_append, isSealed, Bool.and_eq_true] at h
      exact ih h.2

theorem isSealed_of_no_blank {cs : List Char} (h : ∀ c ∈ cs, isBlank c = false) :
    isSealed cs := by
  induction cs with
  | nil => rfl
  | cons c cs ih =>
      obtain ⟨hc, hcs⟩ := List.forall_mem_cons.1 h
      simp [isSealed, hc, ih hcs]

/-- Every match begins at the edge of a line or with a blank, and then like an address or a mark. -/
def LeadsOpen (sub : Substitution) : Prop :=
  ∀ {c last : Cursor} {ws : List (List Char)}, matchParts? sub.parts c = some (ws, last) →
    (c.before.all (· == '\n') ∧ opens c.ahead) ∨
      ∃ x rest, c.ahead = x :: rest ∧ isBlank x ∧ opens rest

theorem LeadsOpen.inert {sub : Substitution} (h : LeadsOpen sub) {before : Option Char}
    {text : List Char} (hsealed : isSealed text)
    (hstart : before.all (· == '\n') → isShut text) : sub.Inert before text := by
  induction text generalizing before with
  | nil => trivial
  | cons x xs ih =>
      rw [isSealed, Bool.and_eq_true, Bool.or_eq_true] at hsealed
      obtain ⟨hx, hxs⟩ := hsealed
      refine ⟨fun rest => ?_, ih hxs fun hline => ?_⟩
      · cases hmatch : matchParts? sub.parts ⟨before, x :: (xs ++ rest)⟩ with
        | none => rfl
        | some found =>
            obtain ⟨hline, hopens⟩ | ⟨y, ys, hahead, hblank, hopens⟩ := h hmatch
            · exact absurd hopens (not_opens_of_isShut (isShut_append (hstart hline) rest))
            · obtain ⟨rfl, rfl⟩ := List.cons.inj hahead
              have hword : isShut xs := by
                simp only [hblank, Bool.not_true, Bool.false_eq_true, false_or,
                  Bool.and_eq_true] at hx
                exact hx.2
              exact absurd hopens (not_opens_of_isShut (isShut_append hword rest))
      · -- A line feed is a blank, and a sealed text holds none.
        obtain rfl : x = '\n' := by simpa using hline
        rcases hx with hx | hx
        · exact absurd hx (by decide)
        · simp at hx

/-! ## The edges of addresses -/

section Edges

variable {e : Edge} {c : Cursor} {w : List Char}

theorem takes_edge_or_blank (h : (Pattern.either (.edge e) (.one isBlank)).Takes c w) :
    (w = [] ∧ e.holds c) ∨ ∃ x, w = [x] ∧ isBlank x := by
  rcases h with ⟨hedge, rfl⟩ | ⟨x, hx, rfl⟩
  · exact .inl ⟨rfl, hedge⟩
  · exact .inr ⟨x, rfl, hx⟩

theorem blank_of_takes (h : (Pattern.either (.edge e) (.one isBlank)).Takes c w) :
    ∀ x ∈ w, isBlank x := by
  rcases takes_edge_or_blank h with ⟨rfl, -⟩ | ⟨x, rfl, hx⟩
  · exact fun _ hx => absurd hx List.not_mem_nil
  · exact List.forall_mem_singleton.2 hx

end Edges

theorem bracket_not_mem_of_blank {cs : List Char} (h : ∀ x ∈ cs, isBlank x) : '<' ∉ cs :=
  fun hmem => absurd (h '<' hmem) (by decide)

/-- Nothing at the end of a line, or a blank. -/
def IsLineEnd (edge rest : List Char) : Prop :=
  (edge = [] ∧ rest.head?.all (· == '\n')) ∨ ∃ x, edge = [x] ∧ isBlank x

namespace IsLineEnd

variable {edge rest : List Char}

theorem blank (h : IsLineEnd edge rest) : ∀ x ∈ edge, isBlank x := by
  rcases h with ⟨rfl, -⟩ | ⟨x, rfl, hx⟩
  · exact fun _ hx => absurd hx List.not_mem_nil
  · exact List.forall_mem_singleton.2 hx

theorem head_blank (h : IsLineEnd edge rest) : (edge ++ rest).head?.all isBlank := by
  rcases h with ⟨rfl, hline⟩ | ⟨x, rfl, hx⟩
  · cases rest with
    | nil => rfl
    | cons y ys =>
        obtain rfl : y = '\n' := by simpa using hline
        rfl
  · exact hx

theorem eq_space (h : IsLineEnd edge rest) {more : List Char} (heq : edge ++ rest = ' ' :: more) :
    edge = [' '] ∧ rest = more := by
  rcases h with ⟨rfl, hline⟩ | ⟨x, rfl, -⟩
  · obtain rfl : rest = ' ' :: more := heq
    simp at hline
  · obtain ⟨rfl, hrest⟩ := List.cons.inj heq
    exact ⟨rfl, hrest⟩

end IsLineEnd

theorem takes_lineTail {c : Cursor} {w : List Char} (h : lineTail.Takes c w) {rest : List Char}
    (hahead : c.ahead = w ++ rest) :
    ∃ closing edge, w = closing ++ edge ∧ (∀ x ∈ closing, isClosing x) ∧ IsLineEnd edge rest := by
  obtain ⟨closing, edge, hclosing, hedge, rfl⟩ := h
  rw [List.append_assoc] at hahead
  refine ⟨closing, edge, rfl, hclosing, ?_⟩
  rcases takes_edge_or_blank hedge with ⟨rfl, hline⟩ | hblank
  · have hrest : (c.skip closing).ahead = rest := Cursor.ahead_skip hahead
    rw [Edge.holds, hrest] at hline
    exact .inl ⟨rfl, hline⟩
  · exact .inr hblank

/-! ## The addresses -/

theorem within_letters_isSafe {s : String} (h : s.toList.all fun c => isSafe (foldLetter c)) :
    (letters s).Within (isSafe ·) :=
  Pattern.within_word fun c hc _ hx => isSafe_of_sameLetter (List.all_eq_true.1 h c hc) hx

theorem within_letters_isLetter {s : String} (h : s.toList.all isLetter) :
    (letters s).Within (isLetter ·) :=
  Pattern.within_word fun c hc _ hx => isLetter_of_sameLetter (List.all_eq_true.1 h c hc) hx

theorem takes_letters {s : String} {a : Char} {as : List Char} (hs : s.toList = a :: as)
    (ha : foldLetter a = a ∧ a.isLower = false) {c : Cursor} {w : List Char}
    (h : (letters s).Takes c w) : ∃ v, w = a :: v := by
  rw [letters, hs] at h
  obtain ⟨x, v, hx, rfl⟩ := Pattern.takes_word_cons h
  exact ⟨v, by rw [eq_of_sameLetter ha hx]⟩

/-- What the pattern consumes begins like an address. -/
def Opens (p : Pattern) : Prop :=
  ∀ {c : Cursor} {w : List Char}, p.Takes c w → ∀ rest, opens (w ++ rest)

theorem opens_webAddress : Opens webAddress := by
  rintro c w ⟨scheme, v, hscheme, ⟨colon, address, hcolon, -, rfl⟩, rfl⟩ rest
  have hword : "://".toList = [':', '/', '/'] := by decide
  obtain ⟨slashes, rfl⟩ := takes_letters hword (by decide) hcolon
  have hletters : ∀ x ∈ scheme, isLetter x := hscheme.within
    ⟨⟨within_letters_isLetter (by decide), within_letters_isLetter (by decide), trivial⟩,
      within_letters_isLetter (by decide)⟩
  rw [List.append_assoc, List.cons_append, List.cons_append]
  exact opens_append (fun x hx => .inl (hletters x hx)) (by decide) _

theorem within_webAddress : webAddress.Within (isSafe ·) :=
  ⟨⟨⟨within_letters_isSafe (by decide), within_letters_isSafe (by decide), trivial⟩,
    within_letters_isSafe (by decide)⟩, within_letters_isSafe (by decide),
    fun _ => isSafe_of_inAddress, fun _ => isSafe_of_endsAddress⟩

theorem opens_hostAddress : Opens hostAddress := by
  rintro c w ⟨www, v, hwww, -, rfl⟩ rest
  have hword : "www.".toList = ['w', 'w', 'w', '.'] := by decide
  rw [letters, hword] at hwww
  obtain ⟨_, _, ⟨x, hx, rfl⟩, hwww, rfl⟩ := hwww
  obtain ⟨_, _, ⟨y, hy, rfl⟩, ⟨_, _, ⟨z, hz, rfl⟩, ⟨dot, hdot, rfl⟩, rfl⟩, rfl⟩ := hwww
  obtain rfl : dot = '.' := eq_of_sameLetter (by decide) hdot
  have hletters : ∀ a ∈ [x, y, z], isLetter a := by
    simp [isLetter_of_sameLetter (a := 'w') (by decide), hx, hy, hz]
  exact opens_append (fun a ha => .inl (hletters a ha)) (by decide) (v ++ rest)

/-- Of the characters of a host address it is only known that they are no blanks. -/
theorem within_hostAddress : hostAddress.Within (isBlank · = false) := by
  have hwww : (letters "www.").Within (isBlank · = false) :=
    (within_letters_isSafe (by decide)).mono fun _ hx => (isSafe_iff.1 hx).1
  exact ⟨hwww, Pattern.within_some fun x hx => Bool.not_eq_true' _ ▸ hx⟩

theorem opens_mailAddress : Opens mailAddress := by
  rintro c w ⟨name, v, hname, ⟨at_, host, ⟨x, hx, rfl⟩, -, rfl⟩, rfl⟩ rest
  obtain rfl : x = '@' := eq_of_beq hx
  have hchars : ∀ y ∈ name, isLetter y ∨ isOpener y := by
    intro y hy
    have hy := (Pattern.takes_some hname).2 y hy
    simp only [inMailName, Bool.or_eq_true, beq_iff_eq] at hy
    rcases hy with ((hy | hy) | rfl) | rfl
    · exact .inl hy
    · exact .inr (by simp [isOpener, hy])
    · exact .inr (by decide)
    · exact .inr (by decide)
  rw [List.append_assoc, List.cons_append, List.cons_append]
  exact opens_append hchars (by decide) _

theorem within_mailAddress : mailAddress.Within (isSafe ·) := by
  have hdot : (exactly '.').Within (isSafe ·) := fun x hx => eq_of_beq hx ▸ by decide
  have hdomain : (Pattern.all [exactly '.', .one isLetter, .one isLetter,
      .upTo isLetter 4]).Within (isSafe ·) :=
    ⟨hdot, fun _ => isSafe_of_isLetter, fun _ => isSafe_of_isLetter,
      Pattern.within_upTo (fun _ => isSafe_of_isLetter) 4⟩
  have hname : ∀ greed, (Pattern.some inMailName greed).Within (isSafe ·) :=
    fun _ => Pattern.within_some fun _ => isSafe_of_inMailName
  exact ⟨hname _, fun x hx => eq_of_beq hx ▸ by decide, hname _, hdomain, hdomain⟩

theorem leadsOpen_of_parts {sub : Substitution} {address : Pattern}
    (hparts : sub.parts = [lineLead, address, lineTail]) (haddress : Opens address) :
    LeadsOpen sub := by
  intro c last ws hmatch
  rw [hparts] at hmatch
  obtain ⟨⟨rest, hrest⟩, htakes, -⟩ := matchParts?_sound hmatch
  obtain ⟨lead, _, hlead, ⟨middle, _, hmiddle, ⟨tail, _, -, rfl, rfl⟩, rfl⟩, rfl⟩ := htakes
  have hahead : c.ahead = lead ++ (middle ++ (tail ++ rest)) := by
    rw [← hrest]
    simp only [List.flatten_cons, List.flatten_nil, List.append_nil, List.append_assoc]
  have hopens := haddress hmiddle (tail ++ rest)
  rcases takes_edge_or_blank hlead with ⟨rfl, hline⟩ | ⟨x, rfl, hx⟩
  · exact .inl ⟨hline, hahead ▸ hopens⟩
  · exact .inr ⟨x, _, hahead, hx, hopens⟩

/-! ## Marks -/

theorem begins_of_emphasize {mark : Char} {tag : String} {c last : Cursor}
    {ws : List (List Char)} (h : matchParts? (emphasize mark tag).parts c = some (ws, last)) :
    (c.before = none ∧ ∃ rest, c.ahead = mark :: rest) ∨
      ∃ x rest, c.ahead = x :: mark :: rest ∧ isBlank x := by
  obtain ⟨⟨rest, hrest⟩, htakes, -⟩ := matchParts?_sound h
  obtain ⟨lead, _, hlead, ⟨_, _, ⟨x, hx, rfl⟩, ⟨body, _, -, -, rfl⟩, rfl⟩, rfl⟩ := htakes
  obtain rfl : x = mark := eq_of_beq hx
  rcases takes_edge_or_blank hlead with ⟨rfl, hedge⟩ | ⟨y, rfl, hy⟩
  · exact .inl ⟨Option.isNone_iff_eq_none.1 hedge, _, hrest.symm⟩
  · exact .inr ⟨y, _, hrest.symm, hy⟩

theorem leadsOpen_emphasize {mark : Char} (hmark : isLetter mark = false ∧ isOpener mark)
    (tag : String) : LeadsOpen (emphasize mark tag) := by
  intro c last ws hmatch
  have hopens : ∀ rest, opens (mark :: rest) :=
    opens_append (fun _ hx => absurd hx List.not_mem_nil) hmark
  rcases begins_of_emphasize hmatch with ⟨hbefore, rest, hahead⟩ | ⟨x, rest, hahead, hx⟩
  · exact .inl ⟨by rw [hbefore]; rfl, hahead ▸ hopens rest⟩
  · exact .inr ⟨x, _, hahead, hx, hopens rest⟩

theorem inert_of_no_mark {mark : Char} {tag : String} {text : List Char} (hmark : mark ∉ text)
    (hend : ∀ x ∈ text.getLast?, isBlank x = false) (before : Option Char) :
    (emphasize mark tag).Inert before text := by
  induction text generalizing before with
  | nil => trivial
  | cons x xs ih =>
      obtain ⟨hx, hxs⟩ := not_or.1 (fun h => hmark (List.mem_cons.2 h))
      refine ⟨fun rest => ?_, ih hxs (fun y hy => ?_) _⟩
      · cases hmatch : matchParts? (emphasize mark tag).parts ⟨before, x :: (xs ++ rest)⟩ with
        | none => rfl
        | some found =>
            obtain ⟨-, r, hahead⟩ | ⟨y, r, hahead, hy⟩ := begins_of_emphasize hmatch
            · exact absurd (List.cons.inj hahead).1.symm hx
            · obtain ⟨rfl, hnext⟩ := List.cons.inj hahead
              cases xs with
              | nil => exact absurd (hend x rfl ▸ hy) Bool.false_ne_true
              | cons z zs =>
                  have hz : z = mark := (List.cons.inj hnext).1
                  exact absurd (hz ▸ List.mem_cons_self) hxs
      · cases xs with
        | nil => exact absurd hy (by simp)
        | cons z zs => exact hend y (by rwa [List.getLast?_cons_cons])

end PeerWatch.Markup
