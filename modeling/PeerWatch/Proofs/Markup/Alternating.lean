import PeerWatch.Proofs.Markup.Anchored

/-!
# Items between single blanks

A match takes the blank behind its item with it, and no other match can take that blank once more as
the one in front of the next item. So in a list of items between single blanks every other item is
left as it was typed.
-/

namespace PeerWatch.Markup

open PeerWatch.Text

/-! ## Lists of items -/

/-- The images of the elements under two functions in turn. -/
def alternate {α β : Type} (f g : α → β) : List α → List β
  | [] => []
  | a :: as => f a :: alternate g f as

theorem forall_mem_alternate {α β : Type} {f g : α → β} {P : β → Prop} {as : List α}
    (h : ∀ a ∈ as, P (f a) ∧ P (g a)) : ∀ b ∈ alternate f g as, P b := by
  induction as generalizing f g with
  | nil => exact fun _ hb => absurd hb List.not_mem_nil
  | cons a as ih =>
      obtain ⟨ha, has⟩ := List.forall_mem_cons.1 h
      apply List.forall_mem_cons.2 ⟨ha.1, _⟩
      exact ih fun x hx => (has x hx).symm

theorem map_alternate {α β γ : Type} (k : β → γ) (f g : α → β) (as : List α) :
    (alternate f g as).map k = alternate (k ∘ f) (k ∘ g) as := by
  induction as generalizing f g with
  | nil => rfl
  | cons a as ih => exact congrArg (k (f a) :: ·) (ih g f)

theorem not_mem_spaced {x : Char} (hspace : x ≠ ' ') {ws : List (List Char)}
    (h : ∀ w ∈ ws, x ∉ w) : x ∉ [' '].intercalate ws := by
  induction ws with
  | nil => exact List.not_mem_nil
  | cons w ws ih =>
      obtain ⟨hw, hws⟩ := List.forall_mem_cons.1 h
      cases ws with
      | nil =>
          rw [List.intercalate_singleton]
          exact hw
      | cons v vs =>
          rw [List.intercalate_cons_cons, List.mem_append, List.mem_append, List.mem_singleton]
          simp only [hw, hspace, ih hws, or_self, not_false_eq_true]

/-! ## One item -/

/-- The item stands ahead, between single blanks or the edges of the text. -/
structure Between (c : Cursor) (lead item tail rest : List Char) : Prop where
  ahead : c.ahead = lead ++ (item ++ (tail ++ rest))
  lead : (lead = [] ∧ c.before = none) ∨ lead = [' ']
  tail : (tail = [] ∧ rest = []) ∨ tail = [' ']

/-- The substitution takes an item between blanks with them, and puts another in its place. -/
structure Replaces (sub : Substitution) (item made : List Char) : Prop where
  word : ∀ x ∈ item, isBlank x = false
  hit : ∀ {c : Cursor} {lead tail rest : List Char}, Between c lead item tail rest →
    ∃ ws, matchParts? sub.parts c = some (ws, c.skip (lead ++ (item ++ tail))) ∧
      sub.fill ws = lead ++ (made ++ tail)

namespace Between

variable {c place : Cursor} {lead item tail rest : List Char}

theorem takes_lead (h : Between c lead item tail rest) :
    lineLead.Takes c lead ∧ textLead.Takes c lead := by
  rcases h.lead with ⟨rfl, hbefore⟩ | rfl
  · have hedges : Edge.lineStart.holds c ∧ Edge.textStart.holds c := by
      simp [Edge.holds, hbefore]
    exact ⟨.inl ⟨hedges.1, rfl⟩, .inl ⟨hedges.2, rfl⟩⟩
  · exact ⟨.inr ⟨' ', rfl, rfl⟩, .inr ⟨' ', rfl, rfl⟩⟩

theorem takes_tail (h : Between c lead item tail rest) (hplace : place.ahead = tail ++ rest) :
    (Pattern.either (.edge .lineEnd) (.one isBlank)).Takes place tail ∧
      textTail.Takes place tail := by
  rcases h.tail with ⟨rfl, rfl⟩ | rfl
  · have hedges : Edge.lineEnd.holds place ∧ Edge.textEnd.holds place := by
      simp [Edge.holds, hplace]
    exact ⟨.inl ⟨hedges.1, rfl⟩, .inl ⟨hedges.2, rfl⟩⟩
  · exact ⟨.inr ⟨' ', rfl, rfl⟩, .inr ⟨' ', rfl, rfl⟩⟩

theorem tail_blank (h : Between c lead item tail rest) : (tail ++ rest).head?.all isBlank := by
  rcases h.tail with ⟨rfl, rfl⟩ | rfl
  · rfl
  · rfl

/-- Whatever is taken as blanks in front of a word is the blank in front of the item. -/
theorem lead_eq (h : Between c lead item tail rest) (hne : item ≠ [])
    (hitem : ∀ x ∈ item, isBlank x = false) {blanks word more : List Char}
    (hblanks : ∀ x ∈ blanks, isBlank x) (hword : word ≠ [])
    (hchars : ∀ x ∈ word, isBlank x = false) (hahead : c.ahead = blanks ++ (word ++ more)) :
    blanks = lead ∧ word ++ more = item ++ (tail ++ rest) := by
  have hlead : ∀ x ∈ lead, isBlank x := by
    rcases h.lead with ⟨rfl, -⟩ | rfl
    · exact fun _ hx => absurd hx List.not_mem_nil
    · exact List.forall_mem_singleton.2 rfl
  have hhead : ∀ {w : List Char} (more : List Char), w ≠ [] → (∀ x ∈ w, isBlank x = false) →
      (w ++ more).head?.all (!isBlank ·) := by
    intro w more hne hw
    cases w with
    | nil => exact absurd rfl hne
    | cons x xs => simpa using hw x List.mem_cons_self
  exact eq_of_spans hblanks hlead (hhead more hword hchars) (hhead (tail ++ rest) hne hitem)
    (hahead.symm.trans h.ahead)

theorem tail_eq (h : Between c lead item tail rest) {edge more : List Char}
    (hedge : IsLineEnd edge more) (hsame : edge ++ more = tail ++ rest) : edge = tail := by
  rcases h.tail with ⟨rfl, rfl⟩ | rfl
  · exact (List.append_eq_nil_iff.1 hsame).1
  · exact (hedge.eq_space hsame).1

end Between

/-! ## Addresses -/

namespace Links

variable {sub : Substitution} {kind : LinkKind} {address : Pattern} {c last : Cursor}
  {item lead tail rest : List Char}

theorem isSome_match (h : Links sub kind address) (htakes : ∀ place, address.Takes place item)
    (hc : Between c lead item tail rest) : (matchParts? sub.parts c).isSome := by
  have hplace : (((c.skip lead).skip item).skip []).ahead = tail ++ rest := by
    rw [Cursor.skip_append, Cursor.skip_append, List.append_nil]
    apply Cursor.ahead_skip
    rw [hc.ahead, List.append_assoc]
  have htail : lineTail.Takes ((c.skip lead).skip item) tail :=
    ⟨[], tail, fun _ hx => absurd hx List.not_mem_nil, (hc.takes_tail hplace).1, rfl⟩
  have hparts : TakesParts sub.parts c [lead, item, tail] := by
    rw [h.parts]
    exact ⟨lead, _, hc.takes_lead.1, ⟨item, _, htakes _, ⟨tail, _, htail, rfl, rfl⟩, rfl⟩, rfl⟩
  apply matchParts?_complete hparts
  rw [hc.ahead]
  exact ⟨rest, by simp⟩

/-- No part of an address that ends in a letter is taken for punctuation behind it. -/
theorem match_eq (h : Links sub kind address) {front : List Char} {x : Char}
    (hword : ∀ y ∈ front ++ [x], isBlank y = false) (hx : isClosing x = false)
    (hc : Between c lead (front ++ [x]) tail rest) {ws : List (List Char)}
    (hmatch : matchParts? sub.parts c = some (ws, last)) :
    ws = [lead, front ++ [x], tail] ∧ last = c.skip (lead ++ (front ++ [x] ++ tail)) := by
  obtain ⟨blanks, middle, closing, edge, more, rfl, m⟩ := h.match_cases hmatch
  have hne : front ++ [x] ≠ [] := List.concat_ne_nil x front
  obtain ⟨rfl, hsame⟩ := hc.lead_eq hne hword m.lead_blank m.middle_ne m.middle_word m.ahead
  have hclosed : ∀ y ∈ middle ++ closing, isBlank y = false :=
    List.forall_mem_append.2
      ⟨m.middle_word, fun y hy => (isSafe_iff.1 (isSafe_of_isClosing (m.closing_mark y hy))).1⟩
  rw [← List.append_assoc] at hsame
  obtain ⟨hwhole, hafter⟩ := eq_of_words hclosed hword m.edge_end.head_blank hc.tail_blank hsame
  have hnone : closing = [] := by
    rcases List.eq_nil_or_concat' closing with hnil | ⟨before, y, rfl⟩
    · exact hnil
    · rw [← List.append_assoc] at hwhole
      have hy : y = x := List.singleton_inj.1 (List.append_inj' hwhole rfl).2
      have hclosing := m.closing_mark y (by simp)
      rw [hy, hx] at hclosing
      exact absurd hclosing Bool.false_ne_true
  subst hnone
  rw [List.append_nil] at hwhole
  have hedge := hc.tail_eq m.edge_end hafter
  rw [m.last_eq, hwhole, hedge]
  exact ⟨rfl, rfl⟩

/-- A rule for addresses puts the whole of an address that ends in no punctuation into an anchor. -/
theorem replaces (h : Links sub kind address) {front : List Char} {x : Char}
    (hx : isClosing x = false) (htakes : ∀ place, address.Takes place (front ++ [x])) :
    Replaces sub (front ++ [x]) (Item.link kind (front ++ [x])).text := by
  have hword : ∀ y ∈ front ++ [x], isBlank y = false := (htakes ⟨none, []⟩).within h.within
  refine ⟨hword, ?_⟩
  intro c lead tail rest hc
  obtain ⟨⟨ws, last⟩, hmatch⟩ := Option.isSome_iff_exists.1 (h.isSome_match htakes hc)
  obtain ⟨rfl, rfl⟩ := h.match_eq hword hx hc hmatch
  exact ⟨_, hmatch, h.fill lead _ tail⟩

end Links

/-! ## Marks -/

theorem isLineEnd_of_textTail {c : Cursor} {w rest : List Char} (h : textTail.Takes c w)
    (hahead : c.ahead = w ++ rest) : IsLineEnd w rest := by
  rcases takes_edge_or_blank h with ⟨rfl, hend⟩ | hblank
  · rw [List.nil_append] at hahead
    rw [Edge.holds, hahead, List.isEmpty_iff] at hend
    rw [hend]
    exact .inl ⟨rfl, rfl⟩
  · exact .inr hblank

section Marks

variable {face : Face} {body lead tail rest : List Char} {c last : Cursor}

theorem ahead_behind_marks
    (h : c.ahead = lead ++ (face.mark :: (body ++ [face.mark]) ++ (tail ++ rest))) :
    ((((c.skip lead).skip [face.mark]).skip body).skip [face.mark]).ahead = tail ++ rest := by
  rw [Cursor.skip_append, Cursor.skip_append, Cursor.skip_append]
  apply Cursor.ahead_skip
  rw [h]
  simp

theorem isSome_emphasize (hbody : ∀ x ∈ body, inEmphasis x)
    (hc : Between c lead (face.mark :: (body ++ [face.mark])) tail rest) :
    (matchParts? (emphasize face.mark face.tag).parts c).isSome := by
  have hlead : textLead.Takes c lead := hc.takes_lead.2
  have htail := (hc.takes_tail (ahead_behind_marks hc.ahead)).2
  have hmark : ∀ place, (exactly face.mark).Takes place [face.mark] :=
    fun _ => ⟨face.mark, beq_self_eq_true face.mark, rfl⟩
  have hparts : TakesParts (emphasize face.mark face.tag).parts c
      [lead, [face.mark], body, [face.mark], tail] :=
    ⟨lead, _, hlead, ⟨_, _, hmark _, ⟨body, _, hbody, ⟨_, _, hmark _, ⟨tail, _, htail, rfl, rfl⟩,
      rfl⟩, rfl⟩, rfl⟩, rfl⟩
  apply matchParts?_complete hparts
  rw [hc.ahead]
  exact ⟨rest, by simp⟩

theorem emphasize_match_eq (hbody : ∀ x ∈ body, inEmphasis x)
    (hword : ∀ x ∈ face.mark :: (body ++ [face.mark]), isBlank x = false)
    (hc : Between c lead (face.mark :: (body ++ [face.mark])) tail rest) {ws : List (List Char)}
    (hmatch : matchParts? (emphasize face.mark face.tag).parts c = some (ws, last)) :
    ws = [lead, [face.mark], body, [face.mark], tail] ∧
      last = c.skip (lead ++ (face.mark :: (body ++ [face.mark]) ++ tail)) := by
  obtain ⟨⟨more, hmore⟩, htakes, rfl⟩ := matchParts?_sound hmatch
  obtain ⟨blanks, _, hblanks, ⟨_, _, ⟨x, hx, rfl⟩, hrest, rfl⟩, rfl⟩ := htakes
  obtain ⟨inner, _, hinner, hend, rfl⟩ := hrest
  obtain ⟨_, _, ⟨y, hy, rfl⟩, ⟨edge, _, hedge, rfl, rfl⟩, rfl⟩ := hend
  obtain rfl : x = face.mark := eq_of_beq hx
  obtain rfl : y = face.mark := eq_of_beq hy
  have hahead : c.ahead = blanks ++ ([face.mark] ++ (inner ++ face.mark :: (edge ++ more))) := by
    rw [← hmore]
    simp
  have hmark : ∀ z ∈ [face.mark], isBlank z = false :=
    List.forall_mem_singleton.2 (hword face.mark List.mem_cons_self)
  obtain ⟨rfl, hsame⟩ := hc.lead_eq (List.cons_ne_nil _ _) hword (blank_of_takes hblanks)
    (List.cons_ne_nil _ _) hmark hahead
  have hcut : inner ++ face.mark :: (edge ++ more) = body ++ face.mark :: (tail ++ rest) := by
    simpa using hsame
  have hfree : ∀ cs : List Char, (∀ z ∈ cs, inEmphasis z) → face.mark ∉ cs := by
    intro cs hcs hmem
    have hnot : inEmphasis face.mark = false := by cases face <;> decide
    exact absurd (hcs face.mark hmem) (by simp [hnot])
  obtain ⟨rfl, hafter⟩ := eq_of_append_cons_eq (hfree inner hinner) (hfree body hbody) hcut
  have hplace : ((((c.skip blanks).skip [face.mark]).skip inner).skip [face.mark]).ahead =
      edge ++ more := by
    apply ahead_behind_marks
    simpa using hahead
  obtain rfl := hc.tail_eq (isLineEnd_of_textTail hedge hplace) hafter
  refine ⟨rfl, ?_⟩
  simp

theorem replaces_emphasize (face : Face) {body : List Char}
    (hbody : ∀ x ∈ body, inEmphasis x ∧ isBlank x = false) :
    Replaces (emphasize face.mark face.tag) (face.mark :: (body ++ [face.mark]))
      (Item.emphasis face body).text := by
  have hmark : isBlank face.mark = false := by cases face <;> decide
  have hend : ∀ x ∈ body ++ [face.mark], isBlank x = false :=
    List.forall_mem_append.2 ⟨fun x hx => (hbody x hx).2, List.forall_mem_singleton.2 hmark⟩
  have hword : ∀ x ∈ face.mark :: (body ++ [face.mark]), isBlank x = false :=
    List.forall_mem_cons.2 ⟨hmark, hend⟩
  refine ⟨hword, ?_⟩
  intro c lead tail rest hc
  have hinner : ∀ x ∈ body, inEmphasis x := fun x hx => (hbody x hx).1
  obtain ⟨⟨ws, last⟩, hmatch⟩ := Option.isSome_iff_exists.1 (isSome_emphasize hinner hc)
  obtain ⟨rfl, rfl⟩ := emphasize_match_eq hinner hword hc hmatch
  exact ⟨_, hmatch, fill_emphasize face lead [face.mark] body tail⟩

end Marks

/-! ## The pass over a list of items -/

theorem spaced_cons (w v : List Char) (ws : List (List Char)) :
    [' '].intercalate (w :: v :: ws) = w ++ ' ' :: [' '].intercalate (v :: ws) := by
  rw [List.intercalate_cons_cons, List.append_assoc, List.singleton_append]

theorem spaced_alternate_cons {α : Type} (f g : α → List Char) (a b : α) (as : List α) :
    [' '].intercalate (alternate f g (a :: b :: as)) =
      f a ++ ' ' :: [' '].intercalate (alternate g f (b :: as)) :=
  spaced_cons (f a) (g b) (alternate f g as)

section Pass

variable {sub : Substitution} {item made lead rest : List Char} {c : Cursor}

theorem scan_last (hconsumes : sub.Consumes) (hitem : Replaces sub item made)
    (hc : Between c lead item [] []) : sub.scan c = lead ++ made := by
  obtain ⟨ws, hmatch, hfill⟩ := hitem.hit hc
  have hend : c.skip (lead ++ (item ++ [])) =
      ⟨(lead ++ (item ++ [])).getLast?.or c.before, []⟩ := by
    rw [Cursor.skip, hc.ahead]
    simp
  rw [Substitution.scan_of_match hconsumes hmatch, hfill, hend, Substitution.scan_nil hconsumes]
  simp

/-- The scan goes on behind the blank that the match has taken. -/
theorem scan_next (hconsumes : sub.Consumes) (hitem : Replaces sub item made)
    (hc : Between c lead item [' '] rest) :
    sub.scan c = lead ++ (made ++ ' ' :: sub.scan ⟨some ' ', rest⟩) := by
  obtain ⟨ws, hmatch, hfill⟩ := hitem.hit hc
  have hend : c.skip (lead ++ (item ++ [' '])) = ⟨some ' ', rest⟩ := by
    rw [Cursor.skip, hc.ahead, ← List.append_assoc, List.getLast?_concat]
    simp
  rw [Substitution.scan_of_match hconsumes hmatch, hfill, hend]
  simp

/-- No match begins within a word behind a blank. -/
theorem scan_word (hconsumes : sub.Consumes) (hleads : LeadsOpen sub)
    (hword : ∀ x ∈ item, isBlank x = false) (rest : List Char) :
    sub.scan ⟨some ' ', item ++ rest⟩ =
      item ++ sub.scan (Cursor.skip ⟨some ' ', item ++ rest⟩ item) := by
  have hinert : sub.Inert (some ' ') item :=
    hleads.inert (isSealed_of_no_blank hword) fun hline => absurd hline (by decide)
  exact Substitution.scan_inert hconsumes hinert rfl

/-- A rule reaches the first item of a list where the blank in front of it is still ahead, and then
every other item; otherwise the second item is the first that it reaches. -/
theorem scan_items {α : Type} (hconsumes : sub.Consumes) (hleads : LeadsOpen sub)
    {item made : α → List Char} {words : List α}
    (h : ∀ w ∈ words, Replaces sub (item w) (made w)) :
    (∀ (c : Cursor) (lead : List Char), words ≠ [] →
      ((lead = [] ∧ c.before = none) ∨ lead = [' ']) →
      c.ahead = lead ++ [' '].intercalate (words.map item) →
      sub.scan c = lead ++ [' '].intercalate (alternate made item words)) ∧
    sub.scan ⟨some ' ', [' '].intercalate (words.map item)⟩ =
      [' '].intercalate (alternate item made words) := by
  -- The match of an item leads to the second case for the items behind it, the copy to the first.
  induction words with
  | nil => exact ⟨fun _ _ hne => absurd rfl hne, Substitution.scan_nil hconsumes (some ' ')⟩
  | cons w ws ih =>
      obtain ⟨hw, hws⟩ := List.forall_mem_cons.1 h
      obtain ⟨hreached, hpassed⟩ := ih hws
      constructor
      · intro c lead _ hlead hahead
        cases ws with
        | nil =>
            have hc : Between c lead (item w) [] [] := by
              refine ⟨?_, hlead, .inl ⟨rfl, rfl⟩⟩
              simpa using hahead
            rw [scan_last hconsumes hw hc]
            simp [alternate]
        | cons v vs =>
            have hc : Between c lead (item w) [' '] ([' '].intercalate ((v :: vs).map item)) := by
              refine ⟨?_, hlead, .inr rfl⟩
              rw [hahead, List.map_cons, List.map_cons, spaced_cons]
              rfl
            rw [scan_next hconsumes hw hc, hpassed, spaced_alternate_cons]
      · cases ws with
        | nil =>
            have hlast := scan_word hconsumes hleads hw.word []
            rw [List.append_nil] at hlast
            have hend : Cursor.skip ⟨some ' ', item w⟩ (item w) =
                ⟨(item w).getLast?.or (some ' '), []⟩ := by
              rw [Cursor.skip, List.drop_length]
            rw [hend, Substitution.scan_nil hconsumes, List.append_nil] at hlast
            simpa [alternate] using hlast
        | cons v vs =>
            have hnext := hreached _ [' '] (List.cons_ne_nil v vs) (.inr rfl)
              (Cursor.ahead_skip (c := ⟨some ' ', _⟩) (w := item w) rfl)
            rw [List.map_cons, List.map_cons, spaced_cons, scan_word hconsumes hleads hw.word]
            exact (congrArg (item w ++ ·) hnext).trans
              (spaced_alternate_cons item made w v vs).symm

end Pass

theorem apply_items {α : Type} {sub : Substitution} (hconsumes : sub.Consumes)
    (hleads : LeadsOpen sub) {item made : α → List Char} {words : List α}
    (h : ∀ w ∈ words, Replaces sub (item w) (made w)) :
    sub.apply ([' '].intercalate (words.map item)) =
      [' '].intercalate (alternate made item words) := by
  rw [Substitution.apply_eq_scan]
  cases words with
  | nil => exact Substitution.scan_nil hconsumes none
  | cons w ws =>
      have hscan := (scan_items hconsumes hleads h).1
      exact hscan ⟨none, _⟩ [] (List.cons_ne_nil w ws) (.inl ⟨rfl, rfl⟩) rfl

end PeerWatch.Markup
