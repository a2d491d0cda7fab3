import PeerWatch.Markup.Escape
import PeerWatch.Proofs.Markup.Block

/-!
# Links and emphasis leave a well-formed text

Each rule takes a text of plain characters and elements to such a text again. Two things go wrong
on the way: a video name or a host name may hold a quote, which ends the attribute it is put into,
and a host name goes on up to the next blank, so that it takes the beginning of an element with it
that stands right behind it.
-/

namespace PeerWatch.Markup

open PeerWatch.Text

/-! ## Words -/

theorem eq_of_words {xs ys s t : List Char} (hxs : ∀ c ∈ xs, isBlank c = false)
    (hys : ∀ c ∈ ys, isBlank c = false) (hs : s.head?.all isBlank) (ht : t.head?.all isBlank)
    (h : xs ++ s = ys ++ t) : xs = ys ∧ s = t := by
  refine eq_of_spans (p := (!isBlank ·)) ?_ ?_ ?_ ?_ h
  · simpa using hxs
  · simpa using hys
  · simpa using hs
  · simpa using ht

theorem eq_of_name {kind : LinkKind} {name closing edge rest more : List Char}
    (hname : ∀ x ∈ name, isBlank x = false) (hclosing : ∀ x ∈ closing, isClosing x)
    (hedge : IsLineEnd edge rest)
    (h : name ++ (closing ++ (edge ++ rest)) = kind.name.toList ++ ' ' :: more) :
    name = kind.name.toList ∧ closing = [] ∧ edge = [' '] ∧ rest = more := by
  have hkind : ∀ x ∈ kind.name.toList, isBlank x = false ∧ isClosing x = false :=
    forall_mem_of_all (by cases kind <;> decide)
  have hword : ∀ x ∈ name ++ closing, isBlank x = false :=
    List.forall_mem_append.2
      ⟨hname, fun x hx => (isSafe_iff.1 (isSafe_of_isClosing (hclosing x hx))).1⟩
  rw [← List.append_assoc] at h
  obtain ⟨hsame, hafter⟩ := eq_of_words hword (fun x hx => (hkind x hx).1) hedge.head_blank rfl h
  obtain rfl : closing = [] := by
    refine List.eq_nil_iff_forall_not_mem.2 fun x hx => ?_
    have hnot := (hkind x (hsame ▸ List.mem_append_right name hx)).2
    exact absurd (hclosing x hx) (by simp [hnot])
  rw [List.append_nil] at hsame
  exact ⟨hsame, rfl, hedge.eq_space hafter⟩

/-! ## Addresses between blanks -/

/-- The substitution turns an address of some form into an element of a kind. -/
structure Links (sub : Substitution) (kind : LinkKind) (address : Pattern) : Prop where
  parts : sub.parts = [lineLead, address, lineTail]
  fill : ∀ lead middle tail, sub.fill [lead, middle, tail] =
    lead ++ ((Item.link kind middle).text ++ tail)
  opens : Opens address
  within : address.Within (isBlank · = false)

/-- The address of a match stays within its attribute, as far as quotes and brackets go. -/
def AddressFits (ws : List (List Char)) : Prop := '"' ∉ ws.getD 1 [] ∧ '<' ∉ ws.getD 1 []

/-- What a match of such a substitution consists of: a blank or nothing, the address, punctuation,
and a blank or nothing. -/
structure AddressMatch (c last : Cursor) (lead middle closing edge rest : List Char) : Prop where
  ahead : c.ahead = lead ++ (middle ++ (closing ++ (edge ++ rest)))
  last_eq : last = c.skip (lead ++ (middle ++ (closing ++ edge)))
  lead_blank : ∀ x ∈ lead, isBlank x
  middle_ne : middle ≠ []
  middle_word : ∀ x ∈ middle, isBlank x = false
  closing_mark : ∀ x ∈ closing, isClosing x
  edge_end : IsLineEnd edge rest

namespace Links

variable {sub : Substitution} {kind : LinkKind} {address : Pattern} {c last : Cursor}
  {blocks : List Block} {lead middle closing edge rest : List Char}

theorem match_cases (h : Links sub kind address) {ws : List (List Char)}
    (hmatch : matchParts? sub.parts c = some (ws, last)) :
    ∃ lead middle closing edge rest, ws = [lead, middle, closing ++ edge] ∧
      AddressMatch c last lead middle closing edge rest := by
  rw [h.parts] at hmatch
  obtain ⟨⟨rest, hrest⟩, htakes, rfl⟩ := matchParts?_sound hmatch
  obtain ⟨lead, _, hlead, ⟨middle, _, hmiddle, ⟨tail, _, htail, rfl, rfl⟩, rfl⟩, rfl⟩ := htakes
  have hahead : c.ahead = (lead ++ middle) ++ (tail ++ rest) := by
    rw [← hrest]
    simp only [List.flatten_cons, List.flatten_nil, List.append_nil, List.append_assoc]
  have hafter : ((c.skip lead).skip middle).ahead = tail ++ rest := by
    rw [Cursor.skip_append]
    exact Cursor.ahead_skip hahead
  obtain ⟨closing, edge, rfl, hclosing, hedge⟩ := takes_lineTail htail hafter
  refine ⟨lead, middle, closing, edge, rest, rfl, ⟨?_, ?_, blank_of_takes hlead, ?_,
    hmiddle.within h.within, hclosing, hedge⟩⟩
  · rw [hahead]
    simp only [List.append_assoc]
  · simp only [List.flatten_cons, List.flatten_nil, List.append_nil]
  · rintro rfl
    exact absurd (h.opens hmiddle []) (by decide)

/-- An address that holds a bracket ends with the name of the element that stands behind it, and the
match with the blank after the name. -/
theorem exists_torn (m : AddressMatch c last lead middle closing edge rest)
    (hold : ∀ b ∈ blocks, b.Linked) (hahead : c.ahead = blocks.flatMap Block.text)
    (hmiddle : '<' ∈ middle) :
    ∃ front bs attributes, ∃ other : LinkKind, ∃ b : Block,
      blocks = plains (lead ++ front) ++ b :: bs ∧
      (∀ x ∈ lead ++ front, x ≠ '<' ∧ x ≠ '>') ∧
      b.text = '<' :: (other.name.toList ++ ' ' :: attributes) ∧ isSealed (' ' :: attributes) ∧
      middle = front ++ '<' :: other.name.toList ∧ closing = [] ∧ edge = [' '] := by
  obtain ⟨front, name, rfl, hfront⟩ := List.eq_append_cons_of_mem hmiddle
  have hopen : '<' ∉ lead ++ front := by
    simp [bracket_not_mem_of_blank m.lead_blank, hfront]
  have hsplit : blocks.flatMap Block.text =
      (lead ++ front) ++ '<' :: (name ++ (closing ++ (edge ++ rest))) := by
    rw [← hahead, m.ahead]
    simp only [List.append_assoc, List.cons_append]
  obtain ⟨bs, rfl, hrest, hplain⟩ := exists_plains (fun b hb => (hold b hb).1) hsplit hopen
  obtain _ | ⟨b, bs⟩ := bs
  · exact absurd hrest (by simp)
  rw [List.flatMap_cons] at hrest
  have hb : b.Linked := hold b (by simp)
  rcases hb.plain_or with ⟨d, rfl, hd⟩ | ⟨other, address, left, rfl⟩
  · exact absurd (List.cons.inj hrest).1 hd.1
  obtain ⟨attributes, hsealed, htext⟩ := exists_attributes hb.1
  -- A blank follows the element's name, and no blank is part of an address.
  have hword : name ++ (closing ++ (edge ++ rest)) =
      other.name.toList ++ ' ' :: (attributes ++ bs.flatMap Block.text) := by
    rw [htext, List.cons_append] at hrest
    rw [← (List.cons.inj hrest).2, List.append_assoc, List.cons_append]
  have hname : ∀ x ∈ name, isBlank x = false := fun x hx =>
    m.middle_word x (List.mem_append_right _ (List.mem_cons_of_mem _ hx))
  obtain ⟨rfl, rfl, rfl, -⟩ := eq_of_name hname m.closing_mark m.edge_end hword
  exact ⟨front, bs, attributes, other, _, rfl, hplain, htext, hsealed, rfl, rfl, rfl⟩

theorem exchange_torn (h : Links sub kind address)
    (m : AddressMatch c last lead middle closing edge rest) (hold : ∀ b ∈ blocks, b.Linked)
    (hahead : c.ahead = blocks.flatMap Block.text) (hmiddle : '<' ∈ middle) :
    ∃ taken behind left, blocks = taken ++ behind ∧
      Exchange sub Block.text Block.Linked Block.Sound
        (AddressFits [lead, middle, closing ++ edge]) [lead, middle, closing ++ edge] last
        taken left := by
  obtain ⟨front, bs, attributes, other, b, rfl, hplain, hb, hsealed, rfl, rfl, rfl⟩ :=
    exists_torn m hold hahead hmiddle
  obtain ⟨hlead, hfront⟩ := List.forall_mem_append.1 hplain
  have hloose : (Item.link kind (front ++ '<' :: other.name.toList)).Loose := by
    have hname : ∀ x ∈ '<' :: other.name.toList, x ≠ '>' :=
      forall_mem_of_all (by cases other <;> decide)
    refine fun x hx => ⟨m.middle_word x hx, ?_⟩
    rcases List.mem_append.1 hx with hx | hx
    · exact (hfront x hx).2
    · exact hname x hx
  have hunsound : ¬(Item.link kind (front ++ '<' :: other.name.toList)).Sound :=
    fun hsound => hsound.2.1 hmiddle
  have hmade : Reads Block.Linked _ _ :=
    (reads_plain (fun _ => Block.Plain.linked) hlead).append
      (.single (Block.linked_link hloose hsealed (.inr hunsound)))
  refine ⟨plains (lead ++ front) ++ [b], bs, attributes, by simp, ⟨by simp, ?_, ?_, ?_⟩⟩
  · rw [List.flatMap_append, flatMap_plains, List.flatMap_singleton, hb]
    simp
  · -- The scan goes on inside the torn element, where its attributes offer no new address.
    have hbefore : last.before = some ' ' := by
      have htaken : lead ++ (front ++ '<' :: other.name.toList ++ ([] ++ [' '])) =
          (lead ++ (front ++ '<' :: other.name.toList)) ++ [' '] := by simp
      rw [m.last_eq, htaken, Cursor.skip, List.getLast?_concat]
      rfl
    refine LeadsOpen.inert (leadsOpen_of_parts h.parts h.opens)
      (isSealed_of_append [' '] hsealed) fun hline => ?_
    rw [hbefore] at hline
    exact absurd hline (by decide)
  · have hwritten : lead ++ ((Item.link kind (front ++ '<' :: other.name.toList)).text ++
        ([] ++ [' '])) ++ attributes = lead ++ Block.text
          ⟨.link kind (front ++ '<' :: other.name.toList), ' ' :: attributes⟩ := by
      simp [Block.text]
    rw [h.fill, hwritten]
    exact hmade.congr ⟨fun hs => absurd hs.2 hunsound, fun hs => absurd hmiddle hs.2.2⟩

theorem exchange_whole (h : Links sub kind address)
    (m : AddressMatch c last lead middle closing edge rest) (hold : ∀ b ∈ blocks, b.Linked)
    (hahead : c.ahead = blocks.flatMap Block.text) (hmiddle : '<' ∉ middle) :
    ∃ taken behind left, blocks = taken ++ behind ∧
      Exchange sub Block.text Block.Linked Block.Sound
        (AddressFits [lead, middle, closing ++ edge]) [lead, middle, closing ++ edge] last
        taken left := by
  have hclosing : '<' ∉ closing := fun hx => absurd (m.closing_mark '<' hx) (by decide)
  have hopen : '<' ∉ [lead, middle, closing ++ edge].flatten := by
    simp [bracket_not_mem_of_blank m.lead_blank, hmiddle, hclosing,
      bracket_not_mem_of_blank m.edge_end.blank]
  have htext : blocks.flatMap Block.text = [lead, middle, closing ++ edge].flatten ++ rest := by
    rw [← hahead, m.ahead]
    simp
  refine exchange_item (fun b hb => (hold b hb).1) (fun _ => Block.Plain.linked) htext hopen
    (by simp [m.middle_ne]) (h.fill lead middle _) (fun x hx => by simp [hx])
    (fun x hx => by simp_all) fun hplain => ?_
  have hloose : (Item.link kind middle).Loose :=
    fun x hx => ⟨m.middle_word x hx, (hplain x (by simp [hx])).2⟩
  exact ⟨Block.linked_link hloose rfl (.inl rfl), hloose.sound_iff⟩

/-- A linking rule takes a text of plain characters and links to such a text; the links stay sound
where the addresses fit. -/
theorem respects (h : Links sub kind address) :
    Respects sub Block.text Block.Linked Block.Linked Block.Sound AddressFits where
  keeps := fun _ hb => hb
  passes := fun _ hb => hb.passes (leadsOpen_of_parts h.parts h.opens)
  replaces := by
    intro blocks c last ws hold hahead hmatch
    obtain ⟨lead, middle, closing, edge, rest, rfl, m⟩ := h.match_cases hmatch
    by_cases hopen : '<' ∈ middle
    · exact h.exchange_torn m hold hahead hopen
    · exact h.exchange_whole m hold hahead hopen

end Links

theorem fill_link {sub : Substitution} {kind : LinkKind} (hkind : kind ≠ .frame)
    (hinserts : sub.inserts = [.part 0, .text kind.opening, .part 1, .text "\">", .part 1,
      .text "</a>", .part 2]) (lead middle tail : List Char) :
    sub.fill [lead, middle, tail] = lead ++ ((Item.link kind middle).text ++ tail) := by
  have htext : (Item.link kind middle).text =
      kind.opening.toList ++ middle ++ "\">".toList ++ middle ++ "</a>".toList := by
    cases kind with
    | frame => exact absurd rfl hkind
    | _ => rfl
  rw [Substitution.fill, hinserts, htext]
  simp

theorem links_linkWeb : Links linkWeb .page webAddress where
  parts := rfl
  fill := fill_link (by decide) rfl
  opens := opens_webAddress
  within := within_webAddress.mono fun _ hx => (isSafe_iff.1 hx).1

theorem links_linkHost : Links linkHost .host hostAddress where
  parts := rfl
  fill := fill_link (by decide) rfl
  opens := opens_hostAddress
  within := within_hostAddress

theorem links_linkMail : Links linkMail .mail mailAddress where
  parts := rfl
  fill := fill_link (by decide) rfl
  opens := opens_mailAddress
  within := within_mailAddress.mono fun _ hx => (isSafe_iff.1 hx).1

theorem addressFits_of_within {sub : Substitution} {kind : LinkKind} {address : Pattern}
    (h : Links sub kind address) (hsafe : address.Within (isSafe ·)) (cs : List Char) :
    ∀ ws ∈ sub.hits cs, AddressFits ws := by
  intro ws hws
  obtain ⟨c, last, hmatch⟩ := Substitution.exists_match_of_mem_hitsFrom hws
  rw [h.parts] at hmatch
  obtain ⟨-, htakes, -⟩ := matchParts?_sound hmatch
  obtain ⟨lead, _, -, ⟨middle, _, hmiddle, ⟨tail, _, -, rfl, rfl⟩, rfl⟩, rfl⟩ := htakes
  have hmiddle := hmiddle.within hsafe
  exact ⟨fun hmem => (isSafe_iff.1 (hmiddle _ hmem)).2.1 rfl,
    fun hmem => (isSafe_iff.1 (hmiddle _ hmem)).2.2.1 rfl⟩

/-! ## Videos -/

/-- The video name of a match stays within its attribute, as far as quotes go. -/
def VideoFits (ws : List (List Char)) : Prop := '"' ∉ ws.getD 2 []

theorem fill_embedVideo (lead address name more tail : List Char) :
    embedVideo.fill [lead, address, name, more, tail] =
      [] ++ ((Item.link .frame name).text ++ []) := by
  have hend : "\" frameborder=\"0\" allowfullscreen></iframe>".toList =
      LinkKind.frame.ending.toList ++ LinkKind.frame.closing.toList := by decide
  change LinkKind.frame.opening.toList ++
    (name ++ ("\" frameborder=\"0\" allowfullscreen></iframe>".toList ++ [])) = _
  rw [hend]
  change _ = LinkKind.frame.opening.toList ++ name ++ LinkKind.frame.ending.toList ++ [] ++
    LinkKind.frame.closing.toList ++ []
  simp only [List.append_nil, List.append_assoc]

theorem respects_embedVideo :
    Respects embedVideo Block.text Block.Plain Block.Linked Block.Sound VideoFits where
  keeps := fun _ hb => hb.linked
  passes := fun b ⟨c, hb, _⟩ => .inl ⟨c, hb ▸ rfl⟩
  replaces := by
    intro blocks c last ws hold hahead hmatch
    obtain ⟨⟨rest, hrest⟩, htakes, -⟩ := matchParts?_sound hmatch
    obtain ⟨lead, _, -, ⟨address, _, -, ⟨name, _, hname, ⟨more, _, -, ⟨tail, _, -, rfl, rfl⟩, rfl⟩,
      rfl⟩, rfl⟩, rfl⟩ := htakes
    obtain ⟨hne, hchars⟩ := Pattern.takes_some hname
    have hopen : '<' ∉ c.ahead := by
      rw [hahead]
      intro hx
      obtain ⟨b, hb, hx⟩ := List.mem_flatMap.1 hx
      obtain ⟨d, rfl, hd⟩ := hold b hb
      exact hd.1 (List.mem_singleton.1 hx).symm
    refine exchange_item (fun b hb => (hold b hb).linked.1) (fun _ => Block.Plain.linked)
      (hahead ▸ hrest.symm) (fun hx => hopen (hrest ▸ List.mem_append_left rest hx)) (by simp [hne])
      (fill_embedVideo lead address name more tail)
      (List.nil_subset _) (List.nil_subset _) fun hplain => ?_
    have hloose : (Item.link .frame name).Loose := by
      intro x hx
      have hparameter := hchars x hx
      simp only [inParameter, Bool.and_eq_true, Bool.not_eq_true'] at hparameter
      exact ⟨hparameter.2, (hplain x (by simp [hx])).2⟩
    have hbracket : '<' ∉ name := fun hx => (hplain '<' (by simp [hx])).1 rfl
    exact ⟨Block.linked_link hloose rfl (.inl rfl),
      hloose.sound_iff.trans (and_iff_left hbracket)⟩

/-! ## Emphasis -/

theorem fill_emphasize (face : Face) (lead mark body tail : List Char) :
    (emphasize face.mark face.tag).fill [lead, mark, body, mark, tail] =
      lead ++ ((Item.emphasis face body).text ++ tail) := by
  change lead ++ (("<" ++ face.tag ++ ">").toList ++ (body ++
    (("</" ++ face.tag ++ ">").toList ++ (tail ++ [])))) = _
  rw [Item.text]
  simp only [List.append_nil, List.append_assoc]

theorem isOpener_mark (face : Face) : isLetter face.mark = false ∧ isOpener face.mark := by
  cases face <;> decide

/-- What is emphasized holds no marks. -/
theorem inert_emphasis (face other : Face) {body : List Char}
    (h : (Item.emphasis other body).Loose) (before : Option Char) :
    (emphasize face.mark face.tag).Inert before (Item.emphasis other body).text := by
  have hbody : face.mark ∉ body := h.body (by cases face <;> decide)
  have htags : face.mark ∉ ("<" ++ other.tag ++ ">").toList ∧
      face.mark ∉ ("</" ++ other.tag ++ ">").toList := by
    cases face <;> cases other <;> decide
  refine inert_of_no_mark ?_ ?_ before
  · rw [Item.text]
    simp only [List.mem_append, not_or]
    exact ⟨⟨htags.1, hbody⟩, htags.2⟩
  · have hclosing : ("</" ++ other.tag ++ ">").toList = ("</" ++ other.tag).toList ++ ['>'] := by
      cases other <;> decide
    rw [Item.text, hclosing, ← List.append_assoc, List.getLast?_concat]
    rintro x ⟨⟩
    decide

theorem respects_emphasize (face : Face) :
    Respects (emphasize face.mark face.tag) Block.text Block.Loose Block.Loose Block.Sound
      fun _ => True where
  keeps := fun _ hb => hb
  passes := by
    intro b hb
    by_cases hlinked : ∀ other body, b.item ≠ .emphasis other body
    · exact Block.Linked.passes (leadsOpen_emphasize (isOpener_mark face) face.tag) ⟨hb, hlinked⟩
    · obtain ⟨item, rest⟩ := b
      obtain ⟨other, body, rfl⟩ : ∃ other body, item = .emphasis other body := by
        simpa using hlinked
      have hsound : (Item.emphasis other body).Sound :=
        hb.1.sound_iff.2 ⟨List.not_mem_nil, List.not_mem_nil⟩
      obtain rfl : rest = [] := hb.2.2.resolve_right (not_not_intro hsound)
      rw [Block.text, List.append_nil]
      exact .inr ⟨Item.text_ne_nil _, inert_emphasis face other hb.1⟩
  replaces := by
    intro blocks c last ws hold hahead hmatch
    obtain ⟨⟨rest, hrest⟩, htakes, -⟩ := matchParts?_sound hmatch
    obtain ⟨lead, _, hlead, ⟨_, _, ⟨x, hx, rfl⟩, ⟨body, _, hbody, hrest', rfl⟩, rfl⟩, rfl⟩ := htakes
    obtain ⟨_, _, ⟨y, hy, rfl⟩, ⟨tail, _, htail, rfl, rfl⟩, rfl⟩ := hrest'
    obtain rfl : x = face.mark := eq_of_beq hx
    obtain rfl : y = face.mark := eq_of_beq hy
    have hloose : (Item.emphasis face body).Loose := hbody
    have hopen : '<' ∉ [lead, [face.mark], body, [face.mark], tail].flatten := by
      have hmark : face.mark ≠ '<' := by cases face <;> decide
      have hedge : '<' ∉ lead ∧ '<' ∉ tail :=
        ⟨bracket_not_mem_of_blank (blank_of_takes hlead),
          bracket_not_mem_of_blank (blank_of_takes htail)⟩
      simp [hedge, hmark.symm, hloose.body (c := '<') (by decide)]
    have hsound : (Item.emphasis face body).Sound :=
      hloose.sound_iff.2 ⟨List.not_mem_nil, List.not_mem_nil⟩
    exact exchange_item hold (fun _ hb => hb.linked.1) (hahead ▸ hrest.symm) hopen (by simp)
      (fill_emphasize face lead [face.mark] body tail) (fun z hz => by simp [hz])
      (fun z hz => by simp [hz]) fun _ =>
        ⟨⟨hloose, rfl, .inl rfl⟩, iff_of_true hsound trivial⟩

/-! ## The whole pass -/

/-- The names of the videos that are embedded in a text. -/
def videoNames (cs : List Char) : List (List Char) := (embedVideo.hits cs).map (·.getD 2 [])

/-- The host names that are linked in a text, each with all that is taken for a part of it. -/
def hostNames (cs : List Char) : List (List Char) :=
  (linkHost.hits (linkWeb.apply (embedVideo.apply cs))).map (·.getD 1 [])

theorem reads_escape (s : String) : Reads Block.Plain (escape s).toList True := by
  refine reads_plain (fun _ hb => hb) fun c hc => ?_
  rw [escape, String.toList_ofList, escapeChars] at hc
  obtain ⟨d, -, hc⟩ := List.mem_flatMap.1 hc
  have hentity : ∀ cs : List Char, cs.all (fun x => x ≠ '<' ∧ x ≠ '>') →
      ∀ x ∈ cs, x ≠ '<' ∧ x ≠ '>' := fun _ => forall_mem_of_all
  rw [escapeChar] at hc
  split at hc
  · exact hentity _ (by decide) c hc
  split at hc
  · exact hentity _ (by decide) c hc
  split at hc
  · exact hentity _ (by decide) c hc
  · next hopen hclose =>
      rw [List.mem_singleton.1 hc]
      exact ⟨hopen, hclose⟩

/-- Message text reads as plain characters and complete elements exactly if no name of a video or a
host holds a quote, and no element stands right behind a host name, so that its beginning is taken
for a part of the name. -/
theorem linkify_wellFormed_iff (s : String) :
    WellFormed (linkify (escape s)).toList ↔
      (∀ name ∈ videoNames (escape s).toList, '"' ∉ name) ∧
        ∀ name ∈ hostNames (escape s).toList, '"' ∉ name ∧ '<' ∉ name := by
  -- Each rule adds its condition on the addresses it matches to those of the rules before it.
  have hvideo := respects_embedVideo.apply (reads_escape s)
  have hweb := links_linkWeb.respects.apply hvideo
  have hhost := links_linkHost.respects.apply hweb
  have hmail := links_linkMail.respects.apply hhost
  have hbold := (respects_emphasize .bold).apply (hmail.mono fun _ hb => hb.1)
  obtain ⟨blocks, htext, hloose, hsound⟩ := (respects_emphasize .italic).apply hbold
  -- The patterns of web and mail addresses admit no quote and no bracket.
  have hweb := addressFits_of_within links_linkWeb within_webAddress
    (embedVideo.apply (escape s).toList)
  have hmail := addressFits_of_within links_linkMail within_mailAddress
    (linkHost.apply (linkWeb.apply (embedVideo.apply (escape s).toList)))
  have hresult : (linkify (escape s)).toList = blocks.flatMap Block.text := by
    rw [linkify, String.toList_ofList, linkifyChars, linkRules]
    simp only [List.foldl_cons, List.foldl_nil]
    exact htext
  rw [hresult, wellFormed_blocks_iff hloose, hsound, and_iff_left (fun _ _ => trivial),
    and_iff_left (fun _ _ => trivial), and_iff_left hmail, and_iff_left hweb, true_and, videoNames,
    hostNames, List.forall_mem_map, List.forall_mem_map]
  simp only [VideoFits, AddressFits]

theorem not_wellFormed_of_block {b : Block} (hloose : b.Loose) (h : ¬b.Sound) :
    ¬WellFormed b.text := by
  have htext : b.text = [b].flatMap Block.text := (List.flatMap_singleton _ _).symm
  rw [htext, wellFormed_blocks_iff (List.forall_mem_singleton.2 hloose)]
  exact fun hsound => h (hsound b List.mem_cons_self)

/-- A host name takes the beginning of the frame behind it with it, and a quote in a host name ends
the attribute that the name is put into. -/
theorem linkify_breaks_markup :
    ¬WellFormed (linkify (escape "www.a youtu.be/b")).toList ∧
      ¬WellFormed (linkify (escape "www.a\"b")).toList := by
  have hframe : linkifyChars (escapeChars "www.a youtu.be/b".toList) =
      Block.text ⟨.link .host "www.a<iframe".toList,
        (" width=\"427\" height=\"240\" src=\"http://www.youtube.com/embed/b\"" ++
          " frameborder=\"0\" allowfullscreen></iframe>").toList⟩ := by
    decide +kernel
  have hquote : linkifyChars (escapeChars "www.a\"b".toList) =
      Block.text ⟨.link .host "www.a\"b".toList, []⟩ := by
    decide +kernel
  have hbracket : ¬(Item.link .host "www.a<iframe".toList).Sound :=
    fun h => h.2.1 (by decide)
  refine ⟨?_, ?_⟩
  · rw [linkify, String.toList_ofList, escape, String.toList_ofList, hframe]
    have hloose : ∀ c ∈ "www.a<iframe".toList, isBlank c = false ∧ c ≠ '>' :=
      forall_mem_of_all (by decide)
    exact not_wellFormed_of_block ⟨hloose, by decide, .inr hbracket⟩ hbracket
  · rw [linkify, String.toList_ofList, escape, String.toList_ofList, hquote]
    have hloose : ∀ c ∈ "www.a\"b".toList, isBlank c = false ∧ c ≠ '>' :=
      forall_mem_of_all (by decide)
    exact not_wellFormed_of_block ⟨hloose, rfl, .inl rfl⟩ fun h => h.1 (by decide)

end PeerWatch.Markup
