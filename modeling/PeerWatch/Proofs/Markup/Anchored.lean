import PeerWatch.Proofs.Markup.Linked
import PeerWatch.Proofs.Markup.Untouched

/-!
# Links around the words of a text

The rules for web, host and mail addresses put anchors around words of a text and change nothing
else. Every anchor stands at the beginning of the text or behind a blank, so that no address of a
later rule runs into it. What remains of the result without its tags is therefore the text itself.
-/

namespace PeerWatch.Markup

open PeerWatch.Text

/-! ## Text outside of tags -/

/-- What stands outside of tags. A tag begins with `<` and ends with the next `>`. -/
def outsideTags (inTag : Bool) : List Char → List Char
  | [] => []
  | c :: cs =>
    if inTag then outsideTags (c ≠ '>') cs
    else if c = '<' then outsideTags true cs
    else c :: outsideTags false cs

def dropTags (s : String) : String := String.ofList (outsideTags false s.toList)

theorem outsideTags_append {w : List Char} (h : '<' ∉ w) (rest : List Char) :
    outsideTags false (w ++ rest) = w ++ outsideTags false rest := by
  induction w with
  | nil => rfl
  | cons c w ih =>
      obtain ⟨hc, hw⟩ := not_or.1 (fun hmem => h (List.mem_cons.2 hmem))
      rw [List.cons_append, outsideTags, if_neg Bool.false_ne_true, if_neg (Ne.symm hc), ih hw,
        List.cons_append]

theorem outsideTags_tag {w : List Char} (h : '>' ∉ w) (rest : List Char) :
    outsideTags true (w ++ '>' :: rest) = outsideTags false rest := by
  induction w with
  | nil => rfl
  | cons c w ih =>
      obtain ⟨hc, hw⟩ := not_or.1 (fun hmem => h (List.mem_cons.2 hmem))
      rw [List.cons_append, outsideTags, if_pos rfl, decide_eq_true (Ne.symm hc), ih hw]

/-! ## Anchors behind blanks -/

/-- A text some of whose words are put into anchors. What stands in front is `before`. -/
inductive Anchored : Option Char → List Char → List Char → Prop
  | nil (before : Option Char) : Anchored before [] []
  | plain {before : Option Char} {c : Char} {cs text : List Char} :
    c ≠ '<' ∧ c ≠ '>' → Anchored (some c) cs text → Anchored before (c :: cs) (c :: text)
  | anchor {before : Option Char} {kind : LinkKind} {address cs text : List Char} :
    kind ≠ .frame → before.all isBlank →
    (∀ x ∈ address, isBlank x = false ∧ x ≠ '<' ∧ x ≠ '>') → Anchored (some '>') cs text →
    Anchored before ((Item.link kind address).text ++ cs) (address ++ text)

section Anchor

variable {kind : LinkKind} {address : List Char}

theorem link_text_eq (kind : LinkKind) (address rest : List Char) :
    (Item.link kind address).text ++ rest =
      '<' :: ((Item.link kind address).tag ++ '>' :: (kind.content address ++
        '<' :: ((Item.link kind address).lastTag ++ '>' :: rest))) :=
  Item.text_eq (fun _ => Item.noConfusion) rest

theorem outsideTags_anchor (hkind : kind ≠ .frame)
    (haddress : ∀ x ∈ address, isBlank x = false ∧ x ≠ '<' ∧ x ≠ '>') (rest : List Char) :
    outsideTags false ((Item.link kind address).text ++ rest) =
      address ++ outsideTags false rest := by
  have hcontent : kind.content address = address := by
    cases kind with
    | frame => exact absurd rfl hkind
    | _ => rfl
  have hopen : '<' ∉ address := fun hx => (haddress '<' hx).2.1 rfl
  have htag : '>' ∉ (Item.link kind address).tag := by
    rw [Item.mem_tag (.inr rfl)]
    exact fun hx => (haddress '>' hx).2.2 rfl
  rw [link_text_eq, hcontent, outsideTags, if_neg Bool.false_ne_true, if_pos rfl,
    outsideTags_tag htag, outsideTags_append hopen, outsideTags, if_neg Bool.false_ne_true,
    if_pos rfl, outsideTags_tag (Item.not_mem_lastTag _)]

theorem getLast?_link_text (kind : LinkKind) (address : List Char) :
    (Item.link kind address).text.getLast? = some '>' := by
  rw [← List.append_nil (Item.link kind address).text, link_text_eq]
  simp [List.getLast?_cons, List.getLast?_append]

theorem skip_link {c : Cursor} {rest : List Char}
    (h : c.ahead = (Item.link kind address).text ++ rest) :
    c.skip (Item.link kind address).text = ⟨some '>', rest⟩ := by
  rw [Cursor.skip, getLast?_link_text, Option.some_or, h, List.drop_left]

/-- No rule finds an address or a mark that begins within an anchor. -/
theorem inert_link (kind : LinkKind) {sub : Substitution} (hsub : LeadsOpen sub)
    (haddress : ∀ x ∈ address, isBlank x = false ∧ x ≠ '<' ∧ x ≠ '>') (before : Option Char) :
    sub.Inert before (Item.link kind address).text := by
  have hloose : (Item.link kind address).Loose :=
    fun x hx => ⟨(haddress x hx).1, (haddress x hx).2.2⟩
  apply hsub.inert (isSealed_link hloose)
  intro _
  rw [← List.append_nil (Item.link kind address).text, link_text_eq]
  exact isShut_open _

end Anchor

namespace Anchored

variable {before : Option Char} {cs text : List Char}

theorem outsideTags_eq (h : Anchored before cs text) : outsideTags false cs = text := by
  induction h with
  | nil before => rfl
  | plain hc _ ih => rw [outsideTags, if_neg Bool.false_ne_true, if_neg hc.1, ih]
  | anchor hkind _ haddress _ ih => rw [outsideTags_anchor hkind haddress, ih]

/-- What stands in front matters only for an anchor at the beginning. -/
theorem change_before (h : Anchored before cs text) {other : Option Char}
    (hother : before.all isBlank → other.all isBlank) : Anchored other cs text := by
  cases h with
  | nil => exact .nil other
  | plain hc hcs => exact .plain hc hcs
  | anchor hkind hblank haddress hcs => exact .anchor hkind (hother hblank) haddress hcs

theorem append {w : List Char} (hw : ∀ x ∈ w, x ≠ '<' ∧ x ≠ '>')
    (h : Anchored (w.getLast?.or before) cs text) : Anchored before (w ++ cs) (w ++ text) := by
  induction w generalizing before with
  | nil => exact h
  | cons x w ih =>
      obtain ⟨hx, hw⟩ := List.forall_mem_cons.1 hw
      apply Anchored.plain hx
      apply ih hw
      rwa [List.getLast?_cons, Option.some_or, ← Option.or_some] at h

theorem of_no_bracket (hcs : ∀ x ∈ cs, x ≠ '<' ∧ x ≠ '>') : Anchored before cs cs := by
  have h := append hcs (Anchored.nil (cs.getLast?.or before))
  rwa [List.append_nil] at h

/-- An anchor begins with a bracket. -/
theorem of_cons {c : Char} (h : Anchored before (c :: cs) text) (hc : c ≠ '<') :
    ∃ rest, text = c :: rest ∧ c ≠ '>' ∧ Anchored (some c) cs rest := by
  generalize hds : c :: cs = ds at h
  cases h with
  | nil => exact absurd hds (List.cons_ne_nil c cs)
  | plain hplain hcs =>
      obtain ⟨rfl, rfl⟩ := List.cons.inj hds
      exact ⟨_, rfl, hplain.2, hcs⟩
  | anchor _ _ _ _ =>
      rw [link_text_eq] at hds
      exact absurd (List.cons.inj hds).1 hc

theorem blank_of_bracket (h : Anchored before ('<' :: cs) text) : before.all isBlank := by
  generalize hds : '<' :: cs = ds at h
  cases h with
  | nil => exact absurd hds (List.cons_ne_nil _ cs)
  | plain hplain _ => exact absurd (List.cons.inj hds).1.symm hplain.1
  | anchor _ hblank _ _ => exact hblank

theorem of_append {w : List Char} (h : Anchored before (w ++ cs) text) (hw : '<' ∉ w) :
    ∃ rest, text = w ++ rest ∧ (∀ x ∈ w, x ≠ '<' ∧ x ≠ '>') ∧
      Anchored (w.getLast?.or before) cs rest := by
  induction w generalizing before text with
  | nil => exact ⟨text, rfl, fun _ hx => absurd hx List.not_mem_nil, h⟩
  | cons x w ih =>
      obtain ⟨hx, hw⟩ := not_or.1 (fun hmem => hw (List.mem_cons.2 hmem))
      obtain ⟨more, rfl, hclose, hmore⟩ := h.of_cons (Ne.symm hx)
      obtain ⟨rest, rfl, hplain, hrest⟩ := ih hmore hw
      refine ⟨rest, rfl, List.forall_mem_cons.2 ⟨⟨Ne.symm hx, hclose⟩, hplain⟩, ?_⟩
      rwa [List.getLast?_cons, Option.some_or, ← Option.or_some]

end Anchored

/-! ## The rules -/

namespace Links

variable {sub : Substitution} {kind : LinkKind} {address : Pattern} {c last : Cursor}
  {lead middle tail : List Char}

theorem match_begins (h : Links sub kind address)
    (hmatch : matchParts? sub.parts c = some ([lead, middle, tail], last)) :
    ((lead = [] ∧ c.before.all (· == '\n')) ∨ ∃ x, lead = [x] ∧ isBlank x) ∧
      Markup.opens middle := by
  rw [h.parts] at hmatch
  obtain ⟨-, ⟨_, _, hlead, ⟨_, _, hmiddle, -, rfl⟩, heq⟩, -⟩ := matchParts?_sound hmatch
  obtain ⟨rfl, hrest⟩ := List.cons.inj heq
  obtain ⟨rfl, -⟩ := List.cons.inj hrest
  have hopens := h.opens hmiddle []
  rw [List.append_nil] at hopens
  exact ⟨takes_edge_or_blank hlead, hopens⟩

theorem consumes (h : Links sub kind address) : sub.Consumes := by
  intro c last ws hmatch
  obtain ⟨lead, middle, closing, edge, rest, rfl, m⟩ := h.match_cases hmatch
  simp [m.middle_ne]

variable {closing edge rest text : List Char}

/-- An address does not run into an anchor, which would stand behind a blank. -/
theorem bracket_not_mem (h : Links sub kind address)
    (hmatch : matchParts? sub.parts c = some ([lead, middle, closing ++ edge], last))
    (m : AddressMatch c last lead middle closing edge rest)
    (hc : Anchored c.before c.ahead text) : '<' ∉ middle := by
  intro hmem
  obtain ⟨front, name, rfl, hfront⟩ := List.eq_append_cons_of_mem hmem
  have hopen : '<' ∉ lead ++ front := by
    simp [bracket_not_mem_of_blank m.lead_blank, hfront]
  have hahead : c.ahead = (lead ++ front) ++ '<' :: (name ++ (closing ++ (edge ++ rest))) := by
    rw [m.ahead]
    simp only [List.append_assoc, List.cons_append]
  rw [hahead] at hc
  obtain ⟨_, _, _, hanchor⟩ := hc.of_append hopen
  have hblank := hanchor.blank_of_bracket
  cases hlast : front.getLast? with
  | none =>
      obtain rfl : front = [] := List.getLast?_eq_none_iff.1 hlast
      exact not_opens_of_isShut (isShut_open name) (h.match_begins hmatch).2
  | some x =>
      rw [List.getLast?_append, hlast, Option.some_or, Option.some_or] at hblank
      have hx : x ∈ front := List.mem_of_getLast? hlast
      have hword := m.middle_word x (List.mem_append_left _ hx)
      rw [Option.all_some, hword] at hblank
      exact Bool.false_ne_true hblank

/-- A match puts its address into an anchor. What comes behind goes on as before, since neither the
address nor the anchor ends in a blank. -/
theorem anchored_match (h : Links sub kind address) (hkind : kind ≠ .frame)
    (hmatch : matchParts? sub.parts c = some ([lead, middle, closing ++ edge], last))
    (m : AddressMatch c last lead middle closing edge rest)
    (hc : Anchored c.before c.ahead text) :
    ∃ more, Anchored last.before last.ahead more ∧
      ∀ out, Anchored last.before out more →
        Anchored c.before (sub.fill [lead, middle, closing ++ edge] ++ out) text := by
  have hopen := h.bracket_not_mem hmatch m hc
  have hclosing : '<' ∉ closing := fun hx => absurd (m.closing_mark '<' hx) (by decide)
  have htaken : '<' ∉ lead ++ (middle ++ (closing ++ edge)) := by
    simp [bracket_not_mem_of_blank m.lead_blank, hopen, hclosing,
      bracket_not_mem_of_blank m.edge_end.blank]
  have hahead : c.ahead = (lead ++ (middle ++ (closing ++ edge))) ++ rest := by
    rw [m.ahead]
    simp only [List.append_assoc]
  have hbefore : last.before = (lead ++ (middle ++ (closing ++ edge))).getLast?.or c.before := by
    rw [m.last_eq]
    rfl
  have hlast : last.ahead = rest := by
    rw [m.last_eq]
    exact Cursor.ahead_skip hahead
  rw [hahead] at hc
  obtain ⟨more, rfl, hplain, hrest⟩ := hc.of_append htaken
  obtain ⟨hlead, hplain⟩ := List.forall_mem_append.1 hplain
  obtain ⟨hmiddle, htail⟩ := List.forall_mem_append.1 hplain
  refine ⟨more, ?_, ?_⟩
  · rwa [hlast, hbefore]
  intro out hout
  have hbehind : Anchored ((closing ++ edge).getLast?.or (some '>')) out more := by
    apply hout.change_before
    rw [hbefore, List.getLast?_append, List.getLast?_append]
    cases (closing ++ edge).getLast? with
    | some x => exact id
    | none =>
        cases hend : middle.getLast? with
        | none => exact absurd (List.getLast?_eq_none_iff.1 hend) m.middle_ne
        | some x =>
            have hword := m.middle_word x (List.mem_of_getLast? hend)
            simp [hword]
  have hstart : (lead.getLast?.or c.before).all isBlank := by
    rcases (h.match_begins hmatch).1 with ⟨rfl, hline⟩ | ⟨x, rfl, hx⟩
    · cases hfront : c.before with
      | none => rfl
      | some y =>
          rw [hfront] at hline
          obtain rfl : y = '\n' := by simpa using hline
          decide
    · exact hx
  have hanchor : Anchored (lead.getLast?.or c.before)
      ((Item.link kind middle).text ++ ((closing ++ edge) ++ out))
      (middle ++ ((closing ++ edge) ++ more)) := by
    apply Anchored.anchor hkind hstart
    · exact fun x hx => ⟨m.middle_word x hx, hmiddle x hx⟩
    · exact Anchored.append htail hbehind
  rw [h.fill]
  simp only [List.append_assoc] at hanchor ⊢
  exact Anchored.append hlead hanchor

/-- A rule for addresses puts words of the text into anchors and changes nothing else. -/
theorem anchored_scan (h : Links sub kind address) (hkind : kind ≠ .frame)
    (hc : Anchored c.before c.ahead text) : Anchored c.before (sub.scan c) text := by
  induction hsize : c.ahead.length using Nat.strongRecOn generalizing c text with
  | ind size ih =>
  cases hmatch : matchParts? sub.parts c with
  | some found =>
      obtain ⟨ws, last⟩ := found
      have hshorter := h.consumes.length_lt hmatch
      obtain ⟨lead, middle, closing, edge, rest, rfl, m⟩ := h.match_cases hmatch
      obtain ⟨more, hlast, hput⟩ := h.anchored_match hkind hmatch m hc
      rw [Substitution.scan_of_match h.consumes hmatch]
      apply hput
      exact ih last.ahead.length (by omega) hlast rfl
  | none =>
      obtain ⟨before, ahead⟩ := c
      cases hc with
      | nil =>
          rw [Substitution.scan_nil h.consumes]
          exact .nil before
      | @plain _ x xs text hx hxs =>
          rw [Substitution.scan_cons hmatch]
          apply Anchored.plain hx
          exact ih xs.length (by simp [← hsize]) (c := ⟨some x, xs⟩) hxs rfl
      | @anchor _ other word cs text hother hblank hword hcs =>
          have hinert :=
            inert_link other (leadsOpen_of_parts h.parts h.opens) hword before
          have hsum : size = (Item.link other word).text.length + cs.length :=
            hsize.symm.trans List.length_append
          have hpos := List.length_pos_iff.2 (Item.text_ne_nil (.link other word))
          rw [Substitution.scan_inert h.consumes hinert rfl, skip_link rfl]
          apply Anchored.anchor hother hblank hword
          exact ih cs.length (by omega) (c := ⟨some '>', cs⟩) hcs rfl

theorem anchored_apply (h : Links sub kind address) (hkind : kind ≠ .frame) {cs : List Char}
    (hcs : Anchored none cs text) : Anchored none (sub.apply cs) text := by
  rw [Substitution.apply_eq_scan]
  exact h.anchored_scan hkind (c := ⟨none, cs⟩) hcs

end Links

theorem consumes_emphasize (face : Face) : (emphasize face.mark face.tag).Consumes := by
  intro c last ws hmatch hnil
  obtain ⟨-, ⟨_, _, -, ⟨_, _, ⟨x, -, rfl⟩, -, rfl⟩, rfl⟩, -⟩ := matchParts?_sound hmatch
  simp at hnil

/-- Where the text has no marks, a rule for emphasis finds none. -/
theorem Anchored.scan_emphasize {before : Option Char} {cs text : List Char} (face : Face)
    (h : Anchored before cs text) (hmark : face.mark ∉ text) :
    (emphasize face.mark face.tag).scan ⟨before, cs⟩ = cs := by
  induction h with
  | nil before => exact Substitution.scan_nil (consumes_emphasize face) before
  | @plain before c cs text hc hcs ih =>
      obtain ⟨hne, htext⟩ := not_or.1 (fun hmem => hmark (List.mem_cons.2 hmem))
      have hmatch : matchParts? (emphasize face.mark face.tag).parts ⟨before, c :: cs⟩ = none := by
        cases hmatch : matchParts? (emphasize face.mark face.tag).parts ⟨before, c :: cs⟩ with
        | none => rfl
        | some found =>
            obtain ⟨-, rest, hahead⟩ | ⟨x, rest, hahead, -⟩ := begins_of_emphasize hmatch
            · exact absurd (List.cons.inj hahead).1.symm hne
            · obtain ⟨-, rfl⟩ := List.cons.inj hahead
              obtain ⟨more, rfl, -⟩ := hcs.of_cons (by cases face <;> decide)
              exact absurd List.mem_cons_self htext
      rw [Substitution.scan_cons hmatch, ih htext]
  | @anchor before kind address cs text hkind hblank haddress hcs ih =>
      have hmarks : LeadsOpen (emphasize face.mark face.tag) :=
        leadsOpen_emphasize (isOpener_mark face) face.tag
      have hinert := inert_link kind hmarks haddress before
      rw [Substitution.scan_inert (consumes_emphasize face) hinert rfl, skip_link rfl,
        ih fun hmem => hmark (List.mem_append_right _ hmem)]

/-- An anchor holds an underscore, but none that stands behind a blank. -/
theorem Anchored.apply_emphasize {cs text : List Char} (h : Anchored none cs text)
    (hbold : '*' ∉ text) (hitalic : '_' ∉ text) :
    (emphasize '_' "i").apply ((emphasize '*' "b").apply cs) = cs := by
  have hstar : (emphasize '*' "b").apply cs = cs := h.scan_emphasize .bold hbold
  have hline : (emphasize '_' "i").apply cs = cs := h.scan_emphasize .italic hitalic
  rw [hstar, hline]

/-! ## The whole pass -/

/-- The rules for web, host and mail addresses put words of a text into anchors. -/
theorem anchored_links {cs : List Char} (h : ∀ x ∈ cs, x ≠ '<' ∧ x ≠ '>') :
    Anchored none (linkMail.apply (linkHost.apply (linkWeb.apply cs))) cs := by
  have hweb := links_linkWeb.anchored_apply (by decide) (.of_no_bracket h)
  have hhost := links_linkHost.anchored_apply (by decide) hweb
  exact links_linkMail.anchored_apply (by decide) hhost

/-- Without marks and video addresses, all that is done to a text is to put words of it into
anchors. -/
theorem anchored_linkifyChars {cs : List Char} (h : ∀ x ∈ cs, x ≠ '<' ∧ x ≠ '>')
    (hbold : '*' ∉ cs) (hitalic : '_' ∉ cs) (hvideo : ¬Mentions "youtu" cs) :
    Anchored none (linkifyChars cs) cs := by
  have hlinks := anchored_links h
  rw [linkifyChars_eq, embedVideo_apply hvideo, hlinks.apply_emphasize hbold hitalic]
  exact hlinks

/-- A text without brackets, marks and video addresses is what stands outside of the tags of its
markup. -/
theorem linkify_keeps_text (s : String)
    (hplain : ∀ c ∈ s.toList, c ≠ '<' ∧ c ≠ '>' ∧ c ≠ '*' ∧ c ≠ '_')
    (hvideo : ¬Mentions "youtu" s.toList) : dropTags (linkify s) = s := by
  have hbracket : ∀ c ∈ s.toList, c ≠ '<' ∧ c ≠ '>' :=
    fun c hc => ⟨(hplain c hc).1, (hplain c hc).2.1⟩
  have hbold : '*' ∉ s.toList := fun hmem => (hplain '*' hmem).2.2.1 rfl
  have hitalic : '_' ∉ s.toList := fun hmem => (hplain '_' hmem).2.2.2 rfl
  have htext := (anchored_linkifyChars hbracket hbold hitalic hvideo).outsideTags_eq
  rw [dropTags, linkify, String.toList_ofList, htext, String.ofList_toList]

/-- Addresses of every kind with punctuation, quotes and line breaks around them. -/
theorem linkify_keeps_text_of_addresses :
    let s := "http://a.b/?c=d, www.e\"f@g \"www.h\"\nmail i@j.kl!?\nHTTPS://m"
    (∀ c ∈ s.toList, c ≠ '<' ∧ c ≠ '>' ∧ c ≠ '*' ∧ c ≠ '_') ∧ ¬Mentions "youtu" s.toList ∧
      dropTags (linkify s) = s := by
  intro s
  have hplain : ∀ c ∈ s.toList, c ≠ '<' ∧ c ≠ '>' ∧ c ≠ '*' ∧ c ≠ '_' :=
    forall_mem_of_all (by decide +kernel)
  have hvideo : ¬Mentions "youtu" s.toList := by decide +kernel
  exact ⟨hplain, hvideo, linkify_keeps_text s hplain hvideo⟩

end PeerWatch.Markup
