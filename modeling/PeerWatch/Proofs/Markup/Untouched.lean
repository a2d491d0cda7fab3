import Mathlib.Data.List.Infix
import PeerWatch.Proofs.Markup.Address
import PeerWatch.Proofs.Text.Scanning

/-!
# Texts without addresses

Each rule needs a certain word or sign in the text, in any letter case. A text in which that does
not occur is left as it is by the rule, so that in a text without any sign of an address only
emphasis is set.
-/

namespace PeerWatch.Markup

open PeerWatch.Text

/-- The word occurs in the text, in any letter case. -/
def Mentions (word : String) (cs : List Char) : Prop := word.toList <:+: cs.map Char.toLower

instance (word : String) (cs : List Char) : Decidable (Mentions word cs) :=
  inferInstanceAs (Decidable (word.toList <:+: cs.map Char.toLower))

/-- Whatever the pattern consumes mentions the word. -/
def Requires (p : Pattern) (word : String) : Prop :=
  ∀ (c : Cursor) (w : List Char), p.Takes c w → Mentions word w

variable {word : String} {cs : List Char}

/-! ## Words and signs -/

theorem Mentions.inside {ds : List Char} (h : Mentions word ds) (hds : ds <:+: cs) :
    Mentions word cs :=
  h.trans (hds.map Char.toLower)

theorem eq_of_toLower_eq {a c : Char} (ha : a.isLower = false) (h : c.toLower = a) : c = a := by
  rcases toLower_eq_or c with hsame | ⟨-, hlower⟩
  · rw [← hsame, h]
  · rw [h, ha] at hlower
    exact absurd hlower Bool.false_ne_true

/-- Signs have no letter case. -/
theorem Mentions.infix_of_signs (h : Mentions word cs)
    (hword : ∀ a ∈ word.toList, a.isLower = false) : word.toList <:+: cs := by
  obtain ⟨before, after, htext⟩ := h
  obtain ⟨front, rest, rfl, hfront, -⟩ := List.map_eq_append_iff.1 htext.symm
  obtain ⟨lead, same, rfl, -, hsame⟩ := List.map_eq_append_iff.1 hfront
  have hcase : ∀ c ∈ same, c.toLower = c := by
    intro c hc
    have hlower : c.toLower.isLower = false := by
      apply hword
      rw [← hsame]
      exact List.mem_map_of_mem hc
    exact (eq_of_toLower_eq hlower rfl).symm
  rw [← hsame, List.map_congr_left hcase, List.map_id']
  exact List.infix_append lead same rest

theorem mem_of_mentions {a : Char} (ha : a.isLower = false) (hword : word.toList = [a])
    (h : Mentions word cs) : a ∈ cs := by
  have hsign : ∀ b ∈ word.toList, b.isLower = false := by
    rw [hword]
    exact List.forall_mem_singleton.2 ha
  have hinfix := h.infix_of_signs hsign
  rw [hword] at hinfix
  exact hinfix.subset List.mem_cons_self

/-! ## What patterns require -/

namespace Requires

variable {p q : Pattern}

theorem first (h : Requires p word) (q : Pattern) : Requires (.seq p q) word := by
  rintro c _ ⟨u, v, hu, -, rfl⟩
  exact (h c u hu).inside (List.prefix_append u v).isInfix

theorem second (h : Requires q word) (p : Pattern) : Requires (.seq p q) word := by
  rintro c _ ⟨u, v, -, hv, rfl⟩
  exact (h _ v hv).inside (List.suffix_append u v).isInfix

theorem either (hp : Requires p word) (hq : Requires q word) : Requires (.either p q) word := by
  intro c w hw
  rcases hw with hw | hw
  · exact hp c w hw
  · exact hq c w hw

/-- A substitution leaves a text alone that does not mention what one of its parts requires. -/
theorem apply_eq_self {sub : Substitution} (h : Requires p word) (hp : p ∈ sub.parts)
    (hcs : ¬Mentions word cs) : sub.apply cs = cs := by
  apply Substitution.apply_eq_self
  intro c hc
  cases hmatch : matchParts? sub.parts c with
  | none => rfl
  | some found =>
      obtain ⟨ws, last⟩ := found
      obtain ⟨hbegin, htakes, -⟩ := matchParts?_sound hmatch
      obtain ⟨w, hw, place, htaken⟩ := htakes.exists_of_mem hp
      have hinfix : w <:+: cs :=
        (List.infix_of_mem_flatten hw).trans (hbegin.isInfix.trans hc.isInfix)
      exact absurd ((h place w htaken).inside hinfix) hcs

end Requires

theorem requires_exactly {a : Char} (h : word.toList = [a.toLower]) :
    Requires (exactly a) word := by
  rintro c _ ⟨x, hx, rfl⟩
  obtain rfl : x = a := eq_of_beq hx
  rw [Mentions, h]
  exact List.infix_rfl

/-- Only the letters s and k are matched by characters beyond ASCII. -/
theorem toLower_eq_of_sameLetter {a c : Char} (ha : foldLetter a = a ∧ a ≠ 's' ∧ a ≠ 'k')
    (h : sameLetter a c) : c.toLower = a := by
  have hfold : foldLetter a = foldLetter c := eq_of_beq h
  rw [ha.1, foldLetter] at hfold
  split at hfold
  · exact absurd hfold ha.2.1
  split at hfold
  · exact absurd hfold ha.2.2
  · exact hfold.symm

theorem map_toLower_of_takes_word {c : Cursor} {as w : List Char}
    (has : ∀ a ∈ as, foldLetter a = a ∧ a ≠ 's' ∧ a ≠ 'k')
    (h : (Pattern.word sameLetter as).Takes c w) : w.map Char.toLower = as := by
  induction as generalizing c w with
  | nil =>
      obtain rfl : w = [] := h
      rfl
  | cons a as ih =>
      obtain ⟨ha, has⟩ := List.forall_mem_cons.1 has
      cases as with
      | nil =>
          obtain ⟨x, hx, rfl⟩ := h
          rw [List.map_singleton, toLower_eq_of_sameLetter ha hx]
      | cons b bs =>
          obtain ⟨_, v, ⟨x, hx, rfl⟩, hv, rfl⟩ := h
          rw [List.map_append, List.map_singleton, toLower_eq_of_sameLetter ha hx, ih has hv,
            List.singleton_append]

theorem requires_letters {s : String}
    (hs : s.toList.all fun a => foldLetter a = a ∧ a ≠ 's' ∧ a ≠ 'k')
    (hword : word.toList <:+: s.toList) : Requires (letters s) word := by
  intro c w hw
  rw [Mentions, map_toLower_of_takes_word (forall_mem_of_all hs) hw]
  exact hword

/-! ## What the rules require -/

theorem requires_videoAddress (hlong : word.toList <:+: "youtube.com".toList)
    (hshort : word.toList <:+: "youtu.be".toList) : Requires videoAddress word := by
  have hname : Requires (.either (letters "youtube.com") (letters "youtu.be")) word :=
    (requires_letters (by decide) hlong).either (requires_letters (by decide) hshort)
  exact ((hname.first _).second _).second _

theorem requires_webAddress (h : word.toList <:+: "://".toList) : Requires webAddress word := by
  have hcolon : Requires (letters "://") word := requires_letters (by decide) h
  exact (hcolon.first _).second _

theorem requires_hostAddress (h : word.toList <:+: "www.".toList) :
    Requires hostAddress word := by
  have hwww : Requires (letters "www.") word := requires_letters (by decide) h
  exact hwww.first _

theorem requires_mailAddress_at : Requires mailAddress "@" := by
  have hat : Requires (exactly '@') "@" := requires_exactly (by decide)
  exact (hat.first _).second _

theorem requires_mailAddress_dot : Requires mailAddress "." := by
  have hdot : Requires (exactly '.') "." := requires_exactly (by decide)
  have hdomain :
      Requires (.all [exactly '.', .one isLetter, .one isLetter, .upTo isLetter 4]) "." :=
    hdot.first _
  exact (((hdomain.first _).second _).second _).second _

theorem linkifyChars_eq (cs : List Char) :
    linkifyChars cs = (emphasize '_' "i").apply ((emphasize '*' "b").apply
      (linkMail.apply (linkHost.apply (linkWeb.apply (embedVideo.apply cs))))) := by
  unfold linkifyChars linkRules
  simp only [List.foldl_cons, List.foldl_nil]

theorem embedVideo_apply (h : ¬Mentions "youtu" cs) : embedVideo.apply cs = cs :=
  (requires_videoAddress (by decide) (by decide)).apply_eq_self (by simp [embedVideo]) h

theorem linkWeb_apply (h : ¬Mentions "://" cs) : linkWeb.apply cs = cs :=
  (requires_webAddress List.infix_rfl).apply_eq_self (by simp [linkWeb]) h

theorem linkHost_apply (h : ¬Mentions "www." cs) : linkHost.apply cs = cs :=
  (requires_hostAddress List.infix_rfl).apply_eq_self (by simp [linkHost]) h

theorem linkMail_apply (h : ¬Mentions "@" cs) : linkMail.apply cs = cs :=
  requires_mailAddress_at.apply_eq_self (by simp [linkMail]) h

theorem emphasize_apply {mark : Char} (tag : String) (hmark : mark.toLower = mark)
    (hlower : mark.isLower = false) (h : mark ∉ cs) : (emphasize mark tag).apply cs = cs := by
  have hrequires : Requires (exactly mark) (String.singleton mark) :=
    requires_exactly (by rw [hmark, String.toList_singleton])
  apply hrequires.apply_eq_self (by simp [emphasize])
  exact fun hmentions => h (mem_of_mentions hlower (by simp) hmentions)

/-- In a text without the sign of a mail address or of a web address, and without the words at the
beginning of a host name or of a video address, only emphasis is set; and without its marks the text
stays as it is. -/
theorem linkify_without_addresses (s : String) (hmail : '@' ∉ s.toList)
    (hweb : ¬"://".toList <:+: s.toList) (hhost : ¬Mentions "www." s.toList)
    (hvideo : ¬Mentions "youtu" s.toList) :
    linkify s = String.ofList ((emphasize '_' "i").apply ((emphasize '*' "b").apply s.toList)) ∧
      ('*' ∉ s.toList → '_' ∉ s.toList → linkify s = s) := by
  have haddresses : linkMail.apply (linkHost.apply (linkWeb.apply (embedVideo.apply s.toList))) =
      s.toList := by
    rw [embedVideo_apply hvideo, linkWeb_apply, linkHost_apply hhost, linkMail_apply]
    · exact fun h => hmail (mem_of_mentions (by decide) (by decide) h)
    · exact fun h => hweb (h.infix_of_signs (forall_mem_of_all (by decide)))
  have hlinkify : linkify s = String.ofList
      ((emphasize '_' "i").apply ((emphasize '*' "b").apply s.toList)) := by
    rw [linkify, linkifyChars_eq, haddresses]
  refine ⟨hlinkify, ?_⟩
  intro hbold hitalic
  rw [hlinkify, emphasize_apply "b" (by decide) (by decide) hbold,
    emphasize_apply "i" (by decide) (by decide) hitalic, String.ofList_toList]

/-- Parts of addresses that are none, with and without emphasis. -/
theorem linkify_without_addresses_of_parts :
    let s := "HTTP:/a WWW: youtoo *b* _c_ 2*3"
    let plain := "(http): www, you-tube\nftp:/a"
    ('@' ∉ s.toList ∧ ¬"://".toList <:+: s.toList ∧ ¬Mentions "www." s.toList ∧
        ¬Mentions "youtu" s.toList) ∧
      linkify s = "HTTP:/a WWW: youtoo <b>b</b> <i>c</i> 2*3" ∧ linkify plain = plain := by
  intro s plain
  have hs : '@' ∉ s.toList ∧ ¬"://".toList <:+: s.toList ∧ ¬Mentions "www." s.toList ∧
      ¬Mentions "youtu" s.toList := by
    decide +kernel
  have hplain := linkify_without_addresses plain (by decide +kernel) (by decide +kernel)
    (by decide +kernel) (by decide +kernel)
  refine ⟨hs, ?_, hplain.2 (by decide +kernel) (by decide +kernel)⟩
  rw [(linkify_without_addresses s hs.1 hs.2.1 hs.2.2.1 hs.2.2.2).1]
  decide +kernel

end PeerWatch.Markup
