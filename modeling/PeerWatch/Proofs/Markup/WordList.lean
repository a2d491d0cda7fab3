import Mathlib
import PeerWatch.Proofs.Markup.Alternating

/-!
# Lists of words in one style

A list of web addresses, or of words between marks, that stand between single blanks: its first
item, its third and so on become markup, and the others stay as they were typed.
-/

namespace PeerWatch.Markup

open PeerWatch.Text

/-! ## Words of letters -/

/-- The word is not empty and consists of letters. -/
def IsWord (word : String) : Prop := word ≠ "" ∧ ∀ c ∈ word.toList, c.isAlpha

theorem IsWord.not_mem {word : String} (h : IsWord word) {sign : Char}
    (hsign : sign.isAlpha = false) : sign ∉ word.toList := by
  intro hmem
  rw [h.2 sign hmem] at hsign
  exact Bool.false_ne_true hsign.symm

instance (word : String) : Decidable (IsWord word) :=
  decidable_of_iff (word ≠ "" ∧ word.toList.all Char.isAlpha) (by simp [IsWord])

section Letters

variable {c : Char}

theorem not_mem_of_isAlpha {signs : List Char} (hsigns : signs.all (!·.isAlpha))
    (hc : c.isAlpha) : c ∉ signs := by
  intro hmem
  have hsign := List.all_eq_true.1 hsigns c hmem
  rw [hc] at hsign
  exact Bool.false_ne_true hsign

theorem isLetter_of_isAlpha (hc : c.isAlpha) : isLetter c := by
  unfold isLetter foldLetter
  split
  · rfl
  split
  · rfl
  · rw [Char.isLower_toLower_eq_isAlpha, hc]

theorem endsAddress_of_isAlpha (hc : c.isAlpha) : endsAddress c := by
  rw [endsAddress, isLetter_of_isAlpha hc, Bool.true_or, Bool.true_or]

theorem isClosing_of_isAlpha (hc : c.isAlpha) : isClosing c = false := by
  have hnot : c ∉ "!?:,.;".toList := not_mem_of_isAlpha (by decide) hc
  rw [isClosing, List.contains_eq_mem, decide_eq_false hnot]

theorem inEmphasis_of_isAlpha (hc : c.isAlpha) : inEmphasis c := by
  have hnot : c ∉ "/*_<>".toList := not_mem_of_isAlpha (by decide) hc
  rw [inEmphasis, List.contains_eq_mem, decide_eq_false hnot, Bool.not_false]

end Letters

theorem takes_letters_self (s : String) (place : Cursor) : (letters s).Takes place s.toList :=
  Pattern.takes_word_self (fun a => beq_self_eq_true (foldLetter a)) place

theorem takes_webAddress {front : List Char} {x : Char} (hfront : ∀ y ∈ front, y.isAlpha)
    (hx : x.isAlpha) (place : Cursor) :
    webAddress.Takes place ("http".toList ++ ("://".toList ++ (front ++ [x]))) := by
  have hscheme : (Pattern.seq (letters "http") (.optional (letters "s"))).Takes place
      "http".toList :=
    ⟨"http".toList, [], takes_letters_self "http" place, .inr rfl, rfl⟩
  have hrun : ∀ y ∈ front, inAddress y := by
    intro y hy
    rw [inAddress, endsAddress_of_isAlpha (hfront y hy), Bool.true_or]
  exact ⟨"http".toList, _, .inl hscheme, ⟨"://".toList, _, takes_letters_self "://" _,
    ⟨front, [x], hrun, ⟨x, endsAddress_of_isAlpha hx, rfl⟩, rfl⟩, rfl⟩, rfl⟩

theorem replaces_linkWeb {w : List Char} (hne : w ≠ []) (hw : ∀ x ∈ w, x.isAlpha) :
    Replaces linkWeb ("http://".toList ++ w) (Item.link .page ("http://".toList ++ w)).text := by
  rcases List.eq_nil_or_concat' w with hnil | ⟨front, x, rfl⟩
  · exact absurd hnil hne
  obtain ⟨hfront, hlast⟩ := List.forall_mem_append.1 hw
  have hx : x.isAlpha := hlast x (List.mem_singleton_self x)
  rw [← List.append_assoc]
  apply links_linkWeb.replaces (isClosing_of_isAlpha hx)
  exact takes_webAddress hfront hx

/-! ## Lists of addresses and of emphasized words -/

/-- What a word is marked as. -/
inductive Style
  | address
  | emphasis (face : Face)
  deriving DecidableEq, Repr

namespace Style

def typed (style : Style) (word : String) : String :=
  match style with
  | .address => "http://" ++ word
  | .emphasis face => String.singleton face.mark ++ word ++ String.singleton face.mark

/-- The markup for a word of the style. -/
def shown (style : Style) (word : String) : String :=
  match style with
  | .address => "<a target=\"_blank\" href=\"http://" ++ word ++ "\">http://" ++ word ++ "</a>"
  | .emphasis face => "<" ++ face.tag ++ ">" ++ word ++ "</" ++ face.tag ++ ">"

def rule : Style → Substitution
  | .address => linkWeb
  | .emphasis face => emphasize face.mark face.tag

theorem consumes_rule (style : Style) : style.rule.Consumes := by
  cases style with
  | address => exact links_linkWeb.consumes
  | emphasis face => exact consumes_emphasize face

theorem leadsOpen_rule (style : Style) : LeadsOpen style.rule := by
  cases style with
  | address => exact leadsOpen_of_parts links_linkWeb.parts links_linkWeb.opens
  | emphasis face => exact leadsOpen_emphasize (isOpener_mark face) face.tag

theorem toList_typed_emphasis (face : Face) (word : String) :
    ((emphasis face).typed word).toList = face.mark :: (word.toList ++ [face.mark]) := by
  simp [typed]

theorem toList_shown_address (word : String) :
    (address.shown word).toList = (Item.link .page ("http://".toList ++ word.toList)).text := by
  have hopening : "<a target=\"_blank\" href=\"http://".toList =
      LinkKind.page.opening.toList ++ "http://".toList := by decide
  have hending : "\">http://".toList = LinkKind.page.ending.toList ++ "http://".toList := by decide
  unfold shown Item.text
  simp only [String.toList_append, hopening, hending, List.append_assoc]
  rfl

theorem toList_shown_emphasis (face : Face) (word : String) :
    ((emphasis face).shown word).toList = (Item.emphasis face word.toList).text := by
  unfold shown Item.text
  simp only [String.toList_append, List.append_assoc]

theorem replaces_rule (style : Style) {word : String} (hword : IsWord word) :
    Replaces style.rule (style.typed word).toList (style.shown word).toList := by
  cases style with
  | address =>
      have hne : word.toList ≠ [] := fun hnil => hword.1 (String.toList_eq_nil_iff.1 hnil)
      rw [toList_shown_address, typed, String.toList_append]
      exact replaces_linkWeb hne hword.2
  | emphasis face =>
      rw [toList_shown_emphasis, toList_typed_emphasis]
      apply replaces_emphasize
      intro c hc
      have hletter := isLetter_of_isAlpha (hword.2 c hc)
      exact ⟨inEmphasis_of_isAlpha (hword.2 c hc), (isSafe_iff.1 (isSafe_of_isLetter hletter)).1⟩

section Signs

variable {style : Style} {word : String} {sign : Char}

theorem not_mem_typed (hword : sign ∉ word.toList) (hfixed : sign ∉ (style.typed "").toList) :
    sign ∉ (style.typed word).toList := by
  unfold typed at hfixed ⊢
  cases style with
  | _ =>
      simp only [String.toList_append, List.mem_append, not_or] at hfixed ⊢
      simp only [hfixed, hword, not_false_eq_true, and_self]

theorem not_mem_shown (hword : sign ∉ word.toList) (hfixed : sign ∉ (style.shown "").toList) :
    sign ∉ (style.shown word).toList := by
  unfold shown at hfixed ⊢
  cases style with
  | _ =>
      simp only [String.toList_append, List.mem_append, not_or] at hfixed ⊢
      simp only [hfixed, hword, not_false_eq_true, and_self]

end Signs

theorem exists_typed_cons (style : Style) (word : String) :
    ∃ c cs, (style.typed word).toList = c :: cs ∧ c ≠ '<' := by
  cases style with
  | address =>
      refine ⟨'h', "ttp://".toList ++ word.toList, ?_, by decide⟩
      rw [typed, String.toList_append]
      rfl
  | emphasis face => exact ⟨_, _, toList_typed_emphasis face word, by cases face <;> decide⟩

theorem exists_shown_cons (style : Style) (word : String) :
    ∃ cs, (style.shown word).toList = '<' :: cs := by
  cases style with
  | address =>
      rw [toList_shown_address, ← List.append_nil (Item.text _)]
      exact ⟨_, link_text_eq .page _ []⟩
  | emphasis face =>
      rw [toList_shown_emphasis, ← List.append_nil (Item.text _)]
      exact ⟨_, Item.text_eq (fun _ => Item.noConfusion) []⟩

end Style

section Lists

variable {words : List String} {sign : Char}

def typedText (style : Style) (words : List String) : List Char :=
  [' '].intercalate (words.map fun w => (style.typed w).toList)

/-- The text with every other item as markup, beginning with the first. -/
def alternatingText (style : Style) (words : List String) : List Char :=
  [' '].intercalate
    (alternate (fun w => (style.shown w).toList) (fun w => (style.typed w).toList) words)

theorem rule_typedText (style : Style) (h : ∀ w ∈ words, IsWord w) :
    style.rule.apply (typedText style words) = alternatingText style words :=
  apply_items style.consumes_rule style.leadsOpen_rule fun w hw => style.replaces_rule (h w hw)

/-- The signs in a text of words are those of its style. -/
theorem not_mem_typedText (style : Style) (h : ∀ w ∈ words, IsWord w)
    (hsign : sign.isAlpha = false ∧ sign ≠ ' ') (htyped : sign ∉ (style.typed "").toList) :
    sign ∉ typedText style words := by
  apply not_mem_spaced hsign.2
  rw [List.forall_mem_map]
  intro w hw
  exact Style.not_mem_typed ((h w hw).not_mem hsign.1) htyped

theorem not_mem_alternatingText (style : Style) (h : ∀ w ∈ words, IsWord w)
    (hsign : sign.isAlpha = false ∧ sign ≠ ' ') (htyped : sign ∉ (style.typed "").toList)
    (hshown : sign ∉ (style.shown "").toList) : sign ∉ alternatingText style words := by
  apply not_mem_spaced hsign.2
  apply forall_mem_alternate
  intro w hw
  have hword := (h w hw).not_mem hsign.1
  exact ⟨Style.not_mem_shown hword hshown, Style.not_mem_typed hword htyped⟩

/-- The rules for videos, hosts and mails need a dot. -/
theorem apply_without_dot {cs : List Char} (h : '.' ∉ cs) :
    embedVideo.apply cs = cs ∧ linkHost.apply cs = cs ∧ linkMail.apply cs = cs := by
  have hdot : ¬Mentions "." cs := fun hm => h (mem_of_mentions (by decide) (by decide) hm)
  refine ⟨?_, ?_, ?_⟩
  · exact (requires_videoAddress (by decide) (by decide)).apply_eq_self (by simp [embedVideo]) hdot
  · exact (requires_hostAddress (by decide)).apply_eq_self (by simp [linkHost]) hdot
  · exact requires_mailAddress_dot.apply_eq_self (by simp [linkMail]) hdot

theorem linkifyChars_addresses (h : ∀ w ∈ words, IsWord w) :
    linkifyChars (typedText .address words) = alternatingText .address words := by
  have hdot : '.' ∉ typedText .address words :=
    not_mem_typedText .address h (by decide) (by decide)
  have hdots : '.' ∉ alternatingText .address words :=
    not_mem_alternatingText .address h (by decide) (by decide) (by decide)
  have hbold : '*' ∉ typedText .address words :=
    not_mem_typedText .address h (by decide) (by decide)
  have hitalic : '_' ∉ typedText .address words :=
    not_mem_typedText .address h (by decide) (by decide)
  have hbracket : ∀ x ∈ typedText .address words, x ≠ '<' ∧ x ≠ '>' := by
    intro x hx
    constructor
    · rintro rfl
      exact not_mem_typedText .address h (by decide) (by decide) hx
    · rintro rfl
      exact not_mem_typedText .address h (by decide) (by decide) hx
  have hweb : linkWeb.apply (typedText .address words) = alternatingText .address words :=
    rule_typedText .address h
  have hanchored : Anchored none (alternatingText .address words) (typedText .address words) := by
    rw [← hweb]
    exact links_linkWeb.anchored_apply (by decide) (.of_no_bracket hbracket)
  obtain ⟨hvideo, -, -⟩ := apply_without_dot hdot
  obtain ⟨-, hhost, hmail⟩ := apply_without_dot hdots
  rw [linkifyChars_eq, hvideo, hweb, hhost, hmail, hanchored.apply_emphasize hbold hitalic]

theorem linkifyChars_emphasis (face : Face) (h : ∀ w ∈ words, IsWord w) :
    linkifyChars (typedText (.emphasis face) words) = alternatingText (.emphasis face) words := by
  have hdot : '.' ∉ typedText (.emphasis face) words :=
    not_mem_typedText _ h (by decide) (by cases face <;> decide)
  have hcolon : ':' ∉ typedText (.emphasis face) words :=
    not_mem_typedText _ h (by decide) (by cases face <;> decide)
  have hmentions : ¬Mentions ":" (typedText (.emphasis face) words) :=
    fun hm => hcolon (mem_of_mentions (by decide) (by decide) hm)
  have hweb : linkWeb.apply (typedText (.emphasis face) words) = typedText (.emphasis face) words :=
    (requires_webAddress (by decide)).apply_eq_self (by simp [linkWeb]) hmentions
  obtain ⟨hvideo, hhost, hmail⟩ := apply_without_dot hdot
  have hface : (emphasize face.mark face.tag).apply (typedText (.emphasis face) words) =
      alternatingText (.emphasis face) words := rule_typedText (.emphasis face) h
  rw [linkifyChars_eq, hvideo, hweb, hhost, hmail]
  cases face with
  | bold =>
      have hline : '_' ∉ alternatingText (.emphasis .bold) words :=
        not_mem_alternatingText _ h (by decide) (by decide) (by decide)
      have hbold : (emphasize '*' "b").apply (typedText (.emphasis .bold) words) =
          alternatingText (.emphasis .bold) words := hface
      rw [hbold, emphasize_apply "i" (by decide) (by decide) hline]
  | italic =>
      have hstar : '*' ∉ typedText (.emphasis .italic) words :=
        not_mem_typedText _ h (by decide) (by decide)
      rw [emphasize_apply "b" (by decide) (by decide) hstar]
      exact hface

theorem head?_spaced (c : Char) (cs : List Char) (ws : List (List Char)) :
    ([' '].intercalate ((c :: cs) :: ws)).head? = some c := by
  cases ws with
  | nil => rw [List.intercalate_singleton, List.head?_cons]
  | cons w ws => rw [spaced_cons, List.cons_append, List.head?_cons]

/-- The second item tells whether all items have become markup. -/
theorem alternatingText_eq_iff (style : Style) (words : List String) :
    alternatingText style words = [' '].intercalate (words.map fun w => (style.shown w).toList) ↔
      words.length ≤ 1 := by
  match words with
  | [] => exact iff_of_true rfl (Nat.zero_le 1)
  | [w] => exact iff_of_true rfl (Nat.le_refl 1)
  | w :: v :: vs =>
      refine iff_of_false ?_ (by simp)
      intro heq
      obtain ⟨c, cs, htyped, hc⟩ := style.exists_typed_cons v
      obtain ⟨ds, hshown⟩ := style.exists_shown_cons v
      rw [alternatingText, spaced_alternate_cons, List.map_cons, List.map_cons, spaced_cons] at heq
      have hrest := (List.cons.inj (List.append_cancel_left heq)).2
      rw [alternate, htyped, hshown] at hrest
      have hhead := congrArg List.head? hrest
      rw [head?_spaced, head?_spaced] at hhead
      exact hc (Option.some.inj hhead)

end Lists

theorem toList_spaced (items : List String) :
    (" ".intercalate items).toList = [' '].intercalate (items.map String.toList) :=
  String.toList_intercalate

/-- Of the items of a list between single blanks, every other one becomes markup, beginning with the
first; the rest stays as it was typed. So all of them become markup only in a list of one. -/
theorem linkify_every_other_item (style : Style) (words : List String)
    (hwords : ∀ w ∈ words, IsWord w) :
    linkify (" ".intercalate (words.map style.typed)) =
        " ".intercalate (alternate style.shown style.typed words) ∧
      (linkify (" ".intercalate (words.map style.typed)) =
        " ".intercalate (words.map style.shown) ↔ words.length ≤ 1) := by
  have htyped : (" ".intercalate (words.map style.typed)).toList = typedText style words := by
    rw [toList_spaced, List.map_map]
    rfl
  have hshown : " ".intercalate (alternate style.shown style.typed words) =
      String.ofList (alternatingText style words) := by
    rw [← String.toList_inj, toList_spaced, map_alternate, String.toList_ofList]
    rfl
  have hlinkify : linkifyChars (typedText style words) = alternatingText style words := by
    cases style with
    | address => exact linkifyChars_addresses hwords
    | emphasis face => exact linkifyChars_emphasis face hwords
  have hall : " ".intercalate (words.map style.shown) =
      String.ofList ([' '].intercalate (words.map fun w => (style.shown w).toList)) := by
    rw [← String.toList_inj, toList_spaced, List.map_map, String.toList_ofList]
    rfl
  rw [linkify, htyped, hlinkify, hshown, hall]
  refine ⟨rfl, ?_⟩
  rw [String.ofList_inj]
  exact alternatingText_eq_iff style words

/-- Addresses and words in italics, three of each. -/
theorem linkify_every_other_item_of_three :
    (∀ w ∈ ["a", "b", "c"], IsWord w) ∧ linkify "_a_ _b_ _c_" = "<i>a</i> _b_ <i>c</i>" ∧
      linkify "http://a http://b http://c" =
        "<a target=\"_blank\" href=\"http://a\">http://a</a> http://b " ++
          "<a target=\"_blank\" href=\"http://c\">http://c</a>" := by
  have hwords : ∀ w ∈ ["a", "b", "c"], IsWord w := by decide
  have hitalic := (linkify_every_other_item (.emphasis .italic) ["a", "b", "c"] hwords).1
  have haddress := (linkify_every_other_item .address ["a", "b", "c"] hwords).1
  exact ⟨hwords, hitalic, haddress⟩

/-- The second of two items stays as it was typed, in each of the styles. -/
theorem linkify_skips_second_item :
    (∀ w ∈ ["a", "b"], IsWord w) ∧ ∀ style : Style,
      linkify (" ".intercalate (["a", "b"].map style.typed)) ≠
        " ".intercalate (["a", "b"].map style.shown) := by
  refine ⟨by decide, ?_⟩
  intro style
  cases style with
  | address => decide +kernel
  | emphasis face => cases face <;> decide +kernel

end PeerWatch.Markup
