import PeerWatch.Proofs.Markup.Element

/-!
# Text between two rules

After some of the rules a text consists of items, and of what is left of elements whose beginning
was taken into an address. Whether such a text is well formed is seen block by block, and so is where
a rule may find a match in it.
-/

namespace PeerWatch.Markup

open PeerWatch.Text

/-! ## Blocks -/

/-- An item, and what is left of an element whose beginning is a part of the item's address. -/
structure Block where
  item : Item
  rest : List Char
  deriving DecidableEq, Repr

namespace Block

def text (b : Block) : List Char := b.item.text ++ b.rest

def Sound (b : Block) : Prop := b.item.Sound

/-- What is known of a block whatever the text is that it comes from. -/
def Loose (b : Block) : Prop :=
  b.item.Loose ∧ isSealed b.rest ∧ (b.rest = [] ∨ ¬b.item.Sound)

/-- A plain character that is neither of the brackets of a tag. -/
def Plain (b : Block) : Prop := ∃ c, b = ⟨.plain c, []⟩ ∧ c ≠ '<' ∧ c ≠ '>'

/-- A loose block that is not emphasized. -/
def Linked (b : Block) : Prop := b.Loose ∧ ∀ face body, b.item ≠ .emphasis face body

theorem Plain.linked {b : Block} (h : b.Plain) : b.Linked := by
  obtain ⟨c, rfl, hc⟩ := h
  exact ⟨⟨hc, rfl, .inl rfl⟩, fun _ _ => Item.noConfusion⟩

theorem linked_link {kind : LinkKind} {address rest : List Char}
    (hloose : (Item.link kind address).Loose) (hsealed : isSealed rest)
    (hrest : rest = [] ∨ ¬(Item.link kind address).Sound) : Linked ⟨.link kind address, rest⟩ :=
  ⟨⟨hloose, hsealed, hrest⟩, fun _ _ => Item.noConfusion⟩

theorem Plain.sound {b : Block} (h : b.Plain) : b.Sound := by
  obtain ⟨c, rfl, hc⟩ := h
  exact hc

theorem Loose.plain_or {b : Block} (h : b.Loose) : b.Plain ∨ ∃ cs, b.text = '<' :: cs := by
  obtain ⟨item, rest⟩ := b
  by_cases hitem : ∃ c, item = .plain c
  · obtain ⟨c, rfl⟩ := hitem
    have hrest : rest = [] := h.2.2.resolve_right (not_not_intro h.1)
    exact .inl ⟨c, hrest ▸ rfl, h.1⟩
  · exact .inr ⟨_, Item.text_eq (not_exists.1 hitem) rest⟩

theorem Linked.plain_or {b : Block} (h : b.Linked) :
    b.Plain ∨ ∃ kind address rest, b = ⟨.link kind address, rest⟩ := by
  rcases h.1.plain_or with hplain | ⟨cs, hcs⟩
  · exact .inl hplain
  · obtain ⟨item, rest⟩ := b
    cases item with
    | plain c => exact absurd (List.cons.inj hcs).1 h.1.1.1
    | link kind address => exact .inr ⟨kind, address, rest, rfl⟩
    | emphasis face body => exact absurd rfl (h.2 face body)

end Block

/-! ## Reading blocks -/

theorem sound_of_text_eq {blocks : List Block} {items : List Item} (hblocks : ∀ b ∈ blocks, b.Loose)
    (hitems : ∀ i ∈ items, i.Sound)
    (htext : blocks.flatMap Block.text = items.flatMap Item.text) : ∀ b ∈ blocks, b.Sound := by
  induction blocks generalizing items with
  | nil => exact fun _ hb => absurd hb List.not_mem_nil
  | cons b bs ih =>
      obtain ⟨⟨hitem, -, hrest⟩, hbs⟩ := List.forall_mem_cons.1 hblocks
      cases items with
      | nil =>
          have hempty : b.item.text ++ b.rest = [] := (List.append_eq_nil_iff.1 htext).1
          exact absurd (List.append_eq_nil_iff.1 hempty).1 b.item.text_ne_nil
      | cons i is =>
          obtain ⟨hi, his⟩ := List.forall_mem_cons.1 hitems
          rw [List.flatMap_cons, List.flatMap_cons, Block.text, List.append_assoc] at htext
          obtain ⟨hsound, heq⟩ := Item.sound_of_append_eq hitem hi htext
          have hnone : b.rest = [] := hrest.resolve_right (not_not_intro hsound)
          rw [hnone] at heq
          exact List.forall_mem_cons.2 ⟨hsound, ih hbs his heq⟩

/-- A text of blocks is well formed exactly if no item has taken a quote or the beginning of another
element into its address. -/
theorem wellFormed_blocks_iff {blocks : List Block} (h : ∀ b ∈ blocks, b.Loose) :
    WellFormed (blocks.flatMap Block.text) ↔ ∀ b ∈ blocks, b.Sound := by
  constructor
  · rintro ⟨items, htext, hitems⟩
    exact sound_of_text_eq h hitems htext
  · intro hsound
    refine ⟨blocks.map Block.item, ?_, List.forall_mem_map.2 hsound⟩
    rw [List.flatMap_map]
    refine List.flatMap_congr fun b hb => ?_
    have hrest : b.rest = [] := (h b hb).2.2.resolve_right (not_not_intro (hsound b hb))
    rw [Block.text, hrest, List.append_nil]

/-! ## Plain characters -/

def plains (cs : List Char) : List Block := cs.map fun c => ⟨.plain c, []⟩

theorem flatMap_plains (cs : List Char) : (plains cs).flatMap Block.text = cs := by
  rw [plains, List.flatMap_map]
  exact List.flatMap_singleton' cs

theorem plain_of_mem_plains {cs : List Char} (h : ∀ c ∈ cs, c ≠ '<' ∧ c ≠ '>') :
    ∀ b ∈ plains cs, b.Plain :=
  List.forall_mem_map.2 fun c hc => ⟨c, rfl, h c hc⟩

/-- What begins a text of blocks and holds no bracket is a number of plain characters. -/
theorem exists_plains {blocks : List Block} (h : ∀ b ∈ blocks, b.Loose) {w rest : List Char}
    (htext : blocks.flatMap Block.text = w ++ rest) (hw : '<' ∉ w) :
    ∃ bs, blocks = plains w ++ bs ∧ bs.flatMap Block.text = rest ∧
      ∀ c ∈ w, c ≠ '<' ∧ c ≠ '>' := by
  induction w generalizing blocks with
  | nil => exact ⟨blocks, rfl, htext, fun _ hc => absurd hc List.not_mem_nil⟩
  | cons c w ih =>
      cases blocks with
      | nil => exact absurd htext (by simp)
      | cons b bs =>
          obtain ⟨hb, hbs⟩ := List.forall_mem_cons.1 h
          rw [List.flatMap_cons] at htext
          rcases hb.plain_or with ⟨d, rfl, hd⟩ | ⟨cs, hcs⟩
          · obtain ⟨rfl, htail⟩ := List.cons.inj htext
            obtain ⟨bs', rfl, hrest, hplain⟩ :=
              ih hbs htail fun hmem => hw (List.mem_cons_of_mem _ hmem)
            exact ⟨bs', rfl, hrest, List.forall_mem_cons.2 ⟨hd, hplain⟩⟩
          · rw [hcs] at htext
            exact absurd ((List.cons.inj htext).1 ▸ List.mem_cons_self) hw

/-- The text reads as blocks of a kind, which are all sound exactly under a condition. -/
abbrev Reads (Kind : Block → Prop) : List Char → Prop → Prop := Consists Block.text Kind Block.Sound

theorem reads_plain {Kind : Block → Prop} (hkind : ∀ b : Block, b.Plain → Kind b) {cs : List Char}
    (h : ∀ c ∈ cs, c ≠ '<' ∧ c ≠ '>') : Reads Kind cs True := by
  have hplain := plain_of_mem_plains h
  exact ⟨plains cs, (flatMap_plains cs).symm, fun b hb => hkind b (hplain b hb),
    ⟨fun _ => trivial, fun _ b hb => (hplain b hb).sound⟩⟩

/-- A match of plain characters puts one item in their place, between characters it leaves there. -/
theorem exchange_item {sub : Substitution} {New : Block → Prop} {fine : Prop}
    {ws : List (List Char)} {last : Cursor} {blocks : List Block} {lead tail rest : List Char}
    {item : Item} (hold : ∀ b ∈ blocks, b.Loose) (hnew : ∀ b : Block, b.Plain → New b)
    (htext : blocks.flatMap Block.text = ws.flatten ++ rest) (hopen : '<' ∉ ws.flatten)
    (hne : ws.flatten ≠ []) (hfill : sub.fill ws = lead ++ (item.text ++ tail))
    (hlead : lead ⊆ ws.flatten) (htail : tail ⊆ ws.flatten)
    (hitem : (∀ x ∈ ws.flatten, x ≠ '<' ∧ x ≠ '>') → New ⟨item, []⟩ ∧ (item.Sound ↔ fine)) :
    ∃ taken behind left, blocks = taken ++ behind ∧
      Exchange sub Block.text New Block.Sound fine ws last taken left := by
  obtain ⟨bs, rfl, -, hplain⟩ := exists_plains hold htext hopen
  obtain ⟨hkind, hsound⟩ := hitem hplain
  have htaken : ∀ b ∈ plains ws.flatten, b.Sound :=
    fun b hb => (plain_of_mem_plains hplain b hb).sound
  have hmade : Reads New (lead ++ ((⟨item, []⟩ : Block).text ++ tail)) (True ∧ item.Sound ∧ True) :=
    (reads_plain hnew fun x hx => hplain x (hlead hx)).append
      ((Consists.single hkind).append (reads_plain hnew fun x hx => hplain x (htail hx)))
  refine ⟨_, bs, [], rfl, ⟨hne, ?_, trivial, ?_⟩⟩
  · rw [flatMap_plains, List.append_nil]
  · rw [Block.text, List.append_nil] at hmade
    rw [hfill, List.append_nil]
    exact hmade.congr (by rw [true_and, and_true, and_iff_right htaken, hsound])

/-! ## Tags that no rule looks into -/

theorem isSealed_link {kind : LinkKind} {address : List Char}
    (h : (Item.link kind address).Loose) : isSealed (Item.link kind address).text := by
  have haddress : isSealed address := isSealed_of_no_blank fun c hc => (h c hc).1
  have hcontent : isSealed (kind.content address) := by
    cases kind with
    | frame => rfl
    | _ => exact haddress
  have hopening : isSealed kind.opening.toList := by cases kind <;> decide
  have hending : isSealed kind.ending.toList := by cases kind <;> decide
  have hclosing : isSealed kind.closing.toList := by cases kind <;> decide
  exact isSealed_append (isSealed_append (isSealed_append (isSealed_append hopening haddress)
    hending) hcontent) hclosing

theorem isShut_open (cs : List Char) : isShut ('<' :: cs) := by
  have hletter : isLetter '<' = false := by decide
  have hopener : isOpener '<' = false := by decide
  simp [isShut, hletter, hopener]

namespace Block

theorem isSealed_text {kind : LinkKind} {address rest : List Char}
    (h : (⟨.link kind address, rest⟩ : Block).Loose) :
    isSealed (⟨.link kind address, rest⟩ : Block).text :=
  isSealed_append (isSealed_link h.1) h.2.1

/-- A substitution passes over whole blocks if its matches begin with addresses or marks. -/
theorem Linked.passes {sub : Substitution} (hsub : LeadsOpen sub) {b : Block} (h : b.Linked) :
    (∃ x, b.text = [x]) ∨ b.text ≠ [] ∧ ∀ before, sub.Inert before b.text := by
  rcases h.plain_or with ⟨c, rfl, -⟩ | ⟨kind, address, rest, rfl⟩
  · exact .inl ⟨c, rfl⟩
  · have hlink : ∀ c, Item.link kind address ≠ .plain c := fun _ => Item.noConfusion
    have htext := Item.text_eq hlink rest
    refine .inr ⟨?_, fun before => hsub.inert (isSealed_text h.1) fun _ => ?_⟩
    · rw [text, htext]
      exact List.cons_ne_nil _ _
    · rw [text, htext]
      exact isShut_open _

end Block

def LinkKind.name : LinkKind → String
  | .frame => "iframe"
  | _ => "a"

/-- An element with an address begins with its name and a blank. -/
theorem exists_attributes {kind : LinkKind} {address rest : List Char}
    (h : (⟨.link kind address, rest⟩ : Block).Loose) :
    ∃ attributes, isSealed (' ' :: attributes) ∧
      (⟨.link kind address, rest⟩ : Block).text =
        '<' :: (kind.name.toList ++ ' ' :: attributes) := by
  have hopening : kind.opening.toList = '<' :: (kind.name.toList ++ ' ' ::
      kind.opening.toList.drop (kind.name.toList.length + 2)) := by
    cases kind <;> decide
  have htext : (⟨.link kind address, rest⟩ : Block).text = '<' :: (kind.name.toList ++ ' ' ::
      (kind.opening.toList.drop (kind.name.toList.length + 2) ++ (address ++ (kind.ending.toList ++
        (kind.content address ++ (kind.closing.toList ++ rest)))))) := by
    change kind.opening.toList ++ address ++ kind.ending.toList ++ kind.content address ++
      kind.closing.toList ++ rest = _
    generalize kind.opening.toList.drop (kind.name.toList.length + 2) = ds at hopening
    rw [hopening]
    simp only [List.append_assoc, List.cons_append]
  refine ⟨_, ?_, htext⟩
  have hsealed := Block.isSealed_text h
  rw [htext] at hsealed
  exact isSealed_of_append ('<' :: kind.name.toList) hsealed

end PeerWatch.Markup
