import PeerWatch.Json.Decode

/-!
# Fields of a record

The values that an object gives under a key, and what reading a record makes of them: it depends on
the values of the known fields alone, provided that none of them is given twice and that the text of
every key can be told.
-/

namespace PeerWatch.Json

/-- The members of an object; other values have none. -/
def Raw.members : Raw → List (List Unit16 × Raw)
  | .object members => members
  | _ => []

/-- The values that are given under a key, in their order. -/
def valuesOf (key : String) (members : List (List Unit16 × Raw)) : List Raw :=
  (members.filter fun m => textOfUnits m.1 = some key).map (·.2)

/-- None of the keys is given more than once. -/
def AtMostOnce (keys : List String) (members : List (List Unit16 × Raw)) : Prop :=
  ∀ key ∈ keys, (valuesOf key members).length ≤ 1

instance (keys : List String) (members : List (List Unit16 × Raw)) :
    Decidable (AtMostOnce keys members) :=
  inferInstanceAs (Decidable (∀ key ∈ keys, (valuesOf key members).length ≤ 1))

/-- The text of every key can be told. -/
def WholeKeys (members : List (List Unit16 × Raw)) : Prop :=
  ∀ m ∈ members, (textOfUnits m.1).isSome = true

/-- The members under one of the keys, with their texts. -/
def knownOf (keys : List String) (members : List (List Unit16 × Raw)) : List (String × Raw) :=
  members.filterMap fun m =>
    match textOfUnits m.1 with
    | some key => if key ∈ keys then some (key, m.2) else none
    | none => none

variable {keys : List String} {key : String} {units : List Unit16} {raw : Raw}
  {members others : List (List Unit16 × Raw)}

theorem valuesOf_append :
    valuesOf key (members ++ others) = valuesOf key members ++ valuesOf key others := by
  rw [valuesOf, List.filter_append, List.map_append]
  rfl

theorem valuesOf_cons_self (h : textOfUnits units = some key) :
    valuesOf key ((units, raw) :: members) = raw :: valuesOf key members := by
  rw [valuesOf, List.filter_cons_of_pos (by simpa using h)]
  rfl

theorem valuesOf_cons_of_ne (h : textOfUnits units ≠ some key) :
    valuesOf key ((units, raw) :: members) = valuesOf key members := by
  rw [valuesOf, List.filter_cons_of_neg (by simpa using h)]
  rfl

theorem knownOf_cons_of_mem (h : textOfUnits units = some key) (hkey : key ∈ keys) :
    knownOf keys ((units, raw) :: members) = (key, raw) :: knownOf keys members := by
  have hhead : (match textOfUnits (units, raw).1 with
      | some key => if key ∈ keys then some (key, (units, raw).2) else none
      | none => none) = some (key, raw) := by
    rw [h]
    exact if_pos hkey
  exact List.filterMap_cons_some hhead

theorem knownOf_cons_of_not_mem (h : textOfUnits units = some key) (hkey : key ∉ keys) :
    knownOf keys ((units, raw) :: members) = knownOf keys members := by
  have hhead : (match textOfUnits (units, raw).1 with
      | some key => if key ∈ keys then some (key, (units, raw).2) else none
      | none => none) = none := by
    rw [h]
    exact if_neg hkey
  exact List.filterMap_cons_none hhead

theorem WholeKeys.of_cons (h : WholeKeys ((units, raw) :: members)) :
    (∃ key, textOfUnits units = some key) ∧ WholeKeys members :=
  ⟨Option.isSome_iff_exists.1 (h _ List.mem_cons_self),
    fun m hm => h m (List.mem_cons_of_mem _ hm)⟩

/-- Among the known members, a key has the values that it has among all of them. -/
theorem filter_knownOf (hwhole : WholeKeys members) (hkey : key ∈ keys) :
    ((knownOf keys members).filter (·.1 = key)).map (·.2) = valuesOf key members := by
  induction members with
  | nil => rfl
  | cons m members ih =>
      obtain ⟨units, raw⟩ := m
      obtain ⟨⟨text, htext⟩, hrest⟩ := hwhole.of_cons
      have ih := ih hrest
      by_cases heq : text = key
      · subst heq
        rw [knownOf_cons_of_mem htext hkey, valuesOf_cons_self htext,
          List.filter_cons_of_pos (by simp), List.map_cons, ih]
      · have hne : textOfUnits units ≠ some key := by
          rw [htext]
          exact fun h => heq (Option.some.inj h)
        rw [valuesOf_cons_of_ne hne]
        by_cases hknown : text ∈ keys
        · rw [knownOf_cons_of_mem htext hknown, List.filter_cons_of_neg (by simpa using heq), ih]
        · rw [knownOf_cons_of_not_mem htext hknown, ih]

theorem find?_knownOf (hwhole : WholeKeys members) (hkey : key ∈ keys) :
    ((knownOf keys members).find? (·.1 = key)).map (·.2) = (valuesOf key members).head? := by
  rw [← filter_knownOf hwhole hkey, List.head?_map, List.head?_filter]

theorem any_knownOf (hwhole : WholeKeys members) (hkey : key ∈ keys) :
    (knownOf keys members).any (·.1 = key) = false ↔ valuesOf key members = [] := by
  rw [← filter_knownOf hwhole hkey, List.map_eq_nil_iff, List.filter_eq_nil_iff, List.any_eq_false]

theorem atMostOnce_cons_of_mem (h : textOfUnits units = some key) (hkey : key ∈ keys) :
    AtMostOnce keys ((units, raw) :: members) ↔
      AtMostOnce keys members ∧ valuesOf key members = [] := by
  constructor
  · intro honce
    constructor
    · intro other hother
      have hle := honce other hother
      by_cases heq : textOfUnits units = some other
      · rw [valuesOf_cons_self heq, List.length_cons] at hle
        omega
      · rwa [valuesOf_cons_of_ne heq] at hle
    · have hle := honce key hkey
      rw [valuesOf_cons_self h, List.length_cons] at hle
      exact List.eq_nil_of_length_eq_zero (by omega)
  · rintro ⟨honce, hnone⟩ other hother
    by_cases heq : textOfUnits units = some other
    · obtain rfl : key = other := Option.some.inj (h.symm.trans heq)
      rw [valuesOf_cons_self h, hnone]
      exact Nat.le_refl 1
    · rw [valuesOf_cons_of_ne heq]
      exact honce other hother

theorem atMostOnce_cons_of_not_mem (h : textOfUnits units = some key) (hkey : key ∉ keys) :
    AtMostOnce keys ((units, raw) :: members) ↔ AtMostOnce keys members := by
  refine forall₂_congr fun other hother => ?_
  have hne : textOfUnits units ≠ some other := by
    rw [h]
    rintro heq
    exact hkey (Option.some.inj heq ▸ hother)
  rw [valuesOf_cons_of_ne hne]

/-- The known members of an object can be told just where its keys can, and no field is given
twice. -/
theorem knownMembers?_eq_some_iff {found : List (String × Raw)} :
    knownMembers? keys members = some found ↔
      WholeKeys members ∧ AtMostOnce keys members ∧ knownOf keys members = found := by
  induction members generalizing found with
  | nil =>
      have hwhole : WholeKeys [] := fun _ h => absurd h List.not_mem_nil
      have honce : AtMostOnce keys [] := fun _ _ => Nat.zero_le 1
      simp [knownMembers?, hwhole, honce, knownOf]
  | cons m members ih =>
      obtain ⟨units, raw⟩ := m
      cases htext : textOfUnits units with
      | none =>
          have hwhole : ¬ WholeKeys ((units, raw) :: members) := by
            intro h
            obtain ⟨⟨key, hkey⟩, -⟩ := h.of_cons
            simp [htext] at hkey
          simp [knownMembers?, htext, hwhole]
      | some key =>
          have hwhole : WholeKeys ((units, raw) :: members) ↔ WholeKeys members := by
            simp [WholeKeys, htext]
          rw [knownMembers?, hwhole]
          simp only [htext, Option.bind_eq_bind, Option.bind_some, Option.bind_eq_some_iff, ih]
          by_cases hkey : key ∈ keys
          · rw [atMostOnce_cons_of_mem htext hkey, knownOf_cons_of_mem htext hkey]
            simp only [List.contains_iff_mem.2 hkey, if_true]
            constructor
            · rintro ⟨_, ⟨hkeys, honce, rfl⟩, hfound⟩
              cases hany : (knownOf keys members).any (·.1 = key) with
              | true => simp [hany] at hfound
              | false =>
                  refine ⟨hkeys, ⟨honce, (any_knownOf hkeys hkey).1 hany⟩, ?_⟩
                  simpa [hany] using hfound
            · rintro ⟨hkeys, ⟨honce, hnone⟩, hfound⟩
              refine ⟨_, ⟨hkeys, honce, rfl⟩, ?_⟩
              rw [(any_knownOf hkeys hkey).2 hnone, ← hfound]
              rfl
          · rw [atMostOnce_cons_of_not_mem htext hkey, knownOf_cons_of_not_mem htext hkey]
            have hcontains : keys.contains key = false := by simpa using hkey
            simp only [hcontains]
            constructor
            · rintro ⟨_, ⟨hkeys, honce, rfl⟩, hfound⟩
              exact ⟨hkeys, honce, Option.some.inj hfound⟩
            · rintro ⟨hkeys, honce, rfl⟩
              exact ⟨_, ⟨hkeys, honce, rfl⟩, rfl⟩

/-! ## Records -/

/-- A field as it is given, decoded, or `absent`. -/
def givenOr? {α : Type} (decode : Raw → Option α) (absent : α) : Option Raw → Option α
  | none => some absent
  | some raw => decode raw

theorem fieldOr?_knownOf {α : Type} {decode : Raw → Option α} {absent : α}
    (hwhole : WholeKeys members) (hkey : key ∈ keys) :
    fieldOr? key decode absent (knownOf keys members) =
      givenOr? decode absent (valuesOf key members).head? := by
  rw [← find?_knownOf hwhole hkey, fieldOr?]
  cases (knownOf keys members).find? (·.1 = key) <;> rfl

/-- What reading an object as a record comes to, when only its fields are looked at. -/
theorem record?_object_eq_some_iff {depth : Nat} {found : List (String × Raw)} :
    (Raw.object members).record? keys depth = some found ↔
      depth ≠ 0 ∧ WholeKeys members ∧ AtMostOnce keys members ∧ knownOf keys members = found := by
  rw [Raw.record?, ← knownMembers?_eq_some_iff]
  by_cases hdepth : depth = 0 <;> simp [hdepth]

/-! ## Values that are kept -/

/-- The keys and values of an object that is kept are kept themselves. -/
theorem kept_members {depth : Nat} {kept : List (String × Value)}
    (h : (rawMembers? depth members kept).isSome = true) :
    WholeKeys members ∧ ∀ m ∈ members, (m.2.value? depth).isSome = true := by
  induction members generalizing kept with
  | nil => exact ⟨fun _ h => absurd h List.not_mem_nil, fun _ h => absurd h List.not_mem_nil⟩
  | cons m members ih =>
      obtain ⟨units, raw⟩ := m
      obtain ⟨all, hall⟩ := Option.isSome_iff_exists.1 h
      simp only [rawMembers?, Option.bind_eq_bind, Option.bind_eq_some_iff] at hall
      obtain ⟨key, hkey, value, hvalue, hrest⟩ := hall
      obtain ⟨hwhole, hvalues⟩ := ih (Option.isSome_iff_exists.2 ⟨all, hrest⟩)
      constructor
      · exact List.forall_mem_cons.2 ⟨Option.isSome_iff_exists.2 ⟨key, hkey⟩, hwhole⟩
      · exact List.forall_mem_cons.2 ⟨Option.isSome_iff_exists.2 ⟨value, hvalue⟩, hvalues⟩

theorem kept_object {depth : Nat} (h : ((Raw.object members).value? depth).isSome = true) :
    ∃ inner, depth = inner + 1 ∧ WholeKeys members ∧
      ∀ m ∈ members, (m.2.value? inner).isSome = true := by
  cases depth with
  | zero => simp [Raw.value?] at h
  | succ inner =>
      rw [Raw.value?, Option.isSome_map] at h
      exact ⟨inner, rfl, kept_members h⟩

theorem mem_of_mem_valuesOf (h : raw ∈ valuesOf key members) :
    ∃ units, (units, raw) ∈ members ∧ textOfUnits units = some key := by
  rw [valuesOf, List.mem_map] at h
  obtain ⟨⟨units, _⟩, hmem, rfl⟩ := h
  rw [List.mem_filter] at hmem
  exact ⟨units, hmem.1, by simpa using hmem.2⟩

end PeerWatch.Json
