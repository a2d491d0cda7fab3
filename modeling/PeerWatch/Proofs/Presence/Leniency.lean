import PeerWatch.Presence.Contact
import PeerWatch.Proofs.Json.Fields

/-!
# Contacts by what is given for their fields

A record that gives no field twice is read field by field, and reading it fails only where a field
is given something that it cannot hold. For the lenient fields there is no such thing.
-/

namespace PeerWatch.Presence

open PeerWatch.Json (AtMostOnce Raw Unit16 Value WholeKeys fieldOr? givenOr? knownOf textOfUnits
  valuesOf)

namespace Contact

/-- The contact with given fields, whose values have at most `depth` levels. -/
def ofGiven? (depth : Nat) (given : String → Option Raw) : Option Contact := do
  let lenient {α : Type} (field : String) (f : Value → α) (absent : α) : Option α :=
    givenOr? (fun r => (r.value? depth).map f) absent (given field)
  return {
    name := ← givenOr? Raw.optionalText? none (given "name")
    tracker := ← givenOr? Raw.optionalText? none (given "tracker")
    status := ← lenient "status" textOf ""
    messages := ← lenient "messages" countOf 0
    path := ← lenient "prefix" textOf ""
    hasNew := ← lenient "newmessages" flagOf false }

/-- What an object gives for a field that it has at most once. -/
def givenIn (fields : List (List Unit16 × Raw)) (field : String) : Option Raw :=
  (valuesOf field fields).head?

variable {depth : Nat} {fields : List (List Unit16 × Raw)} {given : String → Option Raw}

theorem ofRaw?_object (hdepth : depth ≠ 0) (hwhole : WholeKeys fields)
    (honce : AtMostOnce contactFields fields) :
    ofRaw? depth (.object fields) = ofGiven? (depth - 1) (givenIn fields) := by
  have hfound : (Raw.object fields).record? contactFields depth =
      some (knownOf contactFields fields) :=
    Json.record?_object_eq_some_iff.2 ⟨hdepth, hwhole, honce, rfl⟩
  have hfield : ∀ field ∈ contactFields, ∀ {α : Type} (decode : Raw → Option α) (absent : α),
      fieldOr? field decode absent (knownOf contactFields fields) =
        givenOr? decode absent (givenIn fields field) :=
    fun field hfield _ _ _ => Json.fieldOr?_knownOf hwhole hfield
  rw [ofRaw?, hfound]
  simp only [Option.bind_eq_bind, Option.bind_some, ofGiven?]
  rw [hfield "name" (by decide), hfield "tracker" (by decide), hfield "status" (by decide),
    hfield "messages" (by decide), hfield "prefix" (by decide), hfield "newmessages" (by decide)]

theorem ofRaw?_object_eq_none
    (h : ¬(depth ≠ 0 ∧ WholeKeys fields ∧ AtMostOnce contactFields fields)) :
    ofRaw? depth (.object fields) = none := by
  have hfound : (Raw.object fields).record? contactFields depth = none := by
    rw [Option.eq_none_iff_forall_ne_some]
    intro found hfound
    obtain ⟨hdepth, hwhole, honce, -⟩ := Json.record?_object_eq_some_iff.1 hfound
    exact h ⟨hdepth, hwhole, honce⟩
  rw [ofRaw?, hfound]
  rfl

/-- Only the fields of a contact are looked at. -/
theorem ofGiven?_congr {other : String → Option Raw}
    (h : ∀ field ∈ contactFields, given field = other field) :
    ofGiven? depth given = ofGiven? depth other := by
  simp only [ofGiven?]
  rw [h "name" (by decide), h "tracker" (by decide), h "status" (by decide),
    h "messages" (by decide), h "prefix" (by decide), h "newmessages" (by decide)]

end Contact

/-! ## Acceptance -/

/-- The value is a text or `null`, as a name and a tracker must be. -/
def IsTextOrNull (v : Raw) : Prop := v = .null ∨ ∃ units, v = .string units

theorem optionalText?_isSome_iff {v : Raw} {depth : Nat} (h : (v.value? depth).isSome = true) :
    v.optionalText?.isSome = true ↔ IsTextOrNull v := by
  cases v with
  | string units =>
      rw [Raw.value?, Option.isSome_map] at h
      simp [Raw.optionalText?, IsTextOrNull, h]
  | _ => simp [Raw.optionalText?, IsTextOrNull]

theorem givenOr?_isSome_iff {α : Type} {decode : Raw → Option α} {absent : α}
    {given : Option Raw} :
    (givenOr? decode absent given).isSome = true ↔ ∀ v ∈ given, (decode v).isSome = true := by
  cases given <;> simp [givenOr?]

/-- Where every value that is given can be kept, the fields make a contact unless a name or a
tracker is given that is neither a text nor `null`. -/
theorem Contact.ofGiven?_isSome_iff {depth : Nat} {given : String → Option Raw}
    (h : ∀ field, ∀ v ∈ given field, (v.value? depth).isSome = true) :
    (ofGiven? depth given).isSome = true ↔
      ∀ field ∈ ["name", "tracker"], ∀ v ∈ given field, IsTextOrNull v := by
  have hlenient : ∀ field, ∀ {α : Type} (f : Value → α) (absent : α),
      (givenOr? (fun r => (r.value? depth).map f) absent (given field)).isSome = true := by
    intro field α f absent
    rw [givenOr?_isSome_iff]
    intro v hv
    rw [Option.isSome_map]
    exact h field v hv
  have hstrict : ∀ field, (givenOr? Raw.optionalText? none (given field)).isSome = true ↔
      ∀ v ∈ given field, IsTextOrNull v := by
    intro field
    rw [givenOr?_isSome_iff]
    exact forall₂_congr fun v hv => optionalText?_isSome_iff (h field v hv)
  obtain ⟨status, hstatus⟩ := Option.isSome_iff_exists.1 (hlenient "status" textOf "")
  obtain ⟨messages, hmessages⟩ := Option.isSome_iff_exists.1 (hlenient "messages" countOf 0)
  obtain ⟨path, hpath⟩ := Option.isSome_iff_exists.1 (hlenient "prefix" textOf "")
  obtain ⟨hasNew, hnew⟩ := Option.isSome_iff_exists.1 (hlenient "newmessages" flagOf false)
  simp only [ofGiven?, hstatus, hmessages, hpath, hnew, Option.bind_eq_bind, Option.bind_some,
    List.forall_mem_cons, ← hstrict]
  cases givenOr? Raw.optionalText? none (given "name") <;>
    cases givenOr? Raw.optionalText? none (given "tracker") <;> simp

end PeerWatch.Presence
