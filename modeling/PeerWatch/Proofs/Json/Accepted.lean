import PeerWatch.Directory.Listing
import PeerWatch.Presence.Contact
import PeerWatch.Proofs.Json.Grammar

/-!
# Bodies that are accepted

The check takes every JSON text. A listing takes those whose value can be kept, and a contact list
those that are `null` or whose records can be decoded, and neither of these includes the other. All
are told by the tree that the text holds, so what is accepted otherwise passes the check.
-/

namespace PeerWatch

open Json (Document Raw isJson isJson_iff maxDepth read?_eq_some_iff)

theorem Directory.Listing.ofValue_ne_failed (user : Option String) (v : Json.Value) :
    Listing.ofValue user v ≠ .failed := by
  unfold Listing.ofValue
  split <;> exact Listing.noConfusion

/-- A request for a listing has not failed just where the body is a JSON text whose value is kept:
within the levels of values, with numbers in range and strings of whole characters. -/
theorem Directory.Listing.ofBody_ne_failed_iff {body : String} {user : Option String} :
    Listing.ofBody body user ≠ .failed ↔
      ∃ tree, Document tree body.toList ∧ (tree.value? maxDepth).isSome = true := by
  have hread : Listing.ofBody body user ≠ .failed ↔ (Json.Value.read? body).isSome = true := by
    rw [Listing.ofBody]
    cases Json.Value.read? body with
    | none => simp
    | some v => simp [ofValue_ne_failed user v]
  rw [hread, Json.Value.read?, Option.isSome_iff_exists]
  simp only [Option.bind_eq_bind, Option.bind_eq_some_iff, read?_eq_some_iff,
    Option.isSome_iff_exists]
  exact ⟨fun ⟨v, tree, hdoc, hv⟩ => ⟨tree, hdoc, v, hv⟩,
    fun ⟨tree, hdoc, v, hv⟩ => ⟨v, tree, hdoc, hv⟩⟩

/-- A body is decoded as a contact list just where it is a JSON text that is `null` or whose tree is
that of a contact list. -/
theorem Presence.ContactList.decode?_isSome_iff {body : String} :
    (ContactList.decode? body).isSome = true ↔
      ∃ tree, Document tree body.toList ∧
        (tree = .null ∨ (ContactList.ofRaw? maxDepth tree).isSome = true) := by
  rw [ContactList.decode?, Json.payload?]
  simp only [← read?_eq_some_iff]
  cases Raw.read? body.toList with
  | none => simp
  | some tree => cases tree <;> simp

/-- The check rejects no body that is decoded, be it as a listing or as a contact list, and a body
that is decoded holds the tree that it is decoded from and no other. -/
theorem decoded_body_isJson (body : String) (user : Option String)
    (h : Directory.Listing.ofBody body user ≠ .failed ∨
      (Presence.ContactList.decode? body).isSome = true) :
    isJson body = true ∧ ∃! tree, Document tree body.toList := by
  obtain ⟨tree, hdoc⟩ : ∃ tree, Document tree body.toList := by
    rcases h with h | h
    · obtain ⟨tree, hdoc, -⟩ := Directory.Listing.ofBody_ne_failed_iff.1 h
      exact ⟨tree, hdoc⟩
    · obtain ⟨tree, hdoc, -⟩ := Presence.ContactList.decode?_isSome_iff.1 h
      exact ⟨tree, hdoc⟩
  exact ⟨isJson_iff.2 ⟨tree, hdoc⟩, tree, hdoc, fun other hother => hother.unique hdoc⟩

/-- Half of a surrogate pair in a member that no record knows: it is skipped, though no value could
hold it. -/
theorem skipped_half_isJson :
    let body := "\x7b\"contacts\":\x7b\"bob\":" ++
      "\x7b\"status\":\"found\",\"mood\":[\"\\ud800\"]\x7d\x7d\x7d "
    Directory.Listing.ofBody body none = .failed ∧
      (Presence.ContactList.decode? body).isSome = true ∧ isJson body = true := by
  intro body
  have hdecoded : (Presence.ContactList.decode? body).isSome = true := by decide +kernel
  exact ⟨by decide +kernel, hdecoded, (decoded_body_isJson body none (.inr hdecoded)).1⟩

end PeerWatch
