import Mathlib.Data.List.Induction
import PeerWatch.Proofs.Session.Login

/-!
# Cookies set and removed

A jar behaves as a map in header order. A header may hold a name several times, of which the first
counts: setting a cookie changes the first one and removing takes all of them, so that no value that
stood behind another comes to light. What a series of edits leaves is told by the last edit of each
name.
-/

namespace PeerWatch.Session

/-- A change of the cookies of one name. -/
inductive Edit
  | set (name value : String)
  | remove (name : String)
  deriving DecidableEq, Repr

namespace Edit

def name : Edit → String
  | .set n _ => n
  | .remove n => n

/-- The value that the edit leaves under its name, as it was given. -/
def left? : Edit → Option String
  | .set _ v => some v
  | .remove _ => none

end Edit

namespace CookieJar

def edit (jar : CookieJar) : Edit → CookieJar
  | .set n v => jar.set n v
  | .remove n => jar.remove n

def editAll (jar : CookieJar) (edits : List Edit) : CookieJar := edits.foldl edit jar

/-- The last edit of a name. -/
def lastEdit? (name : String) (edits : List Edit) : Option Edit :=
  edits.reverse.find? (·.name = name)

/-! ## Pairs -/

variable {jar : CookieJar} {n v : String}

theorem mem_names_iff : n ∈ jar.names ↔ ∃ pair ∈ jar.pairs, pair.1 = n := by
  rw [names, List.mem_map]

/-- The value of a cookie is that of its first pair. -/
theorem raw?_eq_some_iff : jar.raw? n = some v ↔
    ∃ before after, jar.pairs = before ++ (n, v) :: after ∧ ∀ pair ∈ before, pair.1 ≠ n := by
  rw [raw?, Option.map_eq_some_iff]
  constructor
  · rintro ⟨⟨name, value⟩, hfind, rfl⟩
    rw [List.find?_eq_some_iff_append] at hfind
    obtain ⟨hname, before, after, hpairs, hbefore⟩ := hfind
    obtain rfl : name = n := by simpa using hname
    exact ⟨before, after, hpairs, fun pair hpair => by simpa using hbefore pair hpair⟩
  · rintro ⟨before, after, hpairs, hbefore⟩
    refine ⟨(n, v), ?_, rfl⟩
    rw [List.find?_eq_some_iff_append]
    exact ⟨by simp, before, after, hpairs, fun pair hpair => by simpa using hbefore pair hpair⟩

theorem raw?_eq_none_iff : jar.raw? n = none ↔ n ∉ jar.names := by
  rw [raw?, Option.map_eq_none_iff, List.find?_eq_none, mem_names_iff]
  simp only [decide_eq_true_eq, not_exists, not_and]

theorem exists_first (h : n ∈ jar.names) : ∃ before value after,
    jar.pairs = before ++ (n, value) :: after ∧ ∀ pair ∈ before, pair.1 ≠ n := by
  have hsome : jar.raw? n ≠ none := fun hnone => raw?_eq_none_iff.1 hnone h
  obtain ⟨value, hvalue⟩ := Option.ne_none_iff_exists'.1 hsome
  obtain ⟨before, after, hpairs, hbefore⟩ := raw?_eq_some_iff.1 hvalue
  exact ⟨before, value, after, hpairs, hbefore⟩

theorem setPair_append {before : List (String × String)} (h : ∀ pair ∈ before, pair.1 ≠ n)
    (rest : List (String × String)) :
    setPair n v (before ++ rest) = before ++ setPair n v rest := by
  induction before with
  | nil => rfl
  | cons pair before ih =>
      have hne : pair.1 ≠ n := h pair List.mem_cons_self
      rw [List.cons_append, setPair, if_neg hne, ih fun p hp => h p (List.mem_cons_of_mem _ hp),
        List.cons_append]

/-- A cookie that is there is set where its first pair stands. -/
theorem pairs_set_first {before after : List (String × String)} {old : String}
    (hpairs : jar.pairs = before ++ (n, old) :: after) (hbefore : ∀ pair ∈ before, pair.1 ≠ n) :
    (jar.set n v).pairs = before ++ (n, v) :: after := by
  unfold set
  rw [hpairs, setPair_append hbefore, setPair, if_pos rfl]

/-- A cookie that is not there is set at the end. -/
theorem pairs_set_new (h : n ∉ jar.names) : (jar.set n v).pairs = jar.pairs ++ [(n, v)] := by
  have hall : ∀ pair ∈ jar.pairs, pair.1 ≠ n := fun pair hpair hname =>
    h (mem_names_iff.2 ⟨pair, hpair, hname⟩)
  have hset := setPair_append (v := v) hall []
  rw [List.append_nil] at hset
  exact hset

/-! ## One edit -/

theorem names_set_of_mem (h : n ∈ jar.names) : (jar.set n v).names = jar.names := by
  obtain ⟨before, old, after, hpairs, hbefore⟩ := exists_first h
  rw [names, pairs_set_first hpairs hbefore, names, hpairs]
  simp

theorem names_set_of_not_mem (h : n ∉ jar.names) : (jar.set n v).names = jar.names ++ [n] := by
  rw [names, pairs_set_new h, names]
  simp

theorem names_remove : (jar.remove n).names = jar.names.filter (· ≠ n) := by
  rw [names, names, remove, List.filter_map]
  rfl

theorem raw?_set_self : (jar.set n v).raw? n = some v := by
  rw [raw?_eq_some_iff]
  by_cases h : n ∈ jar.names
  · obtain ⟨before, old, after, hpairs, hbefore⟩ := exists_first h
    exact ⟨before, after, pairs_set_first hpairs hbefore, hbefore⟩
  · exact ⟨jar.pairs, [], pairs_set_new h, fun pair hpair hname =>
      h (mem_names_iff.2 ⟨pair, hpair, hname⟩)⟩

theorem raw?_remove_self : (jar.remove n).raw? n = none := by
  rw [raw?_eq_none_iff, names_remove]
  simp

/-- The pairs of other names stay as they are, in their order. -/
theorem filter_pairs_edit (jar : CookieJar) (e : Edit) :
    (jar.edit e).pairs.filter (·.1 ≠ e.name) = jar.pairs.filter (·.1 ≠ e.name) := by
  cases e with
  | set n v =>
      by_cases h : n ∈ jar.names
      · obtain ⟨before, old, after, hpairs, hbefore⟩ := exists_first h
        rw [edit, pairs_set_first hpairs hbefore, hpairs]
        simp [Edit.name]
      · rw [edit, pairs_set_new h]
        simp [Edit.name]
  | remove n =>
      rw [edit, remove, Edit.name, List.filter_filter]
      simp

/-- Edits of some names leave the pairs of all others as they are. -/
theorem filter_pairs_editAll {p : String → Bool} {edits : List Edit}
    (h : ∀ e ∈ edits, p e.name = false) (jar : CookieJar) :
    (jar.editAll edits).pairs.filter (fun pair => p pair.1) =
      jar.pairs.filter fun pair => p pair.1 := by
  induction edits generalizing jar with
  | nil => rfl
  | cons e edits ih =>
      have hname : p e.name = false := h e List.mem_cons_self
      have hnarrow : ∀ pairs : List (String × String),
          (pairs.filter (·.1 ≠ e.name)).filter (fun pair => p pair.1) =
            pairs.filter fun pair => p pair.1 := by
        intro pairs
        rw [List.filter_filter]
        refine List.filter_congr fun pair _ => ?_
        by_cases heq : pair.1 = e.name
        · simp [heq, hname]
        · simp [heq]
      have hrest := ih (fun e he => h e (List.mem_cons_of_mem _ he)) (jar.edit e)
      show ((jar.edit e).editAll edits).pairs.filter _ = _
      rw [hrest, ← hnarrow (jar.edit e).pairs, filter_pairs_edit, hnarrow]

/-- The first cookie of a name is found among the pairs of this name alone. -/
theorem raw?_eq_find?_filter (jar : CookieJar) {p : String → Bool} (h : p n = true) :
    jar.raw? n = ((jar.pairs.filter fun pair => p pair.1).find? (·.1 = n)).map (·.2) := by
  rw [raw?, List.find?_filter]
  congr 2
  funext pair
  by_cases hname : pair.1 = n
  · simp [hname, h]
  · simp [hname]

theorem raw?_edit_self {e : Edit} : (jar.edit e).raw? e.name = e.left? := by
  cases e with
  | set n v => exact raw?_set_self
  | remove n => exact raw?_remove_self

theorem raw?_edit_of_ne {e : Edit} (h : e.name ≠ n) : (jar.edit e).raw? n = jar.raw? n := by
  have hkept : decide (n ≠ e.name) = true := by simpa using h.symm
  have hname := fun jar : CookieJar => jar.raw?_eq_find?_filter (p := (· ≠ e.name)) hkept
  rw [hname, hname, filter_pairs_edit]

/-! ## Series of edits -/

theorem editAll_concat (edits : List Edit) (e : Edit) :
    jar.editAll (edits ++ [e]) = (jar.editAll edits).edit e := by
  rw [editAll, List.foldl_append]
  rfl

theorem lastEdit?_concat (edits : List Edit) (e : Edit) :
    lastEdit? n (edits ++ [e]) = if e.name = n then some e else lastEdit? n edits := by
  rw [lastEdit?, List.reverse_append, List.reverse_singleton, List.singleton_append,
    List.find?_cons]
  by_cases h : e.name = n <;> simp [h, lastEdit?]

/-- A cookie is what the last edit of its name left of it. -/
theorem raw?_editAll (edits : List Edit) :
    (jar.editAll edits).raw? n = (lastEdit? n edits).elim (jar.raw? n) Edit.left? := by
  induction edits using List.reverseRecOn with
  | nil => rfl
  | append_singleton edits e ih =>
      rw [editAll_concat, lastEdit?_concat]
      by_cases h : e.name = n
      · subst h
        rw [if_pos rfl, raw?_edit_self, Option.elim_some]
      · rw [if_neg h, raw?_edit_of_ne h, ih]

/-- What it means that a jar has become `after` by setting a cookie. -/
structure SetsCookie (jar : CookieJar) (n v : String) (after : CookieJar) : Prop where
  value : after.get? n = some (Uri.unescape v)
  others : ∀ m, m ≠ n → after.get? m = jar.get? m
  order : after.names.filter (· ≠ n) = jar.names.filter (· ≠ n)
  /-- A cookie that was there keeps its place, and so do all others of its name. -/
  place : n ∈ jar.names → after.names = jar.names
  appended : n ∉ jar.names → after.names = jar.names ++ [n]

/-- What it means that a jar has become `after` by removing a cookie. -/
structure RemovesCookie (jar : CookieJar) (n : String) (after : CookieJar) : Prop where
  gone : after.get? n = none
  others : ∀ m, m ≠ n → after.get? m = jar.get? m
  order : after.names = jar.names.filter (· ≠ n)

theorem get?_edit_of_ne {e : Edit} (h : n ≠ e.name) : (jar.edit e).get? n = jar.get? n := by
  rw [get?, get?, raw?_edit_of_ne h.symm]

theorem setsCookie_set (jar : CookieJar) (n v : String) : jar.SetsCookie n v (jar.set n v) where
  value := by rw [get?, raw?_set_self, Option.map_some]
  others m h := get?_edit_of_ne (e := .set n v) h
  order := by
    by_cases h : n ∈ jar.names
    · rw [names_set_of_mem h]
    · rw [names_set_of_not_mem h]
      simp
  place := names_set_of_mem
  appended := names_set_of_not_mem

theorem removesCookie_remove (jar : CookieJar) (n : String) :
    jar.RemovesCookie n (jar.remove n) where
  gone := by rw [get?, raw?_remove_self, Option.map_none]
  others m h := get?_edit_of_ne (e := .remove n) h
  order := names_remove

/-- A cookie is set just where it is there and its first pair holds something. -/
theorem isSet_iff_raw? : jar.isSet n = true ↔ ∃ value, jar.raw? n = some value ∧ value ≠ "" := by
  rw [isSet_iff, get?]
  simp only [Option.map_eq_some_iff]
  constructor
  · rintro ⟨_, ⟨value, hvalue, rfl⟩, hne⟩
    exact ⟨value, hvalue, fun h => hne (Uri.unescape_eq_empty_iff.2 h)⟩
  · rintro ⟨value, hvalue, hne⟩
    exact ⟨_, ⟨value, hvalue, rfl⟩, fun h => hne (Uri.unescape_eq_empty_iff.1 h)⟩

/-- Whatever edits a jar has gone through since its header was read, it is a map in header order.
Each cookie is what the last edit of its name left of it, and else the first one of its name in the
header; the pairs of names that were not edited stand as they stood in the header. The next edit
changes the cookie of its name alone: setting keeps the places of all names and puts a new one at
the end, and removing takes every pair of the name. A cookie counts as set just where the first pair
of its name holds something. -/
theorem edited_jar_is_ordered_map (header : String) (edits : List Edit) :
    let jar := (parse header).editAll edits
    (∀ n, jar.raw? n = (lastEdit? n edits).elim ((parse header).raw? n) Edit.left?) ∧
    jar.pairs.filter (fun pair => pair.1 ∉ edits.map Edit.name) =
      (parse header).pairs.filter (fun pair => pair.1 ∉ edits.map Edit.name) ∧
    ∀ n,
      (∀ v, jar.SetsCookie n v (jar.set n v)) ∧
      jar.RemovesCookie n (jar.remove n) ∧
      (jar.isSet n = true ↔ (jar.get? n).isSome ∧ ∃ before value after,
        jar.pairs = before ++ (n, value) :: after ∧ (∀ pair ∈ before, pair.1 ≠ n) ∧
          value ≠ "") := by
  intro jar
  refine ⟨fun n => raw?_editAll edits, ?_, fun n => ⟨jar.setsCookie_set n,
    jar.removesCookie_remove n, ?_⟩⟩
  · refine filter_pairs_editAll (p := fun name => name ∉ edits.map Edit.name) ?_ (parse header)
    intro e he
    simpa using ⟨e, he, rfl⟩
  · rw [isSet_iff_raw?]
    constructor
    · rintro ⟨value, hvalue, hne⟩
      obtain ⟨before, after, hpairs, hbefore⟩ := raw?_eq_some_iff.1 hvalue
      exact ⟨by rw [get?, hvalue]; rfl, before, value, after, hpairs, hbefore, hne⟩
    · rintro ⟨-, before, value, after, hpairs, hbefore, hne⟩
      exact ⟨value, raw?_eq_some_iff.2 ⟨before, after, hpairs, hbefore⟩, hne⟩

end CookieJar
end PeerWatch.Session
