import Mathlib.Data.Finset.Card
import Mathlib.Data.String.Basic
import Stencil.Entries

/-!
# `Stencil.Proofs.Entries`: entries that were put in order

Entries that are put under their keys one after the other stay in ascending order, so that each key
stands once (`ascending_insertAll`). A key answers with the last value that was put under it, and
there are as many entries as there are different keys (`valueAt?_insertAll`, `length_insertAll`).
To put entries anew that are in order already changes nothing (`Ascending.insertAll_eq`).
-/

set_option autoImplicit false

namespace Stencil

variable {α : Type} {key k : String} {entries : List (String × α)}

/-- Entries by ascending key, each key once. -/
def Ascending (entries : List (String × α)) : Prop :=
  entries.Pairwise fun a b => a.1 < b.1

/-- The keys are the new one and those that were there. -/
theorem mem_keys_insertEntry {value : α} :
    k ∈ (insertEntry key value entries).map Prod.fst ↔ k = key ∨ k ∈ entries.map Prod.fst := by
  induction entries with
  | nil => simp [insertEntry]
  | cons e rest ih =>
    obtain ⟨first, v⟩ := e
    simp only [insertEntry]
    split
    · next hfirst => simp [hfirst]
    · split
      · simp
      · simp only [List.map_cons, List.mem_cons, ih]
        exact or_left_comm

/-- Putting one more entry in its place keeps the order. -/
theorem Ascending.insertEntry (h : Ascending entries) (key : String) (value : α) :
    Ascending (insertEntry key value entries) := by
  induction entries with
  | nil => exact List.pairwise_singleton _ _
  | cons e rest ih =>
    obtain ⟨first, v⟩ := e
    obtain ⟨hfirst, hrest⟩ := List.pairwise_cons.1 h
    simp only [Stencil.insertEntry]
    split
    -- A value is replaced, and the keys are the same.
    · next heq =>
      subst heq
      exact List.pairwise_cons.2 ⟨hfirst, hrest⟩
    · next hne =>
      split
      -- The new key is the least one, since the first one was.
      · next hlt =>
        refine List.pairwise_cons.2 ⟨fun e he => ?_, h⟩
        rcases List.mem_cons.1 he with rfl | he
        · exact hlt
        · exact lt_trans hlt (hfirst e he)
      · next hnot =>
        refine List.pairwise_cons.2 ⟨fun e he => ?_, ih hrest⟩
        -- The keys of the rest are the new one and those that were there.
        rcases mem_keys_insertEntry.1 (List.mem_map_of_mem he) with hkey | hmem
        · rw [hkey]
          exact lt_of_le_of_ne (not_lt.1 hnot) hne
        · obtain ⟨e', he', hkey⟩ := List.mem_map.1 hmem
          rw [← hkey]
          exact hfirst e' he'

/-- Only the keys matter to the order. -/
theorem Ascending.of_keys_eq {β : Type} {others : List (String × β)} (h : Ascending entries)
    (hkeys : others.map Prod.fst = entries.map Prod.fst) : Ascending others := by
  have hsorted : (entries.map Prod.fst).Pairwise (· < ·) := List.pairwise_map.2 h
  rw [← hkeys] at hsorted
  exact List.pairwise_map.1 hsorted

/-- No key stands twice. -/
theorem Ascending.nodup_keys (h : Ascending entries) : (entries.map Prod.fst).Nodup :=
  List.pairwise_map.2 (h.imp ne_of_lt)

/-- Entries put under their keys one after the other, beginning with none. -/
def insertAll (entries : List (String × α)) : List (String × α) :=
  entries.foldl (fun sorted (key, value) => insertEntry key value sorted) []

/-- The last entry is put among those that the others have made. -/
theorem insertAll_concat (entries : List (String × α)) (key : String) (value : α) :
    insertAll (entries ++ [(key, value)]) = insertEntry key value (insertAll entries) :=
  List.foldl_concat _ _ _ _

/-- Entries that were put in one after the other are in order. -/
theorem ascending_insertAll (entries : List (String × α)) : Ascending (insertAll entries) := by
  -- On the last entry, since it is put in last.
  induction entries using List.reverseRecOn with
  | nil => exact List.Pairwise.nil
  | append_singleton entries e ih =>
    rw [insertAll_concat]
    exact ih.insertEntry _ _

/-- A key answers with the last value that was put under it. -/
theorem valueAt?_insertAll (key : String) (entries : List (String × α)) :
    valueAt? key (insertAll entries) =
      ((entries.filter fun e => e.1 = key).getLast?).map Prod.snd := by
  induction entries using List.reverseRecOn with
  | nil => rfl
  | append_singleton entries e ih =>
    obtain ⟨last, value⟩ := e
    rw [insertAll_concat, List.filter_append, List.getLast?_append]
    by_cases hkey : last = key
    · subst hkey
      rw [valueAt?_insertEntry_self]
      simp
    · rw [valueAt?_insertEntry_of_ne (Ne.symm hkey), ih]
      simp [hkey]

/-- The keys are those that were put in, and no others. -/
theorem toFinset_keys_insertAll (entries : List (String × α)) :
    ((insertAll entries).map Prod.fst).toFinset = (entries.map Prod.fst).toFinset := by
  induction entries using List.reverseRecOn with
  | nil => rfl
  | append_singleton entries e ih =>
    ext k
    have hmem := Finset.ext_iff.1 ih k
    simp only [List.mem_toFinset] at hmem
    rw [List.mem_toFinset, List.mem_toFinset, insertAll_concat, mem_keys_insertEntry, hmem]
    simp [or_comm]

/-- There are as many entries as there are different keys. -/
theorem length_insertAll (entries : List (String × α)) :
    (insertAll entries).length = (entries.map Prod.fst).toFinset.card := by
  have hcard := List.toFinset_card_of_nodup (ascending_insertAll entries).nodup_keys
  rw [toFinset_keys_insertAll, List.length_map] at hcard
  exact hcard.symm

/-- A key beyond all others stands at the end. -/
theorem insertEntry_of_forall_lt {value : α} (h : ∀ e ∈ entries, e.1 < key) :
    insertEntry key value entries = entries ++ [(key, value)] := by
  induction entries with
  | nil => rfl
  | cons e rest ih =>
    obtain ⟨hfirst, hrest⟩ := List.forall_mem_cons.1 h
    rw [insertEntry, if_neg (ne_of_lt hfirst), if_neg (lt_asymm hfirst), ih hrest]
    rfl

/-- Entries in order come out the same when they are put one after the other. -/
theorem Ascending.insertAll_eq (h : Ascending entries) : insertAll entries = entries := by
  induction entries using List.reverseRecOn with
  | nil => rfl
  | append_singleton entries e ih =>
    obtain ⟨hentries, -, hlast⟩ := List.pairwise_append.1 h
    rw [insertAll_concat, ih hentries,
      insertEntry_of_forall_lt fun e' he' => hlast e' he' e List.mem_cons_self]

end Stencil
