/-!
# `Stencil.Entries`: values under keys

Maps and JSON objects list their entries by ascending key, each key once. Keys are ordered
character by character, by code point. `valueAt?` looks a key up and `insertEntry` keeps the
order when it puts a value under a key.

`valueAt?_insertEntry_self` says that a key answers with what was last put under it, and
`valueAt?_insertEntry_of_ne` that the other keys answer as before.
-/

set_option autoImplicit false

namespace Stencil

/-- The value under a key in a list of entries. -/
def valueAt? {α : Type} (key : String) : List (String × α) → Option α
  | [] => none
  | (k, v) :: rest => if k = key then some v else valueAt? key rest

/-- Puts a value under a key. Entries stay in ascending order of their keys, and a value that was
there before is replaced. -/
def insertEntry {α : Type} (key : String) (value : α) : List (String × α) → List (String × α)
  | [] => [(key, value)]
  | (k, v) :: rest =>
    if k = key then (key, value) :: rest
    else if key < k then (key, value) :: (k, v) :: rest
    else (k, v) :: insertEntry key value rest

/-- The key that was put in has the value that was put under it. -/
theorem valueAt?_insertEntry_self {α : Type} (key : String) (value : α)
    (entries : List (String × α)) :
    valueAt? key (insertEntry key value entries) = some value := by
  induction entries with
  | nil => simp [insertEntry, valueAt?]
  | cons e rest ih =>
    obtain ⟨k, v⟩ := e
    simp only [insertEntry]
    split
    · simp [valueAt?]
    · rename_i hne
      split
      · simp [valueAt?]
      · simp [valueAt?, hne, ih]

/-- Any other key keeps its value. -/
theorem valueAt?_insertEntry_of_ne {α : Type} {key other : String} (h : other ≠ key) (value : α)
    (entries : List (String × α)) :
    valueAt? other (insertEntry key value entries) = valueAt? other entries := by
  induction entries with
  | nil => simp [insertEntry, valueAt?, Ne.symm h]
  | cons e rest ih =>
    obtain ⟨k, v⟩ := e
    simp only [insertEntry]
    split
    · rename_i hk
      subst hk
      simp [valueAt?, Ne.symm h]
    · split
      · simp [valueAt?, Ne.symm h]
      · simp only [valueAt?, ih]

end Stencil
