import Stencil.Helper.Call
import Stencil.Render.Action

/-!
# `Stencil.Proofs.Value.Renaming`: values under other handles

Which handle an enumerator has depends on how many were made before it. `Value.rename` gives a value
with other handles. Nothing that a template can see of a value tells the two apart: they have the
same shape and the same text (`Value.format_rename`), a path leads to the same place in both
(`Scope.lookup_rename`), and they are converted alike (`Value.convert?_rename`). So the values of
the arguments of a call are renamed ones, too (`Registry.prepare_rename`).
-/

set_option autoImplicit false

namespace Stencil

open Text

variable {f : Handle → Handle}

/-! ### Values -/

namespace Value

mutual

/-- The value with other handles. -/
def rename (f : Handle → Handle) : Value → Value
  | .null => .null
  | .bool b => .bool b
  | .int n => .int n
  | .float x => .float x
  | .str s => .str s
  | .list items => .list (renameItems f items)
  | .map entries => .map (renameEntries f entries)
  | .iter handle => .iter (f handle)

/-- The items of a list with other handles. -/
def renameItems (f : Handle → Handle) : List Value → List Value
  | [] => []
  | v :: vs => rename f v :: renameItems f vs

/-- The entries of a map with other handles. -/
def renameEntries (f : Handle → Handle) : List (String × Value) → List (String × Value)
  | [] => []
  | (key, v) :: rest => (key, rename f v) :: renameEntries f rest

end

/-- Items are renamed one by one. -/
theorem renameItems_eq_map (f : Handle → Handle) (items : List Value) :
    renameItems f items = items.map (rename f) := by
  induction items with
  | nil => rfl
  | cons v vs ih => rw [renameItems, ih, List.map_cons]

/-- A list is renamed item by item. -/
theorem rename_list (f : Handle → Handle) (items : List Value) :
    (Value.list items).rename f = .list (items.map (rename f)) :=
  congrArg Value.list (renameItems_eq_map f items)

mutual

/-- The handles in a value. -/
def handles : Value → List Handle
  | .list items => handlesOfItems items
  | .map entries => handlesOfEntries entries
  | .iter handle => [handle]
  | _ => []

/-- The handles in the items of a list. -/
def handlesOfItems : List Value → List Handle
  | [] => []
  | v :: vs => handles v ++ handlesOfItems vs

/-- The handles in the entries of a map. -/
def handlesOfEntries : List (String × Value) → List Handle
  | [] => []
  | (_, v) :: rest => handles v ++ handlesOfEntries rest

end

-- By recursion on the value; only the handles that it has matter.
mutual

/-- Handles that stay as they are leave the value as it is. -/
theorem rename_eq_self : ∀ {v : Value}, (∀ handle ∈ v.handles, f handle = handle) →
    v.rename f = v
  | .null, _ => rfl
  | .bool _, _ => rfl
  | .int _, _ => rfl
  | .float _, _ => rfl
  | .str _, _ => rfl
  | .list _, h => congrArg Value.list (renameItems_eq_self h)
  | .map _, h => congrArg Value.map (renameEntries_eq_self h)
  | .iter handle, h => congrArg Value.iter (h handle (List.mem_singleton.2 rfl))

/-- Handles that stay as they are leave the items as they are. -/
theorem renameItems_eq_self : ∀ {items : List Value},
    (∀ handle ∈ handlesOfItems items, f handle = handle) → renameItems f items = items
  | [], _ => rfl
  | v :: vs, h => by
    rw [renameItems, rename_eq_self fun handle hv => h handle (List.mem_append_left _ hv),
      renameItems_eq_self fun handle hvs => h handle (List.mem_append_right _ hvs)]

/-- Handles that stay as they are leave the entries as they are. -/
theorem renameEntries_eq_self : ∀ {entries : List (String × Value)},
    (∀ handle ∈ handlesOfEntries entries, f handle = handle) → renameEntries f entries = entries
  | [], _ => rfl
  | (key, v) :: rest, h => by
    rw [renameEntries, rename_eq_self fun handle hv => h handle (List.mem_append_left _ hv),
      renameEntries_eq_self fun handle hrest => h handle (List.mem_append_right _ hrest)]

end

/-- The kind of a value does not depend on handles. -/
theorem kind_rename (f : Handle → Handle) (v : Value) : (v.rename f).kind = v.kind := by
  cases v <;> rfl

/-- Whether a value counts as true does not depend on handles. -/
theorem isTruthy_rename (f : Handle → Handle) (v : Value) :
    (v.rename f).isTruthy = v.isTruthy := by
  cases v with
  | list items => cases items <;> rfl
  | _ => rfl

-- By recursion on the value; the document of an enumerator is null whatever its handle is.
mutual

/-- A value has the same document under other handles. -/
theorem toJson_rename : ∀ v : Value, (v.rename f).toJson = v.toJson
  | .null => rfl
  | .bool _ => rfl
  | .int _ => rfl
  | .float _ => rfl
  | .str _ => rfl
  | .list items => congrArg Json.arr (toJsonItems_rename items)
  | .map entries => congrArg Json.obj (toJsonEntries_rename entries)
  | .iter _ => rfl

/-- Items have the same documents under other handles. -/
theorem toJsonItems_rename : ∀ items : List Value,
    toJsonItems (renameItems f items) = toJsonItems items
  | [] => rfl
  | v :: vs => by
    rw [renameItems, toJsonItems, toJsonItems, toJson_rename v, toJsonItems_rename vs]

/-- Entries have the same documents under other handles. -/
theorem toJsonEntries_rename : ∀ entries : List (String × Value),
    toJsonEntries (renameEntries f entries) = toJsonEntries entries
  | [] => rfl
  | (key, v) :: rest => by
    rw [renameEntries, toJsonEntries, toJsonEntries, toJson_rename v, toJsonEntries_rename rest]

end

/-- A value shows the same text under other handles. -/
theorem format_rename (f : Handle → Handle) (l : Locale) (v : Value) :
    (v.rename f).format l = v.format l := by
  cases v with
  | list items => exact congrArg Json.render (toJson_rename (.list items))
  | map entries => exact congrArg Json.render (toJson_rename (.map entries))
  | _ => rfl

/-- A key has its value under other handles. -/
theorem valueAt?_renameEntries (f : Handle → Handle) (key : String)
    (entries : List (String × Value)) :
    valueAt? key (renameEntries f entries) = (valueAt? key entries).map (rename f) := by
  induction entries with
  | nil => rfl
  | cons entry rest ih =>
    obtain ⟨k, v⟩ := entry
    rw [renameEntries, valueAt?, valueAt?]
    by_cases hkey : k = key
    · rw [if_pos hkey, if_pos hkey]
      rfl
    · rw [if_neg hkey, if_neg hkey]
      exact ih

/-- The value under a key of a map, under other handles. -/
theorem get?_rename (f : Handle → Handle) (v : Value) (key : String) :
    (v.rename f).get? key = (v.get? key).map (rename f) := by
  cases v with
  | map entries => exact valueAt?_renameEntries f key entries
  | _ => rfl

/-- One step further along a path. -/
theorem child_rename (f : Handle → Handle) (v : Value) (segment : List Char) :
    (v.rename f).child segment = (v.child segment).rename f := by
  cases v with
  | map entries =>
    show (valueAt? _ (renameEntries f entries)).getD .null = _
    rw [valueAt?_renameEntries, child]
    cases valueAt? (String.ofList segment) entries <;> rfl
  | list items =>
    rw [rename, child, child]
    cases readIndex? segment with
    -- The index is read from the segment, which has no handles.
    | none => rfl
    | some i =>
      simp only [renameItems_eq_map, List.getElem?_map]
      cases items[i]? <;> rfl
  | _ => rfl

/-- Conversion gives numbers, truth values and texts, which have no handles. -/
theorem change?_rename (f : Handle → Handle) (l : Locale) (target : ParamType) (v : Value) :
    (v.rename f).change? l target = (v.change? l target).map (rename f) := by
  -- What is made of a text or a number has no handles to change.
  have hmap : ∀ {α : Type} (x : Option α) (g : α → Value), (∀ a, (g a).rename f = g a) →
      x.map g = (x.map g).map (rename f) := by
    intro α x g hg
    cases x with
    | none => rfl
    | some a => exact congrArg some (hg a).symm
  cases v <;> cases target
  all_goals first
    | rfl
    | exact hmap _ _ fun _ => rfl

/-- Kept or changed, a value is coerced alike under other handles. -/
theorem coerce?_rename (f : Handle → Handle) (l : Locale) (target : ParamType) (v : Value) :
    (v.rename f).coerce? l target = (v.coerce? l target).map (rename f) := by
  rw [coerce?, coerce?, kind_rename, change?_rename]
  by_cases h : target.accepts v.kind = true
  · rw [if_pos h, if_pos h]
    rfl
  · rw [if_neg h, if_neg h]

/-- A value is converted alike under other handles. -/
theorem convert?_rename (f : Handle → Handle) (l : Locale) (target : ParamType) (raw : String)
    (v : Value) :
    (v.rename f).convert? l target raw = (v.convert? l target raw).map (rename f) := by
  cases v with
  | null =>
    -- A null is converted by way of the text of its argument.
    show (if target.isRequired then (Value.str raw).coerce? l target else none) =
      (if target.isRequired then (Value.str raw).coerce? l target else none).map (rename f)
    by_cases h : target.isRequired = true
    · rw [if_pos h]
      exact coerce?_rename f l target (.str raw)
    · rw [if_neg h]
      rfl
  | _ => exact coerce?_rename f l target _

end Value

/-! ### Scopes -/

namespace Scope

/-- The scope with other handles. -/
def rename (f : Handle → Handle) (s : Scope) : Scope :=
  ⟨s.frame.rename f, s.outer.map (Value.rename f)⟩

/-- A name is found in the same frame under other handles. -/
theorem find?_rename (f : Handle → Handle) (s : Scope) (name : List Char) :
    (s.rename f).find? name = (s.find? name).map (Value.rename f) := by
  have hframes : (s.rename f).frames = s.frames.map (Value.rename f) := rfl
  rw [find?, find?, hframes]
  -- Frame by frame, as the first one that has the name answers.
  induction s.frames with
  | nil => rfl
  | cons v vs ih =>
    rw [List.map_cons, List.findSome?_cons, List.findSome?_cons, Value.get?_rename]
    cases v.get? (String.ofList name) with
    | none => exact ih
    | some found => rfl

/-- A path leads on alike from a value under other handles. -/
theorem foldl_child_rename (f : Handle → Handle) (segments : List (List Char)) (v : Value) :
    segments.foldl Value.child (v.rename f) = (segments.foldl Value.child v).rename f := by
  induction segments generalizing v with
  | nil => rfl
  | cons segment segments ih =>
    rw [List.foldl_cons, List.foldl_cons, Value.child_rename, ih]

/-- A path leads to the same place under other handles. -/
theorem lookup_rename (f : Handle → Handle) (s : Scope) (path : String) :
    (s.rename f).lookup path = (s.lookup path).rename f := by
  rw [lookup, lookup, lookupTrimmed, lookupTrimmed]
  by_cases hself : trim path.toList = ['.']
  · rw [if_pos hself, if_pos hself]
    rfl
  · rw [if_neg hself, if_neg hself]
    cases segments (trim path.toList) with
    | nil => rfl
    | cons first rest =>
      by_cases hempty : first = []
      · simp only [hempty, if_true]
        rfl
      · simp only [hempty, if_false, find?_rename]
        cases s.find? first with
        | none => rfl
        | some v => exact foldl_child_rename f rest v

end Scope

/-! ### Calls -/

/-- The context of a helper with other handles. -/
def HelperContext.rename (f : Handle → Handle) (cx : HelperContext) : HelperContext :=
  ⟨cx.scope.rename f, cx.locale, cx.body⟩

/-- An argument has its value under other handles. -/
theorem resolve_rename (f : Handle → Handle) (s : Scope) (arg : Argument) :
    arg.resolve (s.rename f) = (arg.resolve s).rename f := by
  cases arg with
  | lookup path => exact s.lookup_rename f path
  | literal text => rfl

/-- Arguments are converted alike under other handles. -/
theorem resolveArguments_rename (f : Handle → Handle) (cx : HelperContext) (name : String)
    (args : List Argument) (targets : List ParamType) :
    resolveArguments (cx.rename f) name args targets =
      (resolveArguments cx name args targets).map (List.map (Value.rename f)) := by
  induction args generalizing targets with
  | nil => rfl
  | cons arg args ih =>
    cases targets with
    | nil => rfl
    | cons target targets =>
      have hconvert : (arg.resolve (cx.rename f).scope).convert? (cx.rename f).locale target
          arg.raw = ((arg.resolve cx.scope).convert? cx.locale target arg.raw).map
            (Value.rename f) := by
        rw [← Value.convert?_rename, ← resolve_rename]
        rfl
      rw [resolveArguments, resolveArguments, hconvert, ih]
      cases (arg.resolve cx.scope).convert? cx.locale target arg.raw with
      | none => rfl
      | some v =>
        cases resolveArguments cx name args targets with
        | error e => rfl
        | ok vs => rfl

/-- A call is prepared alike under other handles. -/
theorem Registry.prepare_rename (f : Handle → Handle) (r : Registry) (cx : HelperContext)
    (name : String) (args : List Argument) :
    r.prepare (cx.rename f) name args =
      (r.prepare cx name args).map fun (h, values) => (h, values.map (Value.rename f)) := by
  rw [prepare, prepare]
  cases r.get? name with
  | none => rfl
  | some h =>
    simp only [resolveArguments_rename]
    by_cases harity : h.arity = args.length
    · rw [if_pos harity, if_pos harity]
      cases resolveArguments cx name args h.params with
      | error e => rfl
      | ok values => rfl
    · rw [if_neg harity, if_neg harity]
      rfl

end Stencil
