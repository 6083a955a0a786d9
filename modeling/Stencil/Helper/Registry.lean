import Stencil.Helper.Basic
import Stencil.Text.LowerCase
import Stencil.Entries

/-!
# `Stencil.Helper.Registry`: helpers by name

A registry finds helpers by name, whatever the case of its letters. It is made by registering
helpers one after the other. Names are trimmed then; of several helpers with one name the last
counts, and a blank name spoils the registry.

`Registry.ofList` stops at the first blank name. A `RegistryBuilder` notes it, takes the helpers
that follow all the same, and reports it at the end.
-/

set_option autoImplicit false

namespace Stencil

open Text

/-- A reason why there is no registry. -/
inductive RegistryError where
  /-- A helper was registered under a blank name. -/
  | emptyName
deriving DecidableEq, Repr, Inhabited

/-- The wording of a registry error. -/
def RegistryError.message : RegistryError → String
  | emptyName => "helper name must not be empty"

/-- Helpers by name. -/
structure Registry where
  /-- The helpers under their names in lower case. -/
  entries : List (String × Helper)
deriving Inhabited

namespace Registry

/-- A registry without helpers. -/
def empty : Registry := ⟨[]⟩

/-- The helper of a name. Case does not matter, blanks do. -/
def get? (r : Registry) (name : String) : Option Helper :=
  valueAt? (lowerCase name) r.entries

/-- Whether there is a helper of a name. -/
def contains (r : Registry) (name : String) : Bool :=
  (r.get? name).isSome

/-- The number of helpers. -/
def size (r : Registry) : Nat :=
  r.entries.length

/-- The registry with one more helper, whose name is trimmed and not empty then. -/
def register (r : Registry) (name : String) (h : Helper) : Except RegistryError Registry :=
  if trimmed name = "" then .error .emptyName
  else .ok ⟨insertEntry (lowerCase (trimmed name)) h r.entries⟩

/-- The registry of some helpers, registered in order. -/
def ofList (helpers : List (String × Helper)) : Except RegistryError Registry :=
  helpers.foldlM (fun r (name, h) => r.register name h) empty

end Registry

/-- A registry in the making. -/
structure RegistryBuilder where
  /-- The helpers under their names in lower case. -/
  entries : List (String × Helper)
  /-- What was wrong first. -/
  error : Option RegistryError
deriving Inhabited

namespace RegistryBuilder

/-- A builder that has no helpers yet. -/
def empty : RegistryBuilder := ⟨[], none⟩

/-- The builder with one more helper under its trimmed name. A blank name is noted, unless
something was wrong before. -/
def register (b : RegistryBuilder) (name : String) (h : Helper) : RegistryBuilder :=
  if trimmed name = "" then { b with error := b.error.or (some .emptyName) }
  else { b with entries := insertEntry (lowerCase (trimmed name)) h b.entries }

/-- The builder after some helpers, registered in order. -/
def registerAll (b : RegistryBuilder) (helpers : List (String × Helper)) : RegistryBuilder :=
  helpers.foldl (fun b (name, h) => b.register name h) b

/-- The registry, if nothing was wrong. -/
def build (b : RegistryBuilder) : Except RegistryError Registry :=
  match b.error with
  | some e => .error e
  | none => .ok ⟨b.entries⟩

end RegistryBuilder

end Stencil
