import Stencil.Helper.Call
import Stencil.Helper.Typed

/-!
# `Stencil.Proofs.Helper.WellTyped`: helpers see arguments of the types that they declare

A call converts each argument to the type that its helper declares and runs the helper only if all
of them can be converted. `accepts_of_convert?` says that a converted value is of its type, and
`convert?_of_accepts` that a value of a type is left as it is, so that a second conversion changes
nothing. `resolveArguments_getElem?` carries both over to the arguments of a call.

A typed function takes its arguments out of these values. `ArgumentType` lists the types that it can
ask for, and `ArgumentType.Lacks` says which integers some of them do not have. No other value is
refused once it was converted (`ofValue?_eq_none_iff`), so that only such an integer keeps a typed
function from being run (`read?_eq_none_iff`).

`sees_typed_arguments` puts all of this together.
-/

set_option autoImplicit false

namespace Stencil

/-! ### Conversion -/

/-- Null is of no type, not even of the one that takes any value. -/
theorem ParamType.ne_null_of_accepts {target : ParamType} {kind : ValueKind}
    (h : target.accepts kind = true) : kind ≠ .null := by
  rintro rfl
  cases target <;> simp [accepts] at h

namespace Value

/-- A value of another shape is changed to one of the type. -/
theorem accepts_of_change? {l : Locale} {target : ParamType} {v w : Value}
    (h : v.change? l target = some w) : target.accepts w.kind = true := by
  unfold change? at h
  split at h
  -- Either the value is given outright, or it is put around a number or a truth value.
  all_goals first
    | (obtain rfl := Option.some.inj h; rfl)
    | (obtain ⟨_, _, rfl⟩ := Option.map_eq_some_iff.1 h; rfl)
    | simp at h

/-- A value that is of the type already is kept, and any other is changed to one. -/
theorem accepts_of_coerce? {l : Locale} {target : ParamType} {v w : Value}
    (h : v.coerce? l target = some w) : target.accepts w.kind = true := by
  unfold coerce? at h
  split at h
  · rename_i haccepts
    obtain rfl := Option.some.inj h
    exact haccepts
  · exact accepts_of_change? h

/-- A converted value is of the type that it was converted to. -/
theorem accepts_of_convert? {l : Locale} {target : ParamType} {raw : String} {v w : Value}
    (h : v.convert? l target raw = some w) : target.accepts w.kind = true := by
  unfold convert? at h
  split at h
  -- A null that is to be converted is first read from the text of the argument.
  · split at h
    · exact accepts_of_coerce? h
    · simp at h
  · exact accepts_of_coerce? h

/-- A value of a type is converted to itself, whatever the locale and the text of the argument. -/
theorem convert?_of_accepts {target : ParamType} {v : Value} (h : target.accepts v.kind = true)
    (l : Locale) (raw : String) : v.convert? l target raw = some v := by
  have hne := ParamType.ne_null_of_accepts h
  unfold convert?
  split
  · exact absurd rfl hne
  · rw [coerce?, if_pos h]

end Value

/-! ### The arguments of a call -/

/-- A value that a helper gets for an argument: that of the argument, converted to the declared type
and of it. -/
structure Argument.Passes (cx : HelperContext) (arg : Argument) (target : ParamType)
    (v : Value) : Prop where
  converted : (arg.resolve cx.scope).convert? cx.locale target arg.raw = some v
  notNull : v.kind ≠ .null
  accepted : target.accepts v.kind = true
  /-- Another conversion to the same type changes nothing. -/
  settled : ∀ (l : Locale) (raw : String), v.convert? l target raw = some v

/-- A converted value has all that a helper may rely on. -/
theorem Argument.passes_of_convert? {cx : HelperContext} {arg : Argument} {target : ParamType}
    {v : Value} (h : (arg.resolve cx.scope).convert? cx.locale target arg.raw = some v) :
    arg.Passes cx target v where
  converted := h
  notNull := ParamType.ne_null_of_accepts (Value.accepts_of_convert? h)
  accepted := Value.accepts_of_convert? h
  settled := Value.convert?_of_accepts (Value.accepts_of_convert? h)

/-- The values of arguments are in the order of the arguments, each converted to its type. -/
theorem resolveArguments_getElem? {cx : HelperContext} {name : String} {args : List Argument}
    {targets : List ParamType} {values : List Value}
    (h : resolveArguments cx name args targets = .ok values)
    (hlength : args.length = targets.length) :
    values.length = targets.length ∧ ∀ (i : Nat) (arg : Argument) (target : ParamType) (v : Value),
      args[i]? = some arg → targets[i]? = some target → values[i]? = some v →
        arg.Passes cx target v := by
  fun_induction resolveArguments cx name args targets generalizing values with
  -- An argument that cannot be converted, here or further on, ends the call.
  | case1 => simp at h
  | case2 => simp at h
  | case3 arg args target targets v hconvert vs hrest ih =>
    obtain rfl := Except.ok.inj h
    obtain ⟨hvs, hpasses⟩ := ih hrest (by simpa using hlength)
    refine ⟨by simp [hvs], ?_⟩
    intro i arg' target' v' harg htarget hv
    cases i with
    -- The first value is that of the first argument; the others are those of the rest.
    | zero =>
      obtain rfl : arg = arg' := by simpa using harg
      obtain rfl : target = target' := by simpa using htarget
      obtain rfl : v = v' := by simpa using hv
      exact Argument.passes_of_convert? hconvert
    | succ i =>
      exact hpasses i arg' target' v' (by simpa using harg) (by simpa using htarget)
        (by simpa using hv)
  | case4 args targets hnot =>
    obtain rfl := Except.ok.inj h
    cases args with
    | nil =>
      refine ⟨by simpa using hlength, ?_⟩
      intro i arg target v harg
      simp at harg
    | cons arg args =>
      cases targets with
      | nil => simp at hlength
      | cons target targets => exact absurd rfl (hnot arg args target targets rfl)

/-- A helper that is run gets as many values as it takes arguments, in the order of those, each of
the type that it declares. -/
theorem Registry.prepare_passes {r : Registry} {cx : HelperContext} {name : String}
    {args : List Argument} {helper : Helper} {values : List Value}
    (h : r.prepare cx name args = .ok (helper, values)) :
    r.get? name = some helper ∧ args.length = helper.arity ∧ values.length = helper.arity ∧
      ∀ (i : Nat) (arg : Argument) (target : ParamType) (v : Value), args[i]? = some arg →
        helper.params[i]? = some target → values[i]? = some v → arg.Passes cx target v := by
  unfold prepare at h
  split at h
  · simp at h
  · rename_i found hget
    -- The helper is found, takes as many arguments as there are, and all of them can be converted.
    split at h
    · rename_i harity
      split at h
      · simp at h
      · rename_i vs hresolve
        obtain ⟨rfl, rfl⟩ := Prod.mk.inj (Except.ok.inj h)
        obtain ⟨hlength, hpasses⟩ := resolveArguments_getElem? hresolve harity.symm
        exact ⟨hget, harity.symm, hlength, hpasses⟩
    · simp at h

/-- A call that is not refused is the run of a helper. -/
theorem Registry.call_eq_ok_iff {r : Registry} {cx : HelperContext} {name : String}
    {args : List Argument} {store : Store} {result : Value × Store} :
    r.call cx name args store = .ok result ↔
      ∃ helper values, r.prepare cx name args = .ok (helper, values) ∧
        result = helper.run cx values store := by
  rw [call]
  cases r.prepare cx name args with
  | error e => simp
  | ok prepared =>
    obtain ⟨helper, values⟩ := prepared
    constructor
    · intro h
      exact ⟨helper, values, rfl, (Except.ok.inj h).symm⟩
    · rintro ⟨helper', values', h, rfl⟩
      obtain ⟨rfl, rfl⟩ := Prod.mk.inj (Except.ok.inj h)
      rfl

/-! ### Typed functions -/

namespace ValueFunction

variable {α φ : Type} [FromValue α] [ValueFunction φ] {f : α → φ} {v : Value} {vs : List Value}

/-- An argument that fits is given to the function, which then waits for the others. -/
theorem apply_of_ofValue?_eq_some {a : α} (h : FromValue.ofValue? v = some a) :
    apply f (v :: vs) = apply (f a) vs := by
  simp only [apply, h]

/-- An argument that does not fit ends the call. -/
theorem apply_of_ofValue?_eq_none (h : (FromValue.ofValue? v : Option α) = none) :
    apply f (v :: vs) = .null := by
  simp only [apply, h]

end ValueFunction

/-- The types that a typed function can ask for. -/
inductive ArgumentType where
  | any
  | bool
  | int64
  | int32
  | uint32
  | uint64
  /-- A size or a position: an integer of 64 bits without sign. -/
  | size
  | float
  | text
  | list
  | map
deriving DecidableEq, Repr

namespace ArgumentType

/-- The values of a type. -/
def Carrier : ArgumentType → Type
  | any => Value
  | bool => Bool
  | int64 => Int64
  | int32 => Int32
  | uint32 => UInt32
  | uint64 => UInt64
  | size => UInt64
  | float => Float
  | text => String
  | list => List Value
  | map => ValueMap

/-- An argument of a type is taken from a value as its carrier is. -/
instance fromValue : (t : ArgumentType) → FromValue t.Carrier
  | any => inferInstanceAs (FromValue Value)
  | bool => inferInstanceAs (FromValue Bool)
  | int64 => inferInstanceAs (FromValue Int64)
  | int32 => inferInstanceAs (FromValue Int32)
  | uint32 => inferInstanceAs (FromValue UInt32)
  | uint64 => inferInstanceAs (FromValue UInt64)
  | size => inferInstanceAs (FromValue UInt64)
  | float => inferInstanceAs (FromValue Float)
  | text => inferInstanceAs (FromValue String)
  | list => inferInstanceAs (FromValue (List Value))
  | map => inferInstanceAs (FromValue ValueMap)

/-- The type that a helper declares for an argument. -/
def param (t : ArgumentType) : ParamType :=
  FromValue.param t.Carrier

/-- The value as one of the type, if it fits. -/
def ofValue? (t : ArgumentType) (v : Value) : Option t.Carrier :=
  FromValue.ofValue? v

/-- The least and the greatest integer of a type that does not have all those of 64 bits. -/
def bounds? : ArgumentType → Option (Int × Int)
  | int32 => some (-2 ^ 31, 2 ^ 31 - 1)
  | uint32 => some (0, 2 ^ 32 - 1)
  | uint64 => some (0, 2 ^ 64 - 1)
  | size => some (0, 2 ^ 64 - 1)
  | _ => none

/-- The value is an integer that the type does not have. -/
def Lacks (t : ArgumentType) (v : Value) : Prop :=
  ∃ n low high, v = .int n ∧ t.bounds? = some (low, high) ∧ (n.toInt < low ∨ high < n.toInt)

/-- An integer is refused by bounds exactly when it lies outside of them. -/
theorem intWithin?_eq_none_iff {low high : Int} {n : Int64} :
    Value.intWithin? low high (.int n) = none ↔ n.toInt < low ∨ high < n.toInt := by
  -- The two sides are each other's negation, by the order of the integers.
  rw [Value.intWithin?]
  by_cases h : low ≤ n.toInt ∧ n.toInt ≤ high
  · simp only [if_pos h, reduceCtorEq, false_iff]
    omega
  · simp only [if_neg h, true_iff]
    omega

/-- A type without bounds has every value of the type that is declared for it. -/
theorem ofValue?_ne_none {t : ArgumentType} {v : Value} (hbounds : t.bounds? = none)
    (h : t.param.accepts v.kind = true) : t.ofValue? v ≠ none := by
  intro hnone
  -- The accepted kind tells the constructor of the value, which is what the type asks for.
  cases t with
  | any => cases hnone
  | bool => cases v <;> cases h; cases hnone
  | int64 => cases v <;> cases h; cases hnone
  | float => cases v <;> cases h; cases hnone
  | text => cases v <;> cases h; cases hnone
  | list => cases v <;> cases h; cases hnone
  | map => cases v <;> cases h; cases hnone
  | _ => cases hbounds

/-- A type with bounds has the integers between them. -/
theorem exists_int_of_bounds? {t : ArgumentType} {v : Value} {low high : Int}
    (hbounds : t.bounds? = some (low, high)) (h : t.param.accepts v.kind = true) :
    ∃ n, v = .int n ∧ (t.ofValue? v = none ↔ n.toInt < low ∨ high < n.toInt) := by
  -- All types with bounds are declared as integers, and those are the only values of that.
  have hint : t.param = .int := by
    cases t <;> first | rfl | cases hbounds
  rw [hint] at h
  cases v <;> cases h
  rename_i n
  refine ⟨n, rfl, ?_⟩
  rw [← intWithin?_eq_none_iff]
  cases t <;> cases hbounds
  all_goals exact Option.map_eq_none_iff

/-- A value of the declared type does not fit exactly when it is an integer that the type lacks. -/
theorem ofValue?_eq_none_iff {t : ArgumentType} {v : Value}
    (h : t.param.accepts v.kind = true) : t.ofValue? v = none ↔ t.Lacks v := by
  cases hbounds : t.bounds? with
  | none =>
    constructor
    · intro hnone
      exact absurd hnone (ofValue?_ne_none hbounds h)
    · rintro ⟨n, low, high, _, hsome, _⟩
      rw [hbounds] at hsome
      cases hsome
  | some bounds =>
    obtain ⟨low, high⟩ := bounds
    obtain ⟨n, rfl, hiff⟩ := exists_int_of_bounds? hbounds h
    rw [hiff]
    constructor
    · intro hout
      exact ⟨n, low, high, rfl, hbounds, hout⟩
    · rintro ⟨n', low', high', hn, hsome, hout⟩
      -- The bounds are those of the type, and the integer is the value.
      obtain rfl := Value.int.inj hn
      rw [hbounds] at hsome
      obtain ⟨rfl, rfl⟩ := Prod.mk.inj (Option.some.inj hsome)
      exact hout

end ArgumentType

/-- The functions of arguments of some types. -/
def ArgumentType.Function (β : Type) : List ArgumentType → Type
  | [] => β
  | t :: ts => t.Carrier → Function β ts

/-- Arguments of some types. -/
def ArgumentType.Arguments : List ArgumentType → Type
  | [] => Unit
  | t :: ts => t.Carrier × Arguments ts

namespace ArgumentType

variable {β : Type} [ToValue β]

/-- A function of arguments of some types is one of the first of them, which gives a function of the
others. -/
instance valueFunction : (ts : List ArgumentType) → ValueFunction (Function β ts)
  | [] => inferInstanceAs (ValueFunction β)
  | t :: ts =>
    let _ := valueFunction ts
    inferInstanceAs (ValueFunction (t.Carrier → Function β ts))

/-- The value of a function at some arguments. -/
def Function.at {β : Type} : {ts : List ArgumentType} → Function β ts → Arguments ts → β
  | [], f, _ => f
  | _ :: _, f, (a, as) => Function.at (f a) as

/-- Some values as arguments of the types, if there are enough and all fit. -/
def read? : (ts : List ArgumentType) → List Value → Option (Arguments ts)
  | [], _ => some ()
  | _ :: _, [] => none
  | t :: ts, v :: vs =>
    match t.ofValue? v, read? ts vs with
    | some a, some as => some (a, as)
    | _, _ => none

/-- The types that are declared for a typed function. -/
theorem params_eq (ts : List ArgumentType) :
    ValueFunction.params (Function β ts) = ts.map param := by
  induction ts with
  | nil => rfl
  | cons t ts ih => exact congrArg (t.param :: ·) ih

/-- A typed function is run on its arguments, or not at all. -/
theorem apply_eq {ts : List ArgumentType} (f : Function β ts) (vs : List Value) :
    ValueFunction.apply f vs = match read? ts vs with
      | some as => ToValue.toValue (f.at as)
      | none => .null := by
  induction ts generalizing vs with
  | nil => rfl
  | cons t ts ih =>
    cases vs with
    | nil => rfl
    | cons v vs =>
      rw [read?]
      cases hv : t.ofValue? v with
      | none => exact ValueFunction.apply_of_ofValue?_eq_none hv
      | some a =>
        -- The other arguments go to the function that the first one leaves.
        refine (ValueFunction.apply_of_ofValue?_eq_some hv).trans ((ih (f a) vs).trans ?_)
        cases read? ts vs with
        | none => rfl
        | some as => rfl

/-- Arguments of the declared types fit, unless one is an integer that its type lacks. -/
theorem read?_eq_none_iff {ts : List ArgumentType} {vs : List Value}
    (hlength : vs.length = ts.length)
    (haccepted : ∀ (i : Nat) (t : ArgumentType) (v : Value),
      ts[i]? = some t → vs[i]? = some v → t.param.accepts v.kind = true) :
    read? ts vs = none ↔
      ∃ (i : Nat) (t : ArgumentType) (v : Value),
        ts[i]? = some t ∧ vs[i]? = some v ∧ t.Lacks v := by
  induction ts generalizing vs with
  | nil => simp [read?]
  | cons t ts ih =>
    cases vs with
    | nil => simp at hlength
    | cons v vs =>
      have hhead : t.ofValue? v = none ↔ t.Lacks v :=
        ofValue?_eq_none_iff (haccepted 0 t v rfl rfl)
      -- The other types and values, counted from one.
      have htail := ih (by simpa using hlength) fun i => haccepted (i + 1)
      constructor
      · intro hnone
        by_cases hlacks : t.Lacks v
        · exact ⟨0, t, v, rfl, rfl, hlacks⟩
        · -- The first argument fits, so it is another one that does not.
          obtain ⟨a, ha⟩ := Option.ne_none_iff_exists'.1 (mt hhead.1 hlacks)
          have hrest : read? ts vs = none := by
            rw [read?, ha] at hnone
            cases hrest : read? ts vs with
            | none => rfl
            | some as => simp [hrest] at hnone
          obtain ⟨i, t', v', ht, hv, hlacks'⟩ := htail.1 hrest
          exact ⟨i + 1, t', v', ht, hv, hlacks'⟩
      · rintro ⟨i, t', v', ht, hv, hlacks⟩
        rw [read?]
        cases i with
        | zero =>
          obtain rfl : t = t' := by simpa using ht
          obtain rfl : v = v' := by simpa using hv
          rw [hhead.2 hlacks]
        | succ i =>
          rw [htail.2 ⟨i, t', v', by simpa using ht, by simpa using hv, hlacks⟩]
          cases t.ofValue? v <;> rfl

end ArgumentType

open ArgumentType

/-- A typed function gets the arguments of a call, or is not run because of an integer that is not
of the type that the function asks for. -/
theorem Registry.prepare_ofFunction {β : Type} [ToValue β] {ts : List ArgumentType}
    {f : HelperContext → Function β ts} {identity : Nat} {r : Registry} {cx : HelperContext}
    {name : String} {args : List Argument} {values : List Value}
    (h : r.prepare cx name args = .ok (.ofFunction identity f, values)) :
    read? ts values = none ↔
      ∃ (i : Nat) (t : ArgumentType) (v : Value),
        ts[i]? = some t ∧ values[i]? = some v ∧ t.Lacks v := by
  obtain ⟨-, hargs, hlength, hpasses⟩ := r.prepare_passes h
  have hparams : (Helper.ofFunction identity f).params = ts.map param := params_eq ts
  rw [Helper.arity, hparams, List.length_map] at hargs hlength
  refine read?_eq_none_iff hlength ?_
  -- There is an argument in the place of every type.
  intro i t v ht hv
  have hi : i < args.length := by
    rw [hargs]
    exact (List.getElem?_eq_some_iff.1 ht).1
  refine (hpasses i args[i] t.param v (List.getElem?_eq_getElem hi) ?_ hv).accepted
  rw [hparams, List.getElem?_map, ht]
  rfl

/-- Helpers only ever see arguments of the types that they declare.

A call that runs a helper gives it as many values as it declares types, in the order of the
arguments. Each is the value of its argument, converted to the type; it is not null, it is of the
type, and to convert it again changes nothing. A converted value fits every type that a typed
function can ask for, except for an integer outside of the bounds of that type. So a typed function
is run on the arguments of its call, unless one of them is such an integer; then the value is
null. -/
theorem sees_typed_arguments :
    (∀ (r : Registry) (cx : HelperContext) (name : String) (args : List Argument) (store : Store)
      (result : Value × Store), r.call cx name args store = .ok result →
        ∃ (helper : Helper) (values : List Value),
          r.get? name = some helper ∧ result = helper.run cx values store ∧
          args.length = helper.arity ∧ values.length = helper.arity ∧
          ∀ (i : Nat) (arg : Argument) (target : ParamType) (v : Value), args[i]? = some arg →
            helper.params[i]? = some target → values[i]? = some v → arg.Passes cx target v) ∧
    (∀ (t : ArgumentType) (l : Locale) (raw : String) (v w : Value),
      v.convert? l t.param raw = some w → (t.ofValue? w = none ↔ t.Lacks w)) ∧
    (∀ (β : Type) [ToValue β] (ts : List ArgumentType) (identity : Nat)
      (f : HelperContext → Function β ts) (r : Registry) (cx : HelperContext) (name : String)
      (args : List Argument) (values : List Value) (store : Store),
      r.prepare cx name args = .ok (.ofFunction identity f, values) →
        r.call cx name args store = .ok (match read? ts values with
          | some as => (ToValue.toValue ((f cx).at as), store)
          | none => (.null, store)) ∧
        (read? ts values = none ↔
          ∃ (i : Nat) (t : ArgumentType) (v : Value),
            ts[i]? = some t ∧ values[i]? = some v ∧ t.Lacks v)) := by
  refine ⟨?_, ?_, ?_⟩
  · intro r cx name args store result hcall
    obtain ⟨helper, values, hprepare, hrun⟩ := Registry.call_eq_ok_iff.1 hcall
    obtain ⟨hget, hargs, hlength, hpasses⟩ := r.prepare_passes hprepare
    exact ⟨helper, values, hget, hrun, hargs, hlength, hpasses⟩
  · intro t l raw v w hconvert
    exact ofValue?_eq_none_iff (Value.accepts_of_convert? hconvert)
  · intro β _ ts identity f r cx name args values store hprepare
    refine ⟨?_, r.prepare_ofFunction hprepare⟩
    -- What the function gives is what it gives on the arguments that could be read.
    have happly : ValueFunction.apply (f cx) values = _ := apply_eq (f cx) values
    rw [Registry.call, hprepare]
    show Except.ok (ValueFunction.apply (f cx) values, store) = _
    rw [happly]
    cases read? ts values with
    | none => rfl
    | some as => rfl

/-- Half of an integer of 32 bits, as a helper. -/
def halfHelper : Helper :=
  .ofFunction 0 fun _ => (fun (n : Int32) => n / 2 : Function Int32 [.int32])

/-- An argument may be converted to an integer that is too large for the function. -/
theorem sees_typed_arguments_of_large_integer :
    (Registry.mk [("half", halfHelper)]).call ⟨.root .null, .invariant, none⟩ "Half"
      [.lookup "3000000000"] Store.empty = .ok (.null, Store.empty) ∧
    ArgumentType.int32.Lacks (.int 3000000000) := by
  have hprepare : (Registry.mk [("half", halfHelper)]).prepare ⟨.root .null, .invariant, none⟩
      "Half" [.lookup "3000000000"] = .ok (halfHelper, [.int 3000000000]) := by
    rfl
  constructor
  · exact (sees_typed_arguments.2.2 _ [.int32] 0 _ _ _ _ _ _ Store.empty hprepare).1
  · exact (sees_typed_arguments.2.1 .int32 .invariant "3000000000" .null _ rfl).1 rfl

end Stencil
