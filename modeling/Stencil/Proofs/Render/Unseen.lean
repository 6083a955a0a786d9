import Stencil.Proofs.Render.Stock
import Stencil.Proofs.Value.Paths

/-!
# `Stencil.Proofs.Render.Unseen`: frames that make no difference

A value that is pushed onto the scope is seen by a path that starts with one of its keys, and by the
path `.` as long as no other value is pushed. `Unseen` says that some tokens have neither kind of
path. Then they are shown as if the value had not been pushed.

While the tokens are shown, the blocks among them push other values, and the frame that makes no
difference is somewhere below. So the induction on the budget is about two scopes that differ by
that frame, wherever it is (`Scope.Veils`), and about two kinds of tokens: those that stand right
above it, and those inside a block that has pushed a value, where `.` is harmless. Both scopes make
the same of every token (`Unseen.stockAction_eq`). `push_unseen` is the main fact.
-/

set_option autoImplicit false

namespace Stencil

open Text

/-! ### Paths that see a frame -/

/-- The path that a token looks up. -/
def Token.path? : Token → Option String
  | .text _ => none
  | .interpolation i => some i.path
  | .call _ => none
  | .block b _ => some b.name

/-- A token at any depth of some tokens, but not inside a plain block. -/
inductive OccursOutside (t : Token) : List Token → Prop where
  | here {tokens : List Token} (mem : t ∈ tokens) : OccursOutside t tokens
  | inside {tokens children : List Token} {b : Block} (mem : .block b children ∈ tokens)
    (kind : b.kind ≠ .plain) (within : OccursOutside t children) : OccursOutside t tokens

/-- A path does not start with a key of a value. The path `.` and others without a first segment
start with no key. -/
def Value.Lacks (v : Value) (path : String) : Prop :=
  firstSegment (trim path.toList) ≠ [] →
    v.get? (String.ofList (firstSegment (trim path.toList))) = none

/-- No path of some tokens of the language starts with a key of a value. If the value is the
innermost frame, then no path for that stands outside their plain blocks. -/
structure Unseen (v : Value) (innermost : Bool) (tokens : List Token) : Prop where
  stock : ∀ t, Occurs t tokens → t.isStock = true
  names : ∀ t path, Occurs t tokens → t.path? = some path → v.Lacks path
  self : innermost = true → ∀ t path, OccursOutside t tokens → t.path? = some path →
    trim path.toList ≠ ['.']

section Unseen

variable {v : Value} {innermost : Bool} {token : Token} {tokens children : List Token} {b : Block}

/-- The other tokens see no more than all of them. -/
theorem Unseen.tail (h : Unseen v innermost (token :: tokens)) : Unseen v innermost tokens where
  stock t ht := h.stock t (occurs_cons.2 (.inr (.inr ht)))
  names t path ht := h.names t path (occurs_cons.2 (.inr (.inr ht)))
  self hinnermost t path ht := by
    refine h.self hinnermost t path ?_
    cases ht with
    | here mem => exact .here (List.mem_cons_of_mem _ mem)
    | inside mem kind within => exact .inside (List.mem_cons_of_mem _ mem) kind within

/-- The children of an inverted block stand where the block stands. -/
theorem Unseen.children_of_inverted (h : Unseen v innermost tokens)
    (hmem : .block b children ∈ tokens) (hkind : b.kind = .inverted) :
    Unseen v innermost children where
  stock t ht := h.stock t (.inside hmem ht)
  names t path ht := h.names t path (.inside hmem ht)
  self hinnermost t path ht := by
    refine h.self hinnermost t path (.inside hmem ?_ ht)
    rw [hkind]
    decide

/-- The children of a plain block stand above the value that it pushes. -/
theorem Unseen.children_of_plain (h : Unseen v innermost tokens)
    (hmem : .block b children ∈ tokens) : Unseen v false children where
  stock t ht := h.stock t (.inside hmem ht)
  names t path ht := h.names t path (.inside hmem ht)
  self hinnermost := by cases hinnermost

end Unseen

/-! ### Scopes that differ by a frame -/

/-- The second scope has one frame more, the innermost one or another one. -/
inductive Scope.Veils (v : Value) : Bool → Scope → Scope → Prop where
  | top (s : Scope) : Veils v true s (s.push v)
  | under {innermost : Bool} {s s' : Scope} (w : Value) (veils : Veils v innermost s s') :
    Veils v false (s.push w) (s'.push w)

section Veils

variable {v : Value} {innermost : Bool} {s s' : Scope}

/-- A name that the frame does not have is found where it was. -/
theorem Scope.Veils.find?_eq (h : Scope.Veils v innermost s s') {name : List Char}
    (hname : v.get? (String.ofList name) = none) : s'.find? name = s.find? name := by
  induction h with
  | top s => exact find?_push_of_eq_none hname s
  | under w _ ih =>
    -- The frame on top is the same in both scopes.
    cases hw : w.get? (String.ofList name) with
    | none => rw [find?_push_of_eq_none hw, find?_push_of_eq_none hw, ih]
    | some found => rw [find?_push_of_eq_some hw, find?_push_of_eq_some hw]

/-- A path that does not see the frame leads to the same value. -/
theorem Scope.Veils.lookup_eq (h : Scope.Veils v innermost s s') {path : String}
    (hlacks : v.Lacks path) (hself : innermost = true → trim path.toList ≠ ['.']) :
    s'.lookup path = s.lookup path := by
  -- The dot leads to the innermost frame, and every other path starts with a name.
  refine lookup_congr (fun hdot => ?_) fun hfirst => h.find?_eq (hlacks hfirst)
  cases h with
  | top => exact absurd hdot (hself rfl)
  | under w _ => rfl

/-- Both scopes make the same of a token that does not see the frame. -/
theorem Unseen.stockAction_eq {token : Token} {rest : List Token}
    (h : Unseen v innermost (token :: rest)) (hveils : Scope.Veils v innermost s s')
    (cx : RenderContext) : token.stockAction cx s' = token.stockAction cx s := by
  have hlookup : ∀ path, token.path? = some path → s'.lookup path = s.lookup path := by
    intro path hpath
    exact hveils.lookup_eq (h.names token path (.here (List.mem_cons_self ..)) hpath)
      fun hinnermost => h.self hinnermost token path (.here (List.mem_cons_self ..)) hpath
  cases token with
  | text literal => rfl
  | interpolation i =>
    simp only [Token.stockAction, RenderContext.interpolate, hlookup i.path rfl]
  | call c => rfl
  | block b children => simp only [Token.stockAction, hlookup b.name rfl]

end Veils

/-! ### Whole renders -/

/-- An action whose children do not see a frame. It makes no new tokens. -/
inductive Action.Overlooks (v : Value) (innermost : Bool) : Action → Prop where
  | write (text : String) : Overlooks v innermost (.write text)
  | skip (b : Block) (children : List Token) : Overlooks v innermost (.block .skip b children)
  | here (b : Block) {children : List Token} (unseen : Unseen v innermost children) :
    Overlooks v innermost (.block .here b children)
  | each (values : List Value) (b : Block) {children : List Token}
    (unseen : Unseen v false children) : Overlooks v innermost (.block (.each values) b children)
  | drain (handle : Handle) (b : Block) {children : List Token}
    (unseen : Unseen v false children) : Overlooks v innermost (.block (.drain handle) b children)
  | once (w : Value) (b : Block) {children : List Token} (unseen : Unseen v false children) :
    Overlooks v innermost (.block (.once w) b children)

/-- What a value in the scope asks for, if the children do not see the frame. -/
theorem BlockPlan.overlooks_ofValue {v : Value} {innermost : Bool} {children : List Token}
    (h : Unseen v false children) (s : Settings) (w : Value) (b : Block) :
    Action.Overlooks v innermost (.block (ofValue s false w) b children) := by
  rcases ofValue_cases s w with hplan | ⟨values, hplan⟩ | ⟨handle, hplan⟩ | hplan
  · rw [hplan]
    exact .skip b children
  · rw [hplan]
    exact .each values b h
  · rw [hplan]
    exact .drain handle b h
  · rw [hplan]
    exact .once w b h

/-- What a token asks for overlooks a frame that the token does not see. -/
theorem Unseen.overlooks {v : Value} {innermost : Bool} {token : Token} {rest : List Token}
    (h : Unseen v innermost (token :: rest)) (cx : RenderContext) (scope : Scope) :
    (token.stockAction cx scope).Overlooks v innermost := by
  rcases token.stockAction_cases cx scope with ⟨text, haction⟩ | ⟨b, children, rfl, hblock⟩
  · rw [haction]
    exact .write text
  · have hmem : Token.block b children ∈ Token.block b children :: rest := List.mem_cons_self ..
    rcases hblock with ⟨_, haction⟩ | ⟨hkind, haction | haction⟩
    · rw [haction]
      exact BlockPlan.overlooks_ofValue (h.children_of_plain hmem) cx.settings _ b
    · rw [haction]
      exact .skip b children
    · rw [haction]
      exact .here b (h.children_of_inverted hmem hkind)

namespace Watch

variable {ε σ : Type} {v : Value} {cx : RenderContext} {more : List RenderRule}

/-- Within every budget two scopes that differ by a frame show tokens alike that do not see it. -/
theorem unseen_all (o : Output ε σ) (hrules : cx.settings.rules = Settings.stockRules ++ more)
    (fuel : Nat) :
    (∀ innermost s s' ts, Scope.Veils v innermost s s' → Unseen v innermost ts →
      tokens o cx fuel s' ts = tokens o cx fuel s ts) ∧
    (∀ innermost s s' action, Scope.Veils v innermost s s' →
      Action.Overlooks v innermost action →
      perform o cx fuel s' action = perform o cx fuel s action) ∧
    (∀ innermost s s' children vs, Scope.Veils v innermost s s' → Unseen v false children →
      each o cx fuel s' children vs = each o cx fuel s children vs) ∧
    ∀ innermost s s' children handle, Scope.Veils v innermost s s' → Unseen v false children →
      drain o cx fuel s' children handle = drain o cx fuel s children handle := by
  induction fuel with
  | zero =>
    refine ⟨fun _ _ _ _ _ _ => ?_, fun _ _ _ _ _ _ => ?_, fun _ _ _ _ _ _ _ => ?_,
      fun _ _ _ _ _ _ _ => ?_⟩
    · rfl
    · rfl
    · rfl
    · rfl
  | succ fuel ih =>
    obtain ⟨ihTokens, ihPerform, ihEach, ihDrain⟩ := ih
    refine ⟨?_, ?_, ?_, ?_⟩
    · intro innermost s s' ts hveils hts
      cases ts with
      | nil => rfl
      | cons token rest =>
        have hstock : token.isStock = true := hts.stock token (.here (List.mem_cons_self ..))
        -- The same token asks for the same in both scopes, and this for the same children.
        rw [tokens_cons_of_act o (Token.act_of_stock hrules s (.inl hstock)),
          tokens_cons_of_act o (Token.act_of_stock hrules s' (.inl hstock)),
          hts.stockAction_eq hveils, ihPerform innermost s s' _ hveils (hts.overlooks cx s),
          ihTokens innermost s s' rest hveils hts.tail]
    · intro innermost s s' action hveils haction
      cases haction with
      | write text => rfl
      | skip b children => rfl
      | here b hchildren => exact ihTokens innermost s s' _ hveils hchildren
      | each values b hchildren => exact ihEach innermost s s' _ values hveils hchildren
      | drain handle b hchildren =>
        rw [perform, perform, ihDrain innermost s s' _ handle hveils hchildren]
      | once w b hchildren =>
        exact ihTokens false (s.push w) (s'.push w) _ (.under w hveils) hchildren
    · intro innermost s s' children vs hveils hchildren
      cases vs with
      | nil => rfl
      | cons w ws =>
        rw [each, each, ihTokens false _ _ children (.under w hveils) hchildren,
          ihEach innermost s s' children ws hveils hchildren]
    · intro innermost s s' children handle hveils hchildren
      rw [drain, drain]
      refine congrArg _ (funext fun w? => ?_)
      cases w? with
      | none => rfl
      | some w =>
        show (do
            tokens o cx fuel (s'.push w) children
            drain o cx fuel s' children handle) = do
            tokens o cx fuel (s.push w) children
            drain o cx fuel s children handle
        rw [ihTokens false _ _ children (.under w hveils) hchildren,
          ihDrain innermost s s' children handle hveils hchildren]

end Watch

section Push

variable {v : Value} {cx : RenderContext} {more : List RenderRule} {ts : List Token}

/-- The text of tokens that do not see the innermost frame. -/
theorem Direct.tokens_push_unseen (hrules : cx.settings.rules = Settings.stockRules ++ more)
    (h : Unseen v true ts) (scope : Scope) (budget : Nat) :
    Direct.tokens cx budget (scope.push v) ts = Direct.tokens cx budget scope ts := by
  have hpushed := (Watch.agreesDirect_all cx budget).1 (scope.push v) ts
  rw [(Watch.unseen_all .direct hrules budget).1 true scope _ ts (.top scope) h] at hpushed
  exact hpushed.unique ((Watch.agreesDirect_all cx budget).1 scope ts)

/-- The streamed form of tokens that do not see the innermost frame. -/
theorem Stream.tokens_push_unseen (hrules : cx.settings.rules = Settings.stockRules ++ more)
    (h : Unseen v true ts) (scope : Scope) (budget : Nat) :
    Stream.tokens cx budget (scope.push v) ts = Stream.tokens cx budget scope ts := by
  have hpushed := (Watch.agreesStream_all cx budget).1 (scope.push v) ts
  rw [(Watch.unseen_all .stream hrules budget).1 true scope _ ts (.top scope) h] at hpushed
  exact hpushed.unique ((Watch.agreesStream_all cx budget).1 scope ts)

/-- Tokens that do not see a value are shown with it on the scope as they are without it, within
every budget and from every store: with the same text or the same writes, the same result and the
same enumerators. So a plain block whose value is true, a number or a text shows such children as if
they stood in its place. -/
theorem push_unseen (hrules : cx.settings.rules = Settings.stockRules ++ more) (h : Unseen v true ts)
    (scope : Scope) :
    (∀ budget store, (Direct.tokens cx budget (scope.push v) ts).runOn store =
      (Direct.tokens cx budget scope ts).runOn store) ∧
    (∀ budget state, (Stream.tokens cx budget (scope.push v) ts).runOn state =
      (Stream.tokens cx budget scope ts).runOn state) ∧
    ∀ b : Block, b.kind = .plain → scope.lookup b.name = v → v.isTruthy = true →
      v.kind ∈ [.bool, .int, .float, .str] →
      ∃ action, (∀ store, (Token.block b ts).act cx scope store = (action, store)) ∧
        ∀ budget, Direct.perform cx (budget + 1) scope action = Direct.tokens cx budget scope ts ∧
          Stream.perform cx (budget + 1) scope action = Stream.tokens cx budget scope ts := by
  refine ⟨fun budget store => ?_, fun budget state => ?_, ?_⟩
  · rw [Direct.tokens_push_unseen hrules h]
  · rw [Stream.tokens_push_unseen hrules h]
  · intro b hkind hvalue htruthy hscalar
    have hstock : (Token.block b ts).isStock = true := by simp [Token.isStock, hkind]
    -- Such a value is neither a list nor an enumerator, so it is pushed once.
    have honce : (Token.block b ts).stockAction cx scope = .block (.once v) b ts := by
      simp only [Token.stockAction, hkind, hvalue]
      cases v with
      | bool x => simp [BlockPlan.ofValue, htruthy]
      | int x => simp [BlockPlan.ofValue, htruthy]
      | float x => simp [BlockPlan.ofValue, htruthy]
      | str x => simp [BlockPlan.ofValue, htruthy]
      | _ => simp [Value.kind] at hscalar
    refine ⟨_, Token.act_of_stock hrules scope (.inl hstock), fun budget => ?_⟩
    rw [honce]
    exact ⟨Direct.tokens_push_unseen hrules h scope budget,
      Stream.tokens_push_unseen hrules h scope budget⟩

end Push

/-- A name, and a block that shows every item of a list. -/
def nameAndTags : List Token :=
  [.interpolation ⟨"name", true, ⟨0, 0⟩⟩,
    .block ⟨⟨.plain, "tags", [], ⟨0, 0⟩⟩, ⟨0, 0⟩, "", .standard⟩
      [.interpolation ⟨".", true, ⟨0, 0⟩⟩]]

/-- These tokens do not see a map with another key: `.` stands inside a plain block. -/
theorem unseen_nameAndTags : Unseen (.map [("other", .int 1)]) true nameAndTags := by
  have hpaths : ∀ t, Occurs t nameAndTags →
      t.isStock = true ∧ t.path? ∈ [some "name", some "tags", some "."] := by
    intro t ht
    simp only [nameAndTags, occurs_cons, occurs_nil, or_false, reduceCtorEq, false_and,
      exists_false, false_or, Token.block.injEq] at ht
    rcases ht with rfl | rfl | ⟨_, _, ⟨_, rfl⟩, ht⟩
    · exact ⟨rfl, by decide⟩
    · exact ⟨rfl, by decide⟩
    · simp only [occurs_cons, occurs_nil, or_false, reduceCtorEq, false_and, exists_false] at ht
      obtain rfl := ht
      exact ⟨rfl, by decide⟩
  refine ⟨fun t ht => (hpaths t ht).1, fun t path ht hpath _ => ?_, fun _ t path ht hpath => ?_⟩
  · have hmem := (hpaths t ht).2
    rw [hpath] at hmem
    simp only [List.mem_cons, Option.some.injEq, List.not_mem_nil, or_false] at hmem
    rcases hmem with rfl | rfl | rfl
    · rfl
    · rfl
    · rfl
  · -- No block is inverted, so what stands outside plain blocks stands outside all blocks.
    cases ht with
    | here mem =>
      simp only [nameAndTags, List.mem_cons, List.not_mem_nil, or_false] at mem
      rcases mem with rfl | rfl
      · cases hpath
        decide
      · cases hpath
        decide
    | inside mem kind _ =>
      simp only [nameAndTags, List.mem_cons, List.not_mem_nil, or_false, reduceCtorEq, false_or,
        Token.block.injEq] at mem
      exact absurd (mem.1 ▸ rfl) kind

/-- A map with a key that no path starts with, below a block that goes through a list. Its items are
what the path `.` inside that block leads to. -/
theorem push_unseen_of_other_key :
    Unseen (.map [("other", .int 1)]) true nameAndTags ∧
      (Direct.tokens ⟨.stock, .invariant⟩ 9
        ((Scope.root (.map [("name", .str "Ada"), ("tags", .list [.str "x", .str "y"])])).push
          (.map [("other", .int 1)])) nameAndTags).runOn .empty =
        some (.ok "Adaxy".toList, .empty) := by
  have hrules : Settings.stock.rules = Settings.stockRules ++ [] := rfl
  refine ⟨unseen_nameAndTags, ?_⟩
  rw [(push_unseen hrules unseen_nameAndTags _).1]
  rfl

end Stencil
