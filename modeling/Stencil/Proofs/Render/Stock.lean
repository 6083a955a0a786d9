import Stencil.Proofs.Render.Watch

/-!
# `Stencil.Proofs.Render.Stock`: what the stock rules make of a token

The stock rules do not touch the store. What they make of a token depends on the scope alone, and
`Token.stockAction` writes it down. They come first in the settings, so other rules behind them
change nothing for the tokens that they accept (`Token.act_of_stock`). They never ask for a text to
be parsed (`Token.stockAction_cases`).

Two renders that do the same when they are watched have the same text and the same streamed form
(`Watch.AgreesDirect.unique`, `Watch.AgreesStream.unique`).
-/

set_option autoImplicit false

namespace Stencil

/-- Whether a token is one of the language itself, which needs no helper. -/
def Token.isStock : Token → Bool
  | .text _ => true
  | .interpolation _ => true
  | .call _ => false
  | .block b _ => b.kind = .plain || b.kind = .inverted

/-- What the stock rules make of a token in a scope. -/
def Token.stockAction (cx : RenderContext) (scope : Scope) : Token → Action
  | .text literal => .write literal
  | .interpolation i => .write (cx.interpolate scope i)
  | .call _ => .write ""
  | .block b children =>
    match b.kind with
    | .plain => .block (.ofValue cx.settings false (scope.lookup b.name)) b children
    | .inverted => .block (if (scope.lookup b.name).isTruthy then .skip else .here) b children
    | _ => .write ""

section Act

variable {cx : RenderContext} {more : List RenderRule}

/-- The stock rules, with others behind them or not, show every token of the language as they do
alone. Without others they pass over the rest. -/
theorem Token.act_of_stock (hrules : cx.settings.rules = Settings.stockRules ++ more)
    (scope : Scope) {token : Token} (h : token.isStock = true ∨ more = []) (store : Store) :
    token.act cx scope store = (token.stockAction cx scope, store) := by
  -- The rules are asked in order, so that those behind the stock ones matter to no stock token.
  rw [act, Settings.ruleFor?, hrules]
  cases token with
  | text literal => rfl
  | interpolation i => rfl
  | call c =>
    obtain rfl : more = [] := h.resolve_left (by simp [isStock])
    rfl
  | block b children =>
    obtain ⟨⟨kind, name, args, tag⟩, closing, body, delimiters⟩ := b
    cases kind with
    | plain => rfl
    | inverted => rfl
    | helper =>
      -- With no rules behind them, nothing shows a block with a helper.
      obtain rfl : more = [] := h.resolve_left (by simp [isStock, Block.kind])
      rfl
    | invertedHelper =>
      obtain rfl : more = [] := h.resolve_left (by simp [isStock, Block.kind])
      rfl

end Act

/-- The stock rules ask for a text, or for the children of a block: those of a plain one for its
value, those of an inverted one in their place or not at all. -/
theorem Token.stockAction_cases (cx : RenderContext) (scope : Scope) (token : Token) :
    (∃ text, token.stockAction cx scope = .write text) ∨
      ∃ b children, token = .block b children ∧
        ((b.kind = .plain ∧ token.stockAction cx scope =
            .block (.ofValue cx.settings false (scope.lookup b.name)) b children) ∨
          (b.kind = .inverted ∧ (token.stockAction cx scope = .block .skip b children ∨
            token.stockAction cx scope = .block .here b children))) := by
  cases token with
  | text literal => exact .inl ⟨literal, rfl⟩
  | interpolation i => exact .inl ⟨_, rfl⟩
  | call c => exact .inl ⟨"", rfl⟩
  | block b children =>
    cases hkind : b.kind with
    | plain =>
      refine .inr ⟨b, children, rfl, .inl ⟨hkind, ?_⟩⟩
      simp [stockAction, hkind]
    | inverted =>
      refine .inr ⟨b, children, rfl, .inr ⟨hkind, ?_⟩⟩
      simp only [stockAction, hkind]
      split
      · exact .inl rfl
      · exact .inr rfl
    | helper => exact .inl ⟨"", by simp [stockAction, hkind]⟩
    | invertedHelper => exact .inl ⟨"", by simp [stockAction, hkind]⟩

/-- A value of the scope is shown by no children, or by children that it is pushed for. -/
theorem BlockPlan.ofValue_cases (s : Settings) (v : Value) :
    ofValue s false v = .skip ∨ (∃ values, ofValue s false v = .each values) ∨
      (∃ handle, ofValue s false v = .drain handle) ∨ ofValue s false v = .once v := by
  unfold ofValue
  split
  · exact .inl rfl
  · cases v with
    | list values =>
      by_cases hlist : s.excluded.contains .list = true
      · exact .inr (.inr (.inr (if_pos hlist)))
      · exact .inr (.inl ⟨values, if_neg hlist⟩)
    | iter handle =>
      by_cases hiter : s.excluded.contains .iter = true
      · exact .inr (.inr (.inr (if_pos hiter)))
      · exact .inr (.inr (.inl ⟨handle, if_neg hiter⟩))
    | _ => exact .inr (.inr (.inr rfl))

namespace Watch

/-- A token that asks for the same whatever the store is does not have to be asked. -/
theorem tokens_cons_of_act {ε σ : Type} (o : Output ε σ) {cx : RenderContext} {scope : Scope}
    {token : Token} {action : Action} (h : ∀ store, token.act cx scope store = (action, store))
    (fuel : Nat) (rest : List Token) :
    tokens o cx (fuel + 1) scope (token :: rest) = (do
      perform o cx fuel scope action
      tokens o cx fuel scope rest) := by
  funext state
  have hstep : (step (token.act cx scope) : Watch ε σ Action) state = some (.ok action, state) := by
    rw [step, h]
  rw [tokens, bind_of_ok hstep]

/-- The text is the output of a watched render that has nothing in its output at first. -/
theorem AgreesDirect.eq_map {d : Direct (List Char)} {w : Watch ParseError (List Char) Unit}
    (h : AgreesDirect d w) (store : Store) :
    d store = (w ⟨store, [], []⟩).map fun (result, state) =>
      (result.map fun _ => state.out, state.store) := by
  rcases h ⟨store, [], []⟩ with ⟨hw, hd⟩ | ⟨result, text, state, hw, hout, hd⟩
  · rw [hw, hd]
    rfl
  · obtain rfl : state.out = text := hout
    rw [hw, hd]
    rfl

/-- A watched render determines the text. -/
theorem AgreesDirect.unique {d d' : Direct (List Char)} {w : Watch ParseError (List Char) Unit}
    (h : AgreesDirect d w) (h' : AgreesDirect d' w) : d = d' := by
  funext store
  rw [h.eq_map, h'.eq_map]

/-- A watched render determines the streamed form. -/
theorem AgreesStream.unique {e e' : Stream Unit} {w : Watch Error Sink Unit}
    (h : AgreesStream e w) (h' : AgreesStream e' w) : e = e' := by
  funext state
  exact (h ⟨state.store, state.sink, []⟩).trans (h' ⟨state.store, state.sink, []⟩).symm

end Watch

end Stencil
