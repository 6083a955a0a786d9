import Stencil.Proofs.Render.Streaming

/-!
# `Stencil.Proofs.Render.Escaping`: values cannot bring HTML into a text

The stock rules show a value in one place only, an interpolation, and that escapes whatever text
the value has. So the characters special in HTML come from the literal texts of a template or not at
all, and an ampersand that does not come from there begins the reference to such a character.

`ReferencesOnly` is what an escaped text has of ampersands, and `referencesOnly_escapeHtml` says so.
`Direct.Yields P` says that a computation does not fail and gives a text with the property `P`. Any
property that escaped texts have, and texts put together from texts that have it (`Composable`), is
one of a whole render if the literal texts have it: `Direct.yields_all` goes through all blocks and
through every value that they push onto the scope. `exists_escaped` is the main fact.
-/

set_option autoImplicit false

namespace Stencil

open Text

/-! ### References -/

/-- The references to the characters special in HTML. -/
def htmlReferences : List String :=
  ["&amp;", "&lt;", "&gt;", "&quot;", "&#39;"]

/-- Every ampersand of a text begins a reference to a character special in HTML. -/
def ReferencesOnly (cs : List Char) : Prop :=
  ∀ lead rest, cs = lead ++ '&' :: rest →
    ∃ reference ∈ htmlReferences, reference.toList <+: '&' :: rest

/-- A text without ampersands has references only. -/
theorem referencesOnly_of_not_mem {cs : List Char} (h : '&' ∉ cs) : ReferencesOnly cs := by
  intro lead rest heq
  refine absurd ?_ h
  rw [heq]
  exact List.mem_append_right lead (List.mem_cons_self ..)

/-- Two texts side by side have no other ampersands than their own. -/
theorem ReferencesOnly.append {first second : List Char} (h : ReferencesOnly first)
    (k : ReferencesOnly second) : ReferencesOnly (first ++ second) := by
  intro lead rest heq
  rcases List.append_eq_append_iff.1 heq with ⟨more, rfl, hsecond⟩ | ⟨more, rfl, hrest⟩
  · exact k more rest hsecond
  · -- The first text ends at the ampersand or behind it.
    cases more with
    | nil =>
      have hsecond : second = [] ++ '&' :: rest := hrest.symm
      exact k [] rest hsecond
    | cons c more =>
      obtain ⟨rfl, rfl⟩ := List.cons.inj hrest
      obtain ⟨reference, hmem, hstart⟩ := h lead more rfl
      exact ⟨reference, hmem, hstart.trans (List.prefix_append ('&' :: more) second)⟩

/-- A reference has one ampersand, and starts with it. -/
theorem referencesOnly_reference {reference : String} (h : reference ∈ htmlReferences) :
    ReferencesOnly reference.toList := by
  obtain ⟨body, hbody, hfree⟩ : ∃ body, reference.toList = '&' :: body ∧ '&' ∉ body := by
    simp only [htmlReferences, List.mem_cons, List.not_mem_nil, or_false] at h
    rcases h with rfl | rfl | rfl | rfl | rfl
    · exact ⟨"amp;".toList, rfl, by decide⟩
    · exact ⟨"lt;".toList, rfl, by decide⟩
    · exact ⟨"gt;".toList, rfl, by decide⟩
    · exact ⟨"quot;".toList, rfl, by decide⟩
    · exact ⟨"#39;".toList, rfl, by decide⟩
  intro lead rest heq
  cases lead with
  | nil =>
    have hwhole : reference.toList = '&' :: rest := heq
    exact ⟨reference, h, hwhole ▸ List.prefix_refl _⟩
  -- A later ampersand would stand in the body of the reference, which has none.
  | cons c lead =>
    have htail : body = lead ++ '&' :: rest := (List.cons.inj (hbody.symm.trans heq)).2
    refine absurd ?_ hfree
    rw [htail]
    exact List.mem_append_right lead (List.mem_cons_self ..)

/-- An escaped character is a reference to it, or no ampersand. -/
theorem referencesOnly_escapeHtmlChar (c : Char) : ReferencesOnly (escapeHtmlChar c) := by
  unfold escapeHtmlChar
  split
  · exact referencesOnly_reference (by decide : "&amp;" ∈ htmlReferences)
  · exact referencesOnly_reference (by decide : "&lt;" ∈ htmlReferences)
  · exact referencesOnly_reference (by decide : "&gt;" ∈ htmlReferences)
  · exact referencesOnly_reference (by decide : "&quot;" ∈ htmlReferences)
  · exact referencesOnly_reference (by decide : "&#39;" ∈ htmlReferences)
  · rename_i hother _ _ _ _
    refine referencesOnly_of_not_mem ?_
    intro hmem
    exact hother (List.mem_singleton.1 hmem).symm

/-- Every ampersand of an escaped text begins a reference. -/
theorem referencesOnly_escapeHtml (cs : List Char) : ReferencesOnly (escapeHtml cs) := by
  induction cs with
  | nil => exact referencesOnly_of_not_mem List.not_mem_nil
  | cons c cs ih =>
    rw [escapeHtml, List.flatMap_cons]
    exact (referencesOnly_escapeHtmlChar c).append ih

/-! ### Properties of texts that are put together -/

/-- A property of escaped texts and of texts put together from texts that have it. -/
structure Composable (P : List Char → Prop) : Prop where
  nil : P []
  append : ∀ {first second : List Char}, P first → P second → P (first ++ second)
  escaped : ∀ cs, P (escapeHtml cs)

/-- That a character special in HTML is not in a text is such a property. -/
theorem composable_not_mem {c : Char} (h : c ∈ ['<', '>', '"', '\'']) : Composable (c ∉ ·) where
  nil := List.not_mem_nil
  append hfirst hsecond hmem := (List.mem_append.1 hmem).elim hfirst hsecond
  escaped := not_mem_escapeHtml h

/-- That a text has references only is such a property. -/
theorem composable_referencesOnly : Composable ReferencesOnly where
  nil := referencesOnly_of_not_mem List.not_mem_nil
  append := .append
  escaped := referencesOnly_escapeHtml

/-- The literal texts among some tokens have a property, and every interpolation is escaped. -/
structure Shielded (P : List Char → Prop) (tokens : List Token) : Prop where
  texts : ∀ s, Occurs (.text s) tokens → P s.toList
  interpolations : ∀ i, Occurs (.interpolation i) tokens → i.escaped = true

section Shielded

variable {P : List Char → Prop} {token : Token} {tokens inner : List Token} {b : Block}

/-- The tokens behind the first one are shielded with all of them. -/
theorem Shielded.tail (h : Shielded P (token :: tokens)) : Shielded P tokens where
  texts s hs := h.texts s (occurs_cons.2 (.inr (.inr hs)))
  interpolations i hi := h.interpolations i (occurs_cons.2 (.inr (.inr hi)))

/-- The children of a block are shielded with the tokens around it. -/
theorem Shielded.children (h : Shielded P tokens) (hmem : .block b inner ∈ tokens) :
    Shielded P inner where
  texts s hs := h.texts s (.inside hmem hs)
  interpolations i hi := h.interpolations i (.inside hmem hi)

end Shielded

/-- What a token of shielded tokens asks for: to write a text with the property, or to deal with
shielded children in a way that makes no new tokens. -/
inductive Action.Shields (P : List Char → Prop) : Action → Prop where
  | write (text : String) (holds : P text.toList) : Shields P (.write text)
  | block (plan : BlockPlan) (b : Block) (children : List Token)
    (parsesNothing : ∀ text, plan ≠ .reparse text) (inside : Shielded P children) :
    Shields P (.block plan b children)

/-- A value of the scope is never taken for a template. -/
theorem BlockPlan.ofValue_ne_reparse (s : Settings) (v : Value) (text : String) :
    BlockPlan.ofValue s false v ≠ .reparse text := by
  unfold ofValue
  split
  · simp
  · cases v with
    | list values => cases s.excluded.contains .list <;> simp
    | iter handle => cases s.excluded.contains .iter <;> simp
    | _ => simp

section Stock

variable {P : List Char → Prop} {cx : RenderContext}

/-- Under the stock rules a shielded token asks for nothing that is not shielded. -/
theorem Token.shields_act (hP : Composable P) (hrules : cx.settings.rules = Settings.stockRules)
    {token : Token} {rest : List Token} (h : Shielded P (token :: rest)) (scope : Scope)
    (store : Store) : (token.act cx scope store).1.Shields P := by
  have hnothing : Action.Shields P (.write "") := .write "" hP.nil
  rw [act, Settings.ruleFor?, hrules]
  -- Each token is shown by one of the stock rules, or by none.
  cases token with
  | text s => exact .write s (h.texts s (.here (List.mem_cons_self ..)))
  | interpolation i =>
    have hescaped : i.escaped = true := h.interpolations i (.here (List.mem_cons_self ..))
    refine .write _ ?_
    rw [RenderContext.interpolate, if_pos hescaped, String.toList_ofList]
    exact hP.escaped _
  | call c => exact hnothing
  | block b children =>
    have hchildren : Shielded P children := h.children (List.mem_cons_self ..)
    obtain ⟨⟨kind, name, args, tag⟩, closing, body, delimiters⟩ := b
    cases kind with
    | plain => exact .block _ _ _ (BlockPlan.ofValue_ne_reparse cx.settings _) hchildren
    | inverted =>
      refine .block _ _ _ ?_ hchildren
      intro text
      split <;> simp
    -- No stock rule shows a block with a helper.
    | helper => exact hnothing
    | invertedHelper => exact hnothing

end Stock

/-! ### Whole renders -/

namespace Direct

/-- A computation that gives a text with a property whenever it ends. It does not fail. -/
def Yields (P : List Char → Prop) (d : Direct (List Char)) : Prop :=
  ∀ (store after : Store) (result : Except ParseError (List Char)),
    d.runOn store = some (result, after) → ∃ text, result = .ok text ∧ P text

section Yields

variable {P : List Char → Prop} {d d' : Direct (List Char)}

/-- What has used up a budget does not end. -/
theorem yields_exhausted : Yields P exhausted := by
  intro store after result h
  simp [exhausted, runOn] at h

/-- A text with the property is given as it is. -/
theorem yields_pure {text : List Char} (h : P text) : Yields P (pure text) := by
  intro store after result hrun
  obtain ⟨rfl, rfl⟩ := Prod.mk.inj (Option.some.inj hrun)
  exact ⟨text, rfl, h⟩

/-- Whatever a change of the store gives, a text with the property comes of it. -/
theorem yields_step {α : Type} {f : Store → α × Store} {e : α → Direct (List Char)}
    (h : ∀ store, (e (f store).1).Yields P) : Yields P (step f >>= e) := by
  intro store after result hrun
  have he : (e (f store).1).runOn (f store).2 = some (result, after) := hrun
  exact h store _ after result he

/-- A change of the store at the end does not touch the text. -/
theorem yields_thenAlways (h : d.Yields P) (f : Store → Store) : Yields P (thenAlways d f) := by
  intro store after result hrun
  obtain ⟨⟨result', after'⟩, hd, heq⟩ := Option.map_eq_some_iff.1 hrun
  obtain ⟨rfl, rfl⟩ := Prod.mk.inj heq
  exact h store after' result' hd

/-- Computations one after the other give their texts one after the other. -/
theorem yields_append (hP : Composable P) (h : d.Yields P) (h' : d'.Yields P) :
    Yields P (do
      let head ← d
      let tail ← d'
      pure (head ++ tail)) := by
  intro store after result hrun
  rcases cases_of_bind hrun with ⟨e, hd, rfl⟩ | ⟨head, mid, hd, hrun⟩
  · obtain ⟨text, herror, _⟩ := h store _ _ hd
    simp at herror
  · obtain ⟨_, hhead, hholds⟩ := h store mid _ hd
    obtain rfl := Except.ok.inj hhead
    rcases cases_of_bind hrun with ⟨e, hd', rfl⟩ | ⟨tail, mid', hd', hrun⟩
    · obtain ⟨text, herror, _⟩ := h' mid _ _ hd'
      simp at herror
    · obtain ⟨_, htail, hholds'⟩ := h' mid mid' _ hd'
      obtain rfl := Except.ok.inj htail
      obtain ⟨rfl, rfl⟩ := Prod.mk.inj (Option.some.inj hrun)
      exact ⟨head ++ tail, rfl, hP.append hholds hholds'⟩

end Yields

/-- Within every budget shielded tokens give a text with the property, whatever is pushed onto the
scope. -/
theorem yields_all {P : List Char → Prop} (cx : RenderContext) (hP : Composable P)
    (hrules : cx.settings.rules = Settings.stockRules) (fuel : Nat) :
    (∀ scope ts, Shielded P ts → (tokens cx fuel scope ts).Yields P) ∧
    (∀ scope action, Action.Shields P action → (perform cx fuel scope action).Yields P) ∧
    (∀ scope children vs, Shielded P children → (each cx fuel scope children vs).Yields P) ∧
    ∀ scope children handle, Shielded P children →
      (drain cx fuel scope children handle).Yields P := by
  induction fuel with
  | zero =>
    refine ⟨fun _ _ _ => ?_, fun _ _ _ => ?_, fun _ _ _ _ => ?_, fun _ _ _ _ => ?_⟩
    · exact yields_exhausted
    · exact yields_exhausted
    · exact yields_exhausted
    · exact yields_exhausted
  | succ fuel ih =>
    obtain ⟨ihTokens, ihPerform, ihEach, ihDrain⟩ := ih
    refine ⟨?_, ?_, ?_, ?_⟩
    · intro scope ts hts
      cases ts with
      | nil => exact yields_pure hP.nil
      | cons token rest =>
        rw [tokens]
        refine yields_step fun store => ?_
        have haction := token.shields_act hP hrules hts scope store
        exact yields_append hP (ihPerform scope _ haction) (ihTokens scope rest hts.tail)
    · intro scope action haction
      cases haction with
      | write text hholds => exact yields_pure hholds
      | block plan b children hparses hchildren =>
        cases plan with
        | skip => exact yields_pure hP.nil
        | here => exact ihTokens scope children hchildren
        -- Shielded tokens never ask for a text to be parsed, and this is where they would.
        | reparse text => exact absurd rfl (hparses text)
        | each values => exact ihEach scope children values hchildren
        | drain handle =>
          rw [perform]
          exact yields_thenAlways (ihDrain scope children handle hchildren) (·.reset handle)
        | once v => exact ihTokens (scope.push v) children hchildren
    · intro scope children vs hchildren
      cases vs with
      | nil => exact yields_pure hP.nil
      | cons v vs =>
        rw [each]
        exact yields_append hP (ihTokens (scope.push v) children hchildren)
          (ihEach scope children vs hchildren)
    · intro scope children handle hchildren
      rw [drain]
      refine yields_step fun store => ?_
      cases (store.next handle).1 with
      | none => exact yields_pure hP.nil
      | some v =>
        exact yields_append hP (ihTokens (scope.push v) children hchildren)
          (ihDrain scope children handle hchildren)

end Direct

/-- A template of shielded tokens has a text with the property, if its render ends. -/
theorem Template.exists_text_of_shielded {P : List Char → Prop} {t : Template} {budget : Nat}
    {s : Settings} {l : Locale} {view : Value} {store after : Store}
    {result : Except ParseError String} (hP : Composable P)
    (hrules : s.rules = Settings.stockRules) (ht : Shielded P t.tokens)
    (h : t.renderWithin budget s l view store = some (result, after)) :
    ∃ text, result = .ok text ∧ P text.toList := by
  obtain ⟨⟨direct, after'⟩, hdirect, heq⟩ := Option.map_eq_some_iff.1 h
  obtain ⟨rfl, rfl⟩ := Prod.mk.inj heq
  obtain ⟨cs, rfl, hcs⟩ := (Direct.yields_all ⟨s, l⟩ hP hrules budget).1
    (.root view) t.tokens ht store after' direct hdirect
  refine ⟨String.ofList cs, rfl, ?_⟩
  rw [String.toList_ofList]
  exact hcs

/-- An empty sink holds a beginning of what is written to it, and all of it if the write succeeds. -/
theorem Sink.bytes_write_new (room : Option Nat) (bs : List UInt8) :
    ((Sink.new room false).write bs).2.bytes <+: bs ∧
      (((Sink.new room false).write bs).1 = .ok () →
        ((Sink.new room false).write bs).2.bytes = bs) := by
  rw [Sink.write_bytes]
  show [] ++ _ <+: bs ∧ (_ → [] ++ _ = bs)
  rw [List.nil_append]
  cases room with
  | none => exact ⟨List.prefix_refl bs, fun _ => rfl⟩
  | some room =>
    refine ⟨List.take_prefix room bs, fun hok => ?_⟩
    show bs.take room = bs
    rcases Nat.lt_or_ge room bs.length with hlt | hge
    · have hfull : ((Sink.new (some room) false).write bs).1 = .error .full :=
        Sink.write_of_lt rfl hlt
      rw [hfull] at hok
      simp at hok
    · exact List.take_of_length_le hge

/-- A template that has a text hands that to any sink, as far as the sink takes it. -/
theorem Template.exists_renderTo_of_text {t : Template} {budget : Nat} {s : Settings} {l : Locale}
    {view : Value} {store after : Store} {text : String}
    (h : t.renderWithin budget s l view store = some (.ok text, after)) (room : Option Nat) :
    ∃ answer state, t.renderToWithin budget s l view ⟨store, .new room false⟩ =
        some (answer, state) ∧
      state.sink.bytes <+: encode text.toList ∧
      (answer = .ok () → state.sink.bytes = encode text.toList) := by
  obtain ⟨emitted, htext, hemits⟩ := t.exists_emits h
  obtain rfl := htext text rfl
  obtain ⟨hok, herror⟩ := hemits (.new room false) rfl
  obtain ⟨hstart, hwhole⟩ := Sink.bytes_write_new room (encode text.toList)
  cases hwrite : (Sink.new room false).write (encode text.toList) with
  | mk answer sink =>
    rw [hwrite] at hstart hwhole
    cases answer with
    | ok _ => exact ⟨_, _, hok sink hwrite, hstart, fun _ => hwhole rfl⟩
    | error e =>
      obtain ⟨stopped, hrun⟩ := herror e sink hwrite
      exact ⟨_, _, hrun, hstart, by simp⟩

/-- Values cannot bring HTML into the text of a template without helpers whose interpolations are
all escaped.

Whatever the view, the locale and the enumerators are, a render that ends does not fail. A character
special in HTML that is in none of the literal texts is not in its text, and if no ampersand is in a
literal text, then every ampersand begins one of the five references. A sink is handed the bytes of
just this text, up to where it is full. -/
theorem exists_escaped {t : Template} {budget : Nat} {s : Settings} {l : Locale} {view : Value}
    {store after : Store} {result : Except ParseError String}
    (hrules : s.rules = Settings.stockRules)
    (hescaped : ∀ i, Occurs (.interpolation i) t.tokens → i.escaped = true)
    (h : t.renderWithin budget s l view store = some (result, after)) :
    ∃ text, result = .ok text ∧
      (∀ c ∈ ['<', '>', '"', '\''],
        (∀ literal, Occurs (.text literal) t.tokens → c ∉ literal.toList) → c ∉ text.toList) ∧
      ((∀ literal, Occurs (.text literal) t.tokens → '&' ∉ literal.toList) →
        ReferencesOnly text.toList) ∧
      ∀ room, ∃ answer state,
        t.renderToWithin budget s l view ⟨store, .new room false⟩ = some (answer, state) ∧
        state.sink.bytes <+: encode text.toList ∧
        (answer = .ok () → state.sink.bytes = encode text.toList) := by
  -- With no property at all, the render still cannot fail.
  have hcomposable : Composable fun _ => True := ⟨trivial, fun _ _ => trivial, fun _ => trivial⟩
  have hnothing : ∃ text, result = .ok text ∧ True :=
    Template.exists_text_of_shielded hcomposable hrules ⟨fun _ _ => trivial, hescaped⟩ h
  obtain ⟨text, rfl, -⟩ := hnothing
  refine ⟨text, rfl, ?_, ?_, Template.exists_renderTo_of_text h⟩
  · intro c hc hfree
    obtain ⟨_, htext, hholds⟩ := Template.exists_text_of_shielded (composable_not_mem hc) hrules
      ⟨hfree, hescaped⟩ h
    obtain rfl := Except.ok.inj htext
    exact hholds
  · intro hfree
    have hliterals : ∀ literal, Occurs (.text literal) t.tokens →
        ReferencesOnly literal.toList :=
      fun literal hliteral => referencesOnly_of_not_mem (hfree literal hliteral)
    obtain ⟨_, htext, hholds⟩ := Template.exists_text_of_shielded composable_referencesOnly hrules
      ⟨hliterals, hescaped⟩ h
    obtain rfl := Except.ok.inj htext
    exact hholds

/-- A block that goes through a text with special characters and through a list, which is shown
with quotes. -/
theorem exists_escaped_of_list :
    Pipeline.stock.parse "[#s][.],[/s]" ⟨"[", "]"⟩ =
      .ok [.block ⟨⟨.plain, "s", [], ⟨0, 4⟩⟩, ⟨8, 12⟩, "[.],", ⟨"[", "]"⟩⟩
        [.interpolation ⟨".", true, ⟨4, 7⟩⟩, .text ","]] ∧
    Template.renderWithin 8 ⟨[.block ⟨⟨.plain, "s", [], ⟨0, 4⟩⟩, ⟨8, 12⟩, "[.],", ⟨"[", "]"⟩⟩
        [.interpolation ⟨".", true, ⟨4, 7⟩⟩, .text ","]]⟩ .stock .invariant
        (.map [("s", .list [.str "<&", .list [.str "a"]])]) ⟨#[]⟩ =
      some (.ok "&lt;&amp;,[&quot;a&quot;],", ⟨#[]⟩) ∧
    '<' ∉ "&lt;&amp;,[&quot;a&quot;],".toList ∧
    ReferencesOnly "&lt;&amp;,[&quot;a&quot;],".toList := by
  have hrender : Template.renderWithin 8
      ⟨[.block ⟨⟨.plain, "s", [], ⟨0, 4⟩⟩, ⟨8, 12⟩, "[.],", ⟨"[", "]"⟩⟩
        [.interpolation ⟨".", true, ⟨4, 7⟩⟩, .text ","]]⟩ .stock .invariant
        (.map [("s", .list [.str "<&", .list [.str "a"]])]) ⟨#[]⟩ =
      some (.ok "&lt;&amp;,[&quot;a&quot;],", ⟨#[]⟩) := rfl
  obtain ⟨text, htext, hfree, hreferences, -⟩ :=
    exists_escaped rfl (by simp [occurs_cons, occurs_nil]) hrender
  obtain rfl := Except.ok.inj htext
  refine ⟨Pipeline.parse_of_parseWithin (n := 8) rfl, hrender, ?_, ?_⟩
  · refine hfree '<' (by decide) ?_
    simp [occurs_cons, occurs_nil]
  · refine hreferences ?_
    simp [occurs_cons, occurs_nil]

end Stencil
