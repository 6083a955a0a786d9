import Mathlib.Data.List.DropRight
import Stencil.Helper.Call
import Stencil.Proofs.Template.Lossless
import Stencil.Proofs.Template.TagMeaning

/-!
# `Stencil.Proofs.Template.Ownership`: which registry owns a helper

The recognizers of an engine and its rules are two lists that grow apart: a registry that is added
puts its recognizer in front of a stock one, and its rule at the end. `owner?` is the registry that
both come to in the end, the first one that has the name.

`rules_withHelpers` and `ruleFor?_of_additions` say so for the rules, `helperFor?_eq` for the
recognizers. `Nests.exists_makes` leads from a token at any depth of a parsed template back to the
tag that says it, and `Tiled.exists_says` to what the language of tags makes of that. The result is
`owners_agree`.
-/

set_option autoImplicit false

namespace Stencil

open Text

/-! ### The rules of an engine with helpers -/

/-- The rules that an addition brings. -/
def Addition.rules : Addition → List RenderRule
  | .inline registry => [.helperCall registry]
  | .sections registry => [.helperSection registry, .invertedHelperSection registry]

/-- Rules of additions stand behind those that were there, in the order of the additions. -/
theorem Settings.rules_foldl_add (s : Settings) (additions : List Addition) :
    (additions.foldl add s).rules = s.rules ++ additions.flatMap Addition.rules := by
  induction additions generalizing s with
  | nil => simp
  | cons a additions ih =>
    have hadd : (s.add a).rules = s.rules ++ a.rules := by
      cases a with
      | inline registry => rfl
      | sections registry => exact List.append_assoc s.rules [_] [_]
    rw [List.foldl_cons, ih, hadd, List.flatMap_cons, List.append_assoc]

/-- The rules of an engine with helpers. -/
theorem Settings.rules_withHelpers (additions : List Addition) :
    (withHelpers additions).rules = stockRules ++ additions.flatMap Addition.rules :=
  rules_foldl_add stock additions

/-! ### The owner of a name -/

/-- The registry that owns a name: the first one that has it. -/
def owner? (registries : List Registry) (name : String) : Option Registry :=
  registries.find? (·.contains name)

/-- The first helper of a name is that of its owner. -/
theorem helperFor?_eq (registries : List Registry) (content : List Char) :
    helperFor? registries content =
      (owner? registries (String.ofList (firstWord content))).bind
        (·.get? (String.ofList (firstWord content))) := by
  induction registries with
  | nil => rfl
  | cons r registries ih =>
    rw [helperFor?, owner?, List.findSome?_cons, List.find?_cons, Registry.contains]
    cases hget : r.get? (String.ofList (firstWord content)) with
    | none => exact ih
    | some helper => exact hget.symm

/-- Without a helper of its first word, no registry has the first word of a content. -/
theorem contains_eq_false_of_helperFor? {registries : List Registry} {content : List Char}
    (h : helperFor? registries content = none) :
    ∀ r ∈ registries, r.contains (String.ofList (firstWord content)) = false := by
  intro r hr
  rw [Registry.contains, List.findSome?_eq_none_iff.1 h r hr]
  rfl

section Rules

variable {token : Token} {pick : Addition → Option Registry} {rule : Registry → RenderRule}
  {name : String}

/-- The first of the rules of additions that accepts a token belongs to the owner of its name. -/
theorem find?_flatMap_rules
    (h : ∀ a : Addition, a.rules.find? (·.accepts token) =
      ((pick a).filter (·.contains name)).map rule) (additions : List Addition) :
    (additions.flatMap Addition.rules).find? (·.accepts token) =
      (owner? (additions.filterMap pick) name).map rule := by
  induction additions with
  | nil => rfl
  | cons a additions ih =>
    rw [List.flatMap_cons, List.find?_append, h a, ih]
    cases hpick : pick a with
    | none =>
      rw [List.filterMap_cons_none hpick]
      rfl
    | some registry =>
      -- The owner is the registry of this addition, or that of the later ones.
      rw [List.filterMap_cons_some hpick, owner?, owner?, List.find?_cons]
      cases hcontains : registry.contains name with
      | false => simp [Option.filter, hcontains]
      | true => simp [Option.filter, hcontains]

end Rules

/-- A call as a token stands for it. -/
structure Calling where
  /-- Tells the tag of a call from the open tags of blocks. -/
  sigil : Sigil
  name : String
  args : List Argument
  tag : Span

/-- The call of an open tag, if it is that of a block with a helper. -/
def OpenTag.calling? (o : OpenTag) : Option Calling :=
  match o.kind with
  | .helper => some ⟨.enter, o.name, o.args, o.tag⟩
  | .invertedHelper => some ⟨.inverted, o.name, o.args, o.tag⟩
  | _ => none

/-- The call of a token. -/
def Token.calling? : Token → Option Calling
  | .call c => some ⟨.bare, c.name, c.args, c.tag⟩
  | .block b _ => b.opening.calling?
  | _ => none

/-- The rule for the calls of a sigil. -/
def Sigil.rule : Sigil → Registry → RenderRule
  | .enter => .helperSection
  | .inverted => .invertedHelperSection
  | _ => .helperCall

/-- The registry that an addition brings for a sigil. -/
def Sigil.registry? (g : Sigil) (a : Addition) : Option Registry :=
  match g with
  | .enter => a.sections?
  | .inverted => a.sections?
  | .leave => none
  | .ampersand => none
  | .bare => a.inline?

/-- The registries for a sigil are those that the additions bring for it. -/
theorem Sigil.registries_filterMap (g : Sigil) (additions : List Addition) :
    g.registries (additions.filterMap Addition.sections?) (additions.filterMap Addition.inline?) =
      additions.filterMap g.registry? := by
  have hnone : additions.filterMap (fun _ => (none : Option Registry)) = [] := by
    simp
  cases g with
  | enter => rfl
  | inverted => rfl
  | leave => exact hnone.symm
  | ampersand => exact hnone.symm
  | bare => rfl

/-- An open tag stands for a call exactly if its block has a helper, and then it tells which. -/
theorem OpenTag.calling?_eq_some_iff {o : OpenTag} {k : Calling} :
    o.calling? = some k ↔
      (o.kind = .helper ∧ k = ⟨.enter, o.name, o.args, o.tag⟩) ∨
      (o.kind = .invertedHelper ∧ k = ⟨.inverted, o.name, o.args, o.tag⟩) := by
  unfold calling?
  cases o.kind <;> simp [eq_comm]

/-- A call is refused by the stock rules. -/
theorem Settings.accepts_of_calling {t : Token} {k : Calling} (h : t.calling? = some k) :
    ∀ rule ∈ stockRules, rule.accepts t = false := by
  cases t with
  | text s => cases h
  | interpolation i => cases h
  | call c => simp [stockRules, RenderRule.accepts]
  | block b children =>
    rcases OpenTag.calling?_eq_some_iff.1 h with ⟨hkind, -⟩ | ⟨hkind, -⟩
    · simp [stockRules, RenderRule.accepts, Block.kind, hkind]
    · simp [stockRules, RenderRule.accepts, Block.kind, hkind]

/-- Of the rules of an addition, the one for the sigil of a call accepts it if the registry has its
name. -/
theorem Addition.find?_rules_of_calling {t : Token} {k : Calling} (h : t.calling? = some k)
    (a : Addition) :
    a.rules.find? (·.accepts t) =
      ((k.sigil.registry? a).filter (·.contains k.name)).map k.sigil.rule := by
  cases t with
  | text s => cases h
  | interpolation i => cases h
  | call c =>
    obtain rfl := Option.some.inj h
    cases a with
    | inline registry =>
      cases hname : registry.contains c.name <;>
        simp [rules, Sigil.registry?, inline?, RenderRule.accepts, Sigil.rule, Option.filter, hname]
    | sections registry => rfl
  | block b children =>
    rcases OpenTag.calling?_eq_some_iff.1 h with ⟨hkind, rfl⟩ | ⟨hkind, rfl⟩
    · cases a with
      | inline registry => rfl
      | sections registry =>
        cases hname : registry.contains b.opening.name <;>
          simp [rules, Sigil.registry?, sections?, RenderRule.accepts, Sigil.rule, Option.filter,
            Block.kind, Block.name, hkind, hname]
    · cases a with
      | inline registry => rfl
      | sections registry =>
        cases hname : registry.contains b.opening.name <;>
          simp [rules, Sigil.registry?, sections?, RenderRule.accepts, Sigil.rule, Option.filter,
            Block.kind, Block.name, hkind, hname]

/-- A call is shown by the rule of the owner of its name. -/
theorem Settings.ruleFor?_of_calling (additions : List Addition) {t : Token} {k : Calling}
    (h : t.calling? = some k) :
    (withHelpers additions).ruleFor? t =
      (owner? (k.sigil.registries (additions.filterMap Addition.sections?)
        (additions.filterMap Addition.inline?)) k.name).map k.sigil.rule := by
  -- The stock rules come first, so it matters that they refuse calls.
  have hnone : stockRules.find? (·.accepts t) = none := by
    rw [List.find?_eq_none]
    intro rule hrule
    rw [accepts_of_calling h rule hrule]
    exact Bool.false_ne_true
  rw [ruleFor?, rules_withHelpers, List.find?_append, hnone, Option.none_or,
    Sigil.registries_filterMap]
  exact find?_flatMap_rules (Addition.find?_rules_of_calling h) additions

/-! ### From a token to its tag -/

/-- An event makes a token: it is the token, or the open tag of the block. -/
inductive Event.Makes : Event → Token → Prop where
  | token (t : Token) : Makes (.token t) t
  | enter (b : Block) (children : List Token) : Makes (.enter b.opening) (.block b children)

/-- A token at any depth is made by one of the pieces that nest. -/
theorem Nests.exists_makes {pieces : List Piece} {tokens : List Token} {t : Token}
    (h : Nests pieces tokens)
    (hplain : ∀ piece ∈ pieces, ∀ b children, piece.event ≠ .token (.block b children))
    (ht : Occurs t tokens) : ∃ piece ∈ pieces, piece.event.Makes t := by
  induction h with
  | nil => cases ht with
    | here mem => cases mem
    | inside mem => cases mem
  | @token piece first pieces tokens hevent _ ih =>
    rcases occurs_cons.1 ht with rfl | ⟨b, children, rfl, _⟩ | hlater
    · exact ⟨piece, by simp, hevent ▸ .token t⟩
    · -- Blocks come of their tags alone, never of one piece.
      exact absurd hevent (hplain piece (by simp) b children)
    · obtain ⟨other, hother, hmakes⟩ :=
        ih (fun other hother => hplain other (List.mem_cons_of_mem _ hother)) hlater
      exact ⟨other, List.mem_cons_of_mem _ hother, hmakes⟩
  | @hidden piece pieces tokens hevent _ ih =>
    obtain ⟨other, hother, hmakes⟩ :=
      ih (fun other hother => hplain other (List.mem_cons_of_mem _ hother)) ht
    exact ⟨other, List.mem_cons_of_mem _ hother, hmakes⟩
  | @block opens closes b inner pieces children tokens tags _ _ ihInside ihRest =>
    rcases occurs_cons.1 ht with rfl | ⟨b', children', heq, hinside⟩ | hlater
    · exact ⟨opens, by simp, tags.enter ▸ .enter b children⟩
    · obtain ⟨rfl, rfl⟩ := Token.block.inj heq
      obtain ⟨other, hother, hmakes⟩ :=
        ihInside (fun other hother => hplain other (by simp [hother])) hinside
      exact ⟨other, by simp [hother], hmakes⟩
    · obtain ⟨other, hother, hmakes⟩ :=
        ihRest (fun other hother => hplain other (by simp [hother])) hlater
      exact ⟨other, by simp [hother], hmakes⟩

/-- A piece that is no literal text is a tag between words, and says what the language of tags makes
of it. -/
theorem Piece.Takes.exists_says {additions : List Addition} {source : List Char} {c : Cursor}
    {piece : Piece} (hc : (Cursor.atStart source).Reaches c) (hstart : piece.start = c.offset)
    (hd : piece.delimiters.Proper) (h : piece.Takes (.withHelpers additions) source c)
    (htext : ∀ s, piece.event ≠ .token (.text s)) :
    ∃ behind inside, c.rest = piece.delimiters.opening.toList ++ behind.rest ∧
      behind.offset = c.offset + byteSize piece.delimiters.opening.toList ∧
      Site.Ends ⟨source, c.offset, behind, piece.delimiters⟩ inside piece.stop ∧
      piece.span.Covers source
        (piece.delimiters.opening.toList ++ inside ++ piece.delimiters.closing.toList) ∧
      Site.Says (additions.filterMap Addition.sections?) (additions.filterMap Addition.inline?)
        ⟨source, c.offset, behind, piece.delimiters⟩ piece.stop inside piece.event := by
  cases h with
  | text text hevent => exact absurd hevent (htext _)
  | tag behind hrest hoffset hread =>
    rw [Settings.recognizers_withHelpers] at hread
    have hclosing : IsWord (⟨source, c.offset, behind, piece.delimiters⟩ : Site).closing :=
      hd.closing
    obtain ⟨inside, hends, hsays⟩ := (recognize_eq_ok_iff hclosing).1 hread
    refine ⟨behind, inside, hrest, hoffset, hends, ?_, hsays⟩
    -- What was taken before leads to the tag, and the tag leads to the end of the piece.
    obtain ⟨lead, hlead, hsize⟩ := hc
    have hlead' : source = lead ++ c.rest := hlead
    have hsize' : c.offset = byteSize lead := hsize.trans (Nat.zero_add _)
    refine ⟨lead, piece.stop.rest, ?_, ?_⟩
    · rw [hlead', hrest, hends.rest]
      simp only [Site.closing, List.append_assoc]
    · have hstop : piece.stop.offset = behind.offset + byteSize
          (inside ++ piece.delimiters.closing.toList) := hends.offset
      rw [Piece.span, hstart, hstop, hoffset, hsize']
      simp only [byteSize_append, Nat.add_assoc]

/-- Each of the pieces of a template that is no literal text is a tag between words, and says what
the language of tags makes of it. -/
theorem Tiled.exists_says {additions : List Addition} {source : List Char} {d : Delimiters}
    {pieces : List Piece} {piece : Piece} {stop : Cursor} (hd : d.Proper)
    (h : Tiled (.withHelpers additions) source d (.atStart source) pieces stop)
    (hpiece : piece ∈ pieces) (htext : ∀ s, piece.event ≠ .token (.text s)) :
    ∃ (site : Site) (inside : List Char), site.closing = piece.delimiters.closing.toList ∧
      site.spanTo piece.stop = piece.span ∧
      piece.span.Covers source
        (piece.delimiters.opening.toList ++ inside ++ piece.delimiters.closing.toList) ∧
      site.Says (additions.filterMap Addition.sections?) (additions.filterMap Addition.inline?)
        piece.stop inside piece.event := by
  obtain ⟨before, after, rfl⟩ := List.append_of_mem hpiece
  obtain ⟨c, hbefore, hstart, hdelimiters, htakes, -, -⟩ := tiled_append_iff.1 h
  have hproper : piece.delimiters.Proper := by
    rw [hdelimiters]
    exact h.proper_along hd (List.prefix_append _ _)
  obtain ⟨behind, inside, -, -, -, hcovers, hsays⟩ :=
    htakes.exists_says hbefore.reaches hstart hproper htext
  refine ⟨⟨source, c.offset, behind, piece.delimiters⟩, inside, rfl, ?_, hcovers, hsays⟩
  rw [Piece.span, hstart]
  rfl

/-! ### What a tag says of its name -/

/-- Leading blanks are taken off once for all. -/
theorem trimStart_trimStart (cs : List Char) : trimStart (trimStart cs) = trimStart cs := by
  rw [trimStart, trimStart, List.dropWhile_idempotent]

/-- What is taken off the end of a text is blank. -/
theorem exists_trimEnd_append (cs : List Char) : ∃ pad, AllBlank pad ∧ cs = trimEnd cs ++ pad := by
  refine ⟨(cs.reverse.takeWhile isBlank).reverse, ?_, ?_⟩
  · intro c hc
    exact List.mem_takeWhile_imp (List.mem_reverse.1 hc)
  · rw [trimEnd, ← List.reverse_append, List.takeWhile_append_dropWhile, List.reverse_reverse]

/-- A text without the blanks around it has no leading blanks. -/
theorem trimStart_trim (cs : List Char) : trimStart (trim cs) = trim cs := by
  -- The trimmed text starts where the text without leading blanks does.
  cases htrim : trim cs with
  | nil => rfl
  | cons c rest =>
    have hprefix : trim cs <+: trimStart cs := prefix_trimEnd (trimStart cs)
    have hhead : (trimStart cs).head? = some c := by
      obtain ⟨pad, hpad⟩ := hprefix
      rw [← hpad, htrim]
      rfl
    have hc : isBlank c = false := by
      have := List.head?_dropWhile_not isBlank cs
      rw [trimStart] at hhead
      rw [hhead] at this
      simpa using this
    simp [trimStart, hc]

/-- No blanks stand in front of the text behind the first word. -/
theorem trim_behindWord (content : List Char) :
    trim (behindWord content) = trimEnd (behindWord content) := by
  rw [trim, behindWord, trimStart_trimStart]

/-- The first word of a content is that of the content without the blanks around it. -/
theorem firstWord_trim (content : List Char) : firstWord (trim content) = firstWord content := by
  obtain ⟨pad, hpad, hsplit⟩ := exists_trimEnd_append (trimStart content)
  have hstart : trimStart (trim content) = trim content := trimStart_trim content
  -- Blanks at the end are no part of a word.
  have hstop : ∀ cs, (cs ++ pad).takeWhile (!isBlank ·) = cs.takeWhile (!isBlank ·) := by
    intro cs
    induction cs with
    | nil =>
      cases pad with
      | nil => rfl
      | cons c pad => simp [hpad c (by simp)]
    | cons c cs ih => simp only [List.cons_append, List.takeWhile_cons, ih]
  rw [firstWord, hstart, firstWord, hsplit, hstop]
  rfl

/-- The call that an event stands for. -/
def Event.calling? : Event → Option Calling
  | .token t => t.calling?
  | .enter opening => opening.calling?
  | _ => none

/-- The sigil and the name of an open tag, if it is that of a block without a helper. -/
def OpenTag.naming? (o : OpenTag) : Option (Sigil × String) :=
  match o.kind with
  | .plain => some (.enter, o.name)
  | .inverted => some (.inverted, o.name)
  | _ => none

/-- The sigil and the name or path of a token that a helper could have had: an interpolation that
is escaped, or a block without a helper. -/
def Token.naming? : Token → Option (Sigil × String)
  | .interpolation i => if i.escaped then some (.bare, i.path) else none
  | .block b _ => b.opening.naming?
  | _ => none

/-- The sigil and the name or path that an event stands for. -/
def Event.naming? : Event → Option (Sigil × String)
  | .token t => t.naming?
  | .enter opening => opening.naming?
  | _ => none

/-- A token stands for the call that its event stands for. -/
theorem Event.Makes.calling?_eq {e : Event} {t : Token} (h : e.Makes t) :
    e.calling? = t.calling? := by
  cases h <;> rfl

/-- A token has the name that its event has. -/
theorem Event.Makes.naming?_eq {e : Event} {t : Token} (h : e.Makes t) :
    e.naming? = t.naming? := by
  cases h <;> rfl

section Says

variable {sections inlines : List Registry} {site : Site} {next : Cursor} {inside : List Char}
  {event : Event}

/-- A tag that stands for a call has a content whose first word is the name of a helper. -/
theorem Site.Says.of_calling {k : Calling} (h : site.Says sections inlines next inside event)
    (hcalling : event.calling? = some k) :
    ∃ content helper, inside = k.sigil.chars ++ content ∧ StartsFirst site.closing content ∧
      k.tag = site.spanTo next ∧ k.name = String.ofList (firstWord content) ∧
      helperFor? (k.sigil.registries sections inlines) content = some helper ∧
      helper.arguments? content = some k.args := by
  cases h with
  | comment => cases hcalling
  | change => cases hcalling
  | braces => cases hcalling
  | sigil g content _ _ hfirst hsays =>
    generalize hhelper : helperFor? (g.registries sections inlines) content = helper? at hsays
    cases hsays with
    | name => cases g <;> cases hcalling
    | call helper args hargs =>
      cases g with
      | enter =>
        obtain rfl := Option.some.inj hcalling
        exact ⟨content, helper, rfl, hfirst, rfl, rfl, hhelper, hargs⟩
      | inverted =>
        obtain rfl := Option.some.inj hcalling
        exact ⟨content, helper, rfl, hfirst, rfl, rfl, hhelper, hargs⟩
      | bare =>
        obtain rfl := Option.some.inj hcalling
        exact ⟨content, helper, rfl, hfirst, rfl, rfl, hhelper, hargs⟩
      -- No helpers are sought for these.
      | leave => cases hhelper
      | ampersand => cases hhelper

/-- A tag that could have stood for a call, but does not, has a content whose first word is not the
name of a helper. -/
theorem Site.Says.of_naming {g : Sigil} {name : String}
    (h : site.Says sections inlines next inside event)
    (hnaming : event.naming? = some (g, name)) :
    ∃ content, name = String.ofList (trim content) ∧
      helperFor? (g.registries sections inlines) content = none := by
  cases h with
  | comment => cases hnaming
  | change => cases hnaming
  | braces => cases hnaming
  | sigil g' content _ _ _ hsays =>
    generalize hhelper : helperFor? (g'.registries sections inlines) content = helper? at hsays
    cases hsays with
    -- Of the events for a name, those that `naming?` knows are left.
    | name =>
      cases g' <;> cases hnaming
      all_goals exact ⟨content, rfl, hhelper⟩
    | call helper args => cases g' <;> cases hnaming

end Says

/-! ### Who owns a call -/

/-- A call belongs to a registry: that is the first one with its name, it has a helper of that name,
and this helper tells whether the text behind the name counts. The content of the tag is the text
between its mark and its closing delimiter. -/
structure Calling.Belongs (k : Calling) (registries : List Registry) (content : List Char)
    (owner : Registry) (helper : Helper) : Prop where
  first : owner? registries k.name = some owner
  found : owner.get? k.name = some helper
  named : k.name = String.ofList (firstWord content)
  withoutArguments : helper.arity = 0 → k.args = []
  withArguments : helper.arity ≠ 0 → ∀ offset : Nat,
    parseArguments (String.ofList (trim (behindWord content))) offset = .ok k.args
  /-- A helper without arguments is always run. -/
  ready : helper.arity = 0 → ∀ cx : HelperContext,
    owner.prepare cx k.name k.args = .ok (helper, [])

/-- The tag of a call stands in a template where it says, with a content between the delimiters that
are in effect there. -/
def Calling.Written (k : Calling) (p : Pipeline) (source : List Char) (d : Delimiters)
    (content : List Char) : Prop :=
  ∃ piece ∈ (p.scan source ⟨.atStart source, d⟩).1, piece.span = k.tag ∧
    k.tag.Covers source (piece.delimiters.opening.toList ++ (k.sigil.chars ++ content) ++
      piece.delimiters.closing.toList) ∧
    StartsFirst piece.delimiters.closing.toList content

/-- A helper without arguments can be run on none. -/
theorem Registry.prepare_nil {r : Registry} {name : String} {helper : Helper}
    (hget : r.get? name = some helper) (harity : helper.arity = 0) (cx : HelperContext) :
    r.prepare cx name [] = .ok (helper, []) := by
  rw [prepare, hget]
  simp [harity, resolveArguments]

/-- A content that calls a helper makes a call that belongs to the owner of its first word. -/
theorem Calling.exists_belongs {k : Calling} {registries : List Registry} {content : List Char}
    {helper : Helper} (hname : k.name = String.ofList (firstWord content))
    (hhelper : helperFor? registries content = some helper)
    (hargs : helper.arguments? content = some k.args) :
    ∃ owner, k.Belongs registries content owner helper := by
  rw [helperFor?_eq, ← hname] at hhelper
  obtain ⟨owner, hfirst, hfound⟩ := Option.bind_eq_some_iff.1 hhelper
  -- The arguments are the same wherever the content stands.
  have hread : ∀ offset, helper.argumentsAt offset content = .ok k.args := by
    intro offset
    exact Helper.argumentsAt_eq_ok_iff.2 hargs
  have hnone : helper.arity = 0 → k.args = [] := by
    intro harity
    have hzero := hread 0
    rw [Helper.argumentsAt, if_pos harity] at hzero
    exact (Except.ok.inj hzero).symm
  refine ⟨owner, hfirst, hfound, hname, hnone, ?_, ?_⟩
  · intro harity offset
    have hzero := hread 0
    rw [Helper.argumentsAt, if_neg harity] at hzero
    refine Argument.readAll_of_eq_ok ?_ hzero
    rw [String.toList_ofList, trim_behindWord]
  · intro harity cx
    rw [hnone harity]
    exact Registry.prepare_nil hfound harity cx

section Parsed

variable {additions : List Addition} {source : String} {d : Delimiters} {tokens : List Token}

/-- A token of a template comes from one of the pieces, which is a tag and says what the language of
tags makes of it, unless the token is literal text. -/
theorem exists_says_of_occurs (hd : d.Proper)
    (h : (Pipeline.withHelpers additions).parse source d = .ok tokens) {t : Token}
    (ht : Occurs t tokens) (htext : ∀ s, t ≠ .text s) :
    ∃ piece ∈ ((Pipeline.withHelpers additions).scan source.toList
        ⟨.atStart source.toList, d⟩).1,
      piece.event.Makes t ∧ ∃ (site : Site) (inside : List Char),
        site.closing = piece.delimiters.closing.toList ∧ site.spanTo piece.stop = piece.span ∧
        piece.span.Covers source.toList
          (piece.delimiters.opening.toList ++ inside ++ piece.delimiters.closing.toList) ∧
        site.Says (additions.filterMap Addition.sections?) (additions.filterMap Addition.inline?)
          piece.stop inside piece.event := by
  obtain ⟨pieces, hscan, hnests⟩ := Pipeline.parse_eq_ok_iff.1 h
  have htiled := tiled_of_scan hscan
  obtain ⟨piece, hpiece, hmakes⟩ := hnests.exists_makes htiled.ne_block ht
  -- The event of a literal text makes that text alone, which was ruled out.
  have hevent : ∀ s, piece.event ≠ .token (.text s) := by
    intro s heq
    rw [heq] at hmakes
    cases hmakes
    exact htext s rfl
  rw [hscan]
  exact ⟨piece, hpiece, hmakes, htiled.exists_says hd hpiece hevent⟩

/-- A call in a template belongs to the registry whose rule shows it. -/
theorem exists_owner_of_calling (hd : d.Proper)
    (h : (Pipeline.withHelpers additions).parse source d = .ok tokens) {t : Token} {k : Calling}
    (ht : Occurs t tokens) (hcalling : t.calling? = some k) :
    ∃ content owner helper, k.Written (.withHelpers additions) source.toList d content ∧
      k.Belongs (k.sigil.registries (additions.filterMap Addition.sections?)
        (additions.filterMap Addition.inline?)) content owner helper ∧
      (Settings.withHelpers additions).ruleFor? t = some (k.sigil.rule owner) := by
  have htext : ∀ s, t ≠ .text s := by
    rintro s rfl
    cases hcalling
  obtain ⟨piece, hpiece, hmakes, site, inside, hclosing, hspan, hcovers, hsays⟩ :=
    exists_says_of_occurs hd h ht htext
  obtain ⟨content, helper, rfl, hfirst, htag, hname, hhelper, hargs⟩ :=
    hsays.of_calling (hmakes.calling?_eq.trans hcalling)
  obtain ⟨owner, hbelongs⟩ := Calling.exists_belongs hname hhelper hargs
  have hspan' : piece.span = k.tag := hspan.symm.trans htag.symm
  refine ⟨content, owner, helper, ⟨piece, hpiece, hspan', hspan' ▸ hcovers, hclosing ▸ hfirst⟩,
    hbelongs, ?_⟩
  rw [Settings.ruleFor?_of_calling additions hcalling, hbelongs.first]
  rfl

/-- The first word of a path or a name in a template is not that of a helper. -/
theorem contains_eq_false_of_naming (hd : d.Proper)
    (h : (Pipeline.withHelpers additions).parse source d = .ok tokens) {t : Token} {g : Sigil}
    {name : String} (ht : Occurs t tokens) (hnaming : t.naming? = some (g, name)) :
    ∀ r ∈ g.registries (additions.filterMap Addition.sections?)
        (additions.filterMap Addition.inline?),
      r.contains (String.ofList (firstWord name.toList)) = false := by
  have htext : ∀ s, t ≠ .text s := by
    rintro s rfl
    cases hnaming
  obtain ⟨piece, -, hmakes, site, inside, -, -, -, hsays⟩ := exists_says_of_occurs hd h ht htext
  obtain ⟨content, rfl, hhelper⟩ := hsays.of_naming (hmakes.naming?_eq.trans hnaming)
  rw [String.toList_ofList, firstWord_trim]
  exact contains_eq_false_of_helperFor? hhelper

/-- The parser and the rules of an engine with helpers agree on who owns a call.

In a template between words as delimiters, every call of a helper by a tag of its own belongs to the
first of the registries for tags that has its name, and the rule that shows it is the one of that
registry. The same holds of the blocks with a helper and the registries for blocks. An interpolation
that is escaped does not start with a name of the former, and a block without a helper not with one
of the latter. -/
theorem owners_agree (hd : d.Proper)
    (h : (Pipeline.withHelpers additions).parse source d = .ok tokens) :
    (∀ c : HelperCall, Occurs (.call c) tokens →
      ∃ content owner helper,
        Calling.Written ⟨.bare, c.name, c.args, c.tag⟩ (.withHelpers additions) source.toList d
          content ∧
        Calling.Belongs ⟨.bare, c.name, c.args, c.tag⟩ (additions.filterMap Addition.inline?)
          content owner helper ∧
        (Settings.withHelpers additions).ruleFor? (.call c) = some (.helperCall owner)) ∧
    (∀ (b : Block) (children : List Token), Occurs (.block b children) tokens →
      b.kind = .helper →
      ∃ content owner helper,
        Calling.Written ⟨.enter, b.name, b.args, b.opening.tag⟩ (.withHelpers additions)
          source.toList d content ∧
        Calling.Belongs ⟨.enter, b.name, b.args, b.opening.tag⟩
          (additions.filterMap Addition.sections?) content owner helper ∧
        (Settings.withHelpers additions).ruleFor? (.block b children) =
          some (.helperSection owner)) ∧
    (∀ (b : Block) (children : List Token), Occurs (.block b children) tokens →
      b.kind = .invertedHelper →
      ∃ content owner helper,
        Calling.Written ⟨.inverted, b.name, b.args, b.opening.tag⟩ (.withHelpers additions)
          source.toList d content ∧
        Calling.Belongs ⟨.inverted, b.name, b.args, b.opening.tag⟩
          (additions.filterMap Addition.sections?) content owner helper ∧
        (Settings.withHelpers additions).ruleFor? (.block b children) =
          some (.invertedHelperSection owner)) ∧
    (∀ i : Interpolation, Occurs (.interpolation i) tokens → i.escaped = true →
      ∀ r ∈ additions.filterMap Addition.inline?,
        r.contains (String.ofList (firstWord i.path.toList)) = false) ∧
    (∀ (b : Block) (children : List Token), Occurs (.block b children) tokens →
      b.kind = .plain ∨ b.kind = .inverted →
      ∀ r ∈ additions.filterMap Addition.sections?,
        r.contains (String.ofList (firstWord b.name.toList)) = false) := by
  refine ⟨?_, ?_, ?_, ?_, ?_⟩
  · intro c hc
    exact exists_owner_of_calling hd h hc rfl
  · intro b children hb hkind
    exact exists_owner_of_calling hd h hb (OpenTag.calling?_eq_some_iff.2 (.inl ⟨hkind, rfl⟩))
  · intro b children hb hkind
    exact exists_owner_of_calling hd h hb (OpenTag.calling?_eq_some_iff.2 (.inr ⟨hkind, rfl⟩))
  · intro i hi hescaped
    have hnaming : (Token.interpolation i).naming? = some (.bare, i.path) := if_pos hescaped
    exact contains_eq_false_of_naming hd h hi hnaming
  · intro b children hb hkind
    rcases hkind with hkind | hkind
    · have hnaming : (Token.block b children).naming? = some (.enter, b.name) := by
        have hopening : b.opening.kind = .plain := hkind
        rw [Token.naming?, OpenTag.naming?, hopening]
        rfl
      exact contains_eq_false_of_naming hd h hb hnaming
    · have hnaming : (Token.block b children).naming? = some (.inverted, b.name) := by
        have hopening : b.opening.kind = .inverted := hkind
        rw [Token.naming?, OpenTag.naming?, hopening]
        rfl
      exact contains_eq_false_of_naming hd h hb hnaming

end Parsed

/-- A registry with one helper, which takes an argument of no account and is always true. -/
def Registry.alwaysGiven : Registry :=
  ⟨[("always", ⟨1, [.any], fun _ _ store => (.bool true, store)⟩)]⟩

/-- Two registries have the same name, for a helper with an argument and for one without. The latter
comes first, and so the text behind its name is passed over. -/
theorem owners_agree_of_clash :
    (∃ content owner helper,
      Calling.Written ⟨.bare, "ALWAYS", [], ⟨0, 12⟩⟩
        (.withHelpers [.sections .always, .inline .always, .inline .alwaysGiven,
          .sections .alwaysGiven])
        "\x7b\x7bALWAYS x\x7d\x7d\x7b\x7b#Always x\x7d\x7d\x7b\x7b/Always\x7d\x7d".toList
        .standard content ∧
      Calling.Belongs ⟨.bare, "ALWAYS", [], ⟨0, 12⟩⟩ [.always, .alwaysGiven] content owner helper ∧
      (Settings.withHelpers [.sections .always, .inline .always, .inline .alwaysGiven,
        .sections .alwaysGiven]).ruleFor? (.call ⟨"ALWAYS", [], ⟨0, 12⟩, ⟨2, 10⟩⟩) =
          some (.helperCall owner)) ∧
    (∃ content owner helper,
      Calling.Written ⟨.enter, "Always", [], ⟨12, 25⟩⟩
        (.withHelpers [.sections .always, .inline .always, .inline .alwaysGiven,
          .sections .alwaysGiven])
        "\x7b\x7bALWAYS x\x7d\x7d\x7b\x7b#Always x\x7d\x7d\x7b\x7b/Always\x7d\x7d".toList
        .standard content ∧
      Calling.Belongs ⟨.enter, "Always", [], ⟨12, 25⟩⟩ [.always, .alwaysGiven] content owner
        helper ∧
      (Settings.withHelpers [.sections .always, .inline .always, .inline .alwaysGiven,
        .sections .alwaysGiven]).ruleFor?
          (.block ⟨⟨.helper, "Always", [], ⟨12, 25⟩⟩, ⟨25, 36⟩, "", .standard⟩ []) =
          some (.helperSection owner)) := by
  have hparse : (Pipeline.withHelpers [.sections .always, .inline .always,
      .inline .alwaysGiven, .sections .alwaysGiven]).parse
      "\x7b\x7bALWAYS x\x7d\x7d\x7b\x7b#Always x\x7d\x7d\x7b\x7b/Always\x7d\x7d" .standard =
        .ok [.call ⟨"ALWAYS", [], ⟨0, 12⟩, ⟨2, 10⟩⟩, .block
          ⟨⟨.helper, "Always", [], ⟨12, 25⟩⟩, ⟨25, 36⟩, "", .standard⟩ []] :=
    Pipeline.parse_of_parseWithin (n := 6) rfl
  obtain ⟨hcalls, hblocks, -⟩ := owners_agree Delimiters.proper_standard hparse
  constructor
  · exact hcalls _ (.here (.head _))
  · exact hblocks _ _ (.here (.tail _ (.head _))) rfl

end Stencil
