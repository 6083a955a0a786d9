import Stencil.Proofs.Template.TagExtent
import Stencil.Proofs.Text.Words

/-!
# `Stencil.Proofs.Template.TagContent`: what the content of a tag says

The closing delimiter of a tag is a word here. Then all that a recognizer looks at stands in front
of the first closing delimiter: the blanks, the first word, and the arguments behind it.
`call_of_startsFirst` says what a call is made of, and `call_ne_some_of_unclosed` that there is
none without a closing delimiter.

A sigil is the character that tells the kind of a tag. `Sigil.Says` is what the content of a tag
with a sigil says: the first registry that knows its first word makes it a call, and any other
content that is not blank is a name or a path. `recognize_group` says that the recognizers for one
sigil come to just that.
-/

set_option autoImplicit false

namespace Stencil

open Text

/-! ### Searching for the end of a tag -/

/-- A search for the end of a tag finds the first ending and nothing else. -/
theorem Site.upTo_eq_ok_iff {site : Site} {cursor found next : Cursor}
    {ending before : List Char} :
    site.upTo cursor ending = .ok (before, found, next) ↔
      cursor.rest = before ++ ending ++ next.rest ∧ StartsFirst ending before ∧
        found = cursor.past before (ending ++ next.rest) ∧
        next = cursor.past (before ++ ending) next.rest := by
  have hpast : ∀ rest, (cursor.past before (ending ++ rest)).past ending rest =
      cursor.past (before ++ ending) rest := by
    intro rest
    simp only [Cursor.past, byteSize_append, Nat.add_assoc]
  constructor
  · intro h
    obtain ⟨hcut, hfound, hnext⟩ := Site.eq_of_upTo h
    obtain ⟨hrest, hfirst⟩ := cut?_eq_some_iff.1 hcut
    refine ⟨hrest, hfirst, hfound, ?_⟩
    rw [hfound, hpast] at hnext
    exact hnext
  · rintro ⟨hrest, hfirst, rfl, hnext⟩
    have hcut : Text.cut? ending cursor.rest = some (before, next.rest) :=
      cut?_eq_some_iff.2 ⟨hrest, hfirst⟩
    rw [Site.upTo, Cursor.cut?, hcut]
    simp only [Option.map_some, hpast]
    rw [← hnext]

/-- A search fails where the ending does not occur. -/
theorem Site.upTo_eq_unclosed {site : Site} {cursor : Cursor} {ending : List Char}
    (h : ¬ ending <:+: cursor.rest) : site.upTo cursor ending = .error site.unclosed := by
  rw [Site.upTo, Cursor.cut?, cut?_eq_none_iff.2 h]
  rfl

/-- What is read up to the end of a tag is decided by the text in front of the first ending. Some
text stands in front of the search, and the ending may have more than the closing delimiter. -/
theorem Site.bind_upTo_eq_ok_iff {α : Type} {site : Site} {cursor : Cursor}
    {taken lead : List Char} {f : List Char × Cursor × Cursor → Except ParseError α} {a : α}
    (hrest : site.cursor.rest = taken ++ cursor.rest)
    (hoffset : cursor.offset = site.cursor.offset + byteSize taken) :
    site.upTo cursor (lead ++ site.closing) >>= f = .ok a ↔
      ∃ inside next, site.Ends (taken ++ inside ++ lead) next ∧
        StartsFirst (lead ++ site.closing) inside ∧
        f (inside, cursor.past inside (lead ++ site.closing ++ next.rest), next) = .ok a := by
  constructor
  · intro h
    obtain ⟨⟨inside, found, next⟩, hupTo, hf⟩ := exists_ok_of_bind h
    obtain ⟨_, hfirst, hfound, _⟩ := Site.upTo_eq_ok_iff.1 hupTo
    exact ⟨inside, next, Site.ends_of_upTo hrest hoffset hupTo, hfirst, hfound ▸ hf⟩
  · rintro ⟨inside, next, hends, hfirst, hf⟩
    have hupTo : site.upTo cursor (lead ++ site.closing) =
        .ok (inside, cursor.past inside (lead ++ site.closing ++ next.rest), next) := by
      refine Site.upTo_eq_ok_iff.2 ⟨?_, hfirst, rfl, ?_⟩
      · have hall := hrest.symm.trans hends.rest
        simp only [List.append_assoc] at hall ⊢
        exact List.append_cancel_left hall
      · have hnext := hends.offset
        simp only [Cursor.past, hoffset, byteSize_append, Nat.add_assoc] at hnext ⊢
        rw [← hnext]
    rw [hupTo]
    exact hf

/-! ### The parts of a content -/

/-- The first word of a content. -/
def firstWord (content : List Char) : List Char :=
  (trimStart content).takeWhile (!isBlank ·)

/-- What stands behind the first word of a content and the blanks that follow it. -/
def behindWord (content : List Char) : List Char :=
  trimStart ((trimStart content).dropWhile (!isBlank ·))

/-- The blanks between the first word of a content and what stands behind it. -/
def blanksBehindWord (content : List Char) : List Char :=
  ((trimStart content).dropWhile (!isBlank ·)).takeWhile isBlank

/-- Everything up to what stands behind the first word. -/
def throughWord (content : List Char) : List Char :=
  content.takeWhile isBlank ++ firstWord content ++ blanksBehindWord content

/-- The first word and all before it, with what stands behind it, are the content. -/
theorem throughWord_append (content : List Char) :
    throughWord content ++ behindWord content = content := by
  simp only [throughWord, firstWord, blanksBehindWord, behindWord, trimStart, List.append_assoc,
    List.takeWhile_append_dropWhile]

/-- The helper that a content calls: that of the first registry that knows its first word. -/
def helperFor? (registries : List Registry) (content : List Char) : Option Helper :=
  registries.findSome? (·.get? (String.ofList (firstWord content)))

/-- The arguments in a content that starts at a byte offset. -/
def Helper.argumentsAt (h : Helper) (offset : Nat) (content : List Char) :
    Except ParseError (List Argument) :=
  if h.arity = 0 then .ok []
  else Argument.readAll ⟨offset + byteSize (throughWord content), trimEnd (behindWord content)⟩

/-- The arguments in a content, if they can be read. -/
def Helper.arguments? (h : Helper) (content : List Char) : Option (List Argument) :=
  (h.argumentsAt 0 content).toOption

/-- From the name to the last argument of a call whose content starts at a byte offset. -/
def Helper.callSpan (h : Helper) (offset : Nat) (content : List Char) : Span :=
  ⟨offset + byteSize (content.takeWhile isBlank),
    offset + byteSize (throughWord content ++
      if h.arity = 0 then behindWord content else trimEnd (behindWord content))⟩

/-- A lexeme that can be read does not depend on where it stands. -/
theorem Argument.readAt_of_eq_ok {c e next : Cursor} {d : Char} {ds : List Char}
    {argument : Argument} (h : readAt c d ds = .ok (argument, next)) :
    ∃ next', readAt e d ds = .ok (argument, next') ∧ next'.rest = next.rest := by
  unfold readAt at h ⊢
  split at h
  · rename_i hquote
    rw [if_pos hquote]
    split at h
    · simp at h
    · simp only [Except.ok.injEq, Prod.mk.injEq] at h
      obtain ⟨rfl, rfl⟩ := h
      exact ⟨_, rfl, rfl⟩
  · rename_i hquote
    rw [if_neg hquote]
    simp only [Except.ok.injEq, Prod.mk.injEq] at h
    obtain ⟨rfl, rfl⟩ := h
    exact ⟨_, rfl, rfl⟩

/-- Arguments that can be read do not depend on where they stand. -/
theorem Argument.readAll_of_eq_ok {c e : Cursor} {args : List Argument}
    (hrest : c.rest = e.rest) (h : readAll c = .ok args) : readAll e = .ok args := by
  have hskip : c.skipBlank.rest = e.skipBlank.rest := by
    simp only [Cursor.skipBlank, Cursor.past, hrest]
  fun_induction readAll c generalizing e args with
  | case1 c hnil =>
    rw [readAll_of_blank (hskip.symm.trans hnil)]
    exact h
  | case2 => simp at h
  | case3 c d ds hcons argument next hread ih =>
    -- Both cursors skip the same blanks, so that the lexemes are the same from there on.
    obtain ⟨args', hargs, h⟩ := exists_ok_of_bind h
    rw [hskip] at hcons
    obtain ⟨next', hread', hnext⟩ := readAt_of_eq_ok (e := e.skipBlank) hread
    have hall : readAll next' = .ok args' :=
      ih hnext.symm hargs (by simp only [Cursor.skipBlank, Cursor.past, hnext])
    rw [readAll_of_cons hcons, hread']
    show (argument :: ·) <$> readAll next' = _
    rw [hall]
    exact h

/-- The arguments in a content are the same wherever it stands. -/
theorem Helper.argumentsAt_eq_ok_iff {h : Helper} {offset : Nat} {content : List Char}
    {args : List Argument} :
    h.argumentsAt offset content = .ok args ↔ h.arguments? content = some args := by
  have hmoved : ∀ {o o' : Nat}, h.argumentsAt o content = .ok args →
      h.argumentsAt o' content = .ok args := by
    intro o o' hargs
    unfold argumentsAt at hargs ⊢
    split at hargs
    · rename_i harity
      rw [if_pos harity]
      exact hargs
    · rename_i harity
      rw [if_neg harity]
      refine Argument.readAll_of_eq_ok ?_ hargs
      rfl
  rw [arguments?]
  constructor
  · intro hargs
    rw [hmoved hargs]
    -- Arguments that cannot be read at the start of a template cannot be read anywhere.
    rfl
  · intro hargs
    cases hzero : h.argumentsAt 0 content with
    | error e => simp [hzero, Except.toOption] at hargs
    | ok args' =>
      rw [hzero] at hargs
      obtain rfl : args' = args := Option.some.inj hargs
      exact hmoved hzero

/-! ### Calls -/

/-- The call that a content makes of a helper. -/
def Site.callTag (site : Site) (helper : Helper) (offset : Nat) (content : List Char)
    (args : List Argument) (next : Cursor) : CallTag :=
  ⟨String.ofList (firstWord content), args, site.spanTo next, helper.callSpan offset content, next⟩

section Calls

variable {site : Site} {start : Cursor} {content tail : List Char} {registry : Registry}

/-- The name in a content, where it starts, and where the arguments do. -/
theorem Site.name_of_startsFirst (hclosing : IsWord site.closing)
    (hrest : start.rest = content ++ site.closing ++ tail)
    (hfirst : StartsFirst site.closing content) :
    start.skipBlank.offset = start.offset + byteSize (content.takeWhile isBlank) ∧
      (start.skipBlank.name site.closing).1 = firstWord content ∧
      (start.skipBlank.name site.closing).2.skipBlank =
        start.past (throughWord content) (behindWord content ++ site.closing ++ tail) := by
  have hskip : start.skipBlank = start.past (content.takeWhile isBlank)
      (trimStart content ++ site.closing ++ tail) := by
    rw [Cursor.skipBlank, hrest, takeWhile_isBlank_append_word hclosing,
      trimStart_append_word hclosing]
  -- Taking off leading blanks brings no closing delimiter into the content.
  have htrimmed : StartsFirst site.closing (trimStart content) := by
    refine StartsFirst.of_append (content.takeWhile isBlank) ?_
    rw [trimStart, List.takeWhile_append_dropWhile]
    exact hfirst
  have hname : start.skipBlank.name site.closing = (firstWord content,
      start.skipBlank.past (firstWord content)
        ((trimStart content).dropWhile (!isBlank ·) ++ site.closing ++ tail)) := by
    have hspan := spanUntil_of_startsFirst isBlank htrimmed tail
    rw [hskip, Cursor.name]
    simp only [Cursor.past]
    rw [hspan]
    rfl
  refine ⟨by rw [hskip, Cursor.past], by rw [hname], ?_⟩
  · rw [hname, hskip, Cursor.skipBlank]
    simp only [Cursor.past]
    rw [takeWhile_isBlank_append_word hclosing, trimStart_append_word hclosing]
    simp only [throughWord, behindWord, blanksBehindWord, byteSize_append, Nat.add_assoc]

/-- What stands behind the first word is closed where the content is. -/
theorem startsFirst_behindWord {needle : List Char} (h : StartsFirst needle content) :
    StartsFirst needle (behindWord content) := by
  refine StartsFirst.of_append (throughWord content) ?_
  rw [throughWord_append]
  exact h

/-- A call is made by what stands in front of the first closing delimiter. -/
theorem Site.call_of_startsFirst (hclosing : IsWord site.closing)
    (hrest : start.rest = content ++ site.closing ++ tail)
    (hfirst : StartsFirst site.closing content) :
    site.call registry start =
      match registry.get? (String.ofList (firstWord content)) with
      | none => .ok none
      | some helper => (helper.argumentsAt start.offset content).map fun args =>
          some (site.callTag helper start.offset content args
            (start.past (content ++ site.closing) tail)) := by
  obtain ⟨hoffset, hname, hargs⟩ := name_of_startsFirst hclosing hrest hfirst
  have hupTo : site.upTo (start.past (throughWord content)
      (behindWord content ++ site.closing ++ tail)) site.closing =
      .ok (behindWord content, start.past content (site.closing ++ tail),
        start.past (content ++ site.closing) tail) := by
    have hsize := congrArg byteSize (throughWord_append content)
    rw [byteSize_append] at hsize
    refine Site.upTo_eq_ok_iff.2 ⟨rfl, startsFirst_behindWord hfirst, ?_, ?_⟩
    · simp only [Cursor.past, ← hsize, Nat.add_assoc]
    · simp only [Cursor.past, byteSize_append, ← hsize, Nat.add_assoc]
  unfold Site.call
  simp only [hname, hargs]
  cases registry.get? (String.ofList (firstWord content)) with
  | none => rfl
  | some helper =>
    have hsize := congrArg byteSize (throughWord_append content)
    rw [byteSize_append] at hsize
    simp only [hupTo, Helper.argumentsAt, Site.callTag, Helper.callSpan, bind, Except.bind]
    -- A helper without arguments spans the whole content; with arguments, the span ends at the last
    -- of them.
    by_cases harity : helper.arity = 0
    · simp only [harity, if_true, throughWord_append, hoffset]
      rfl
    · simp only [harity, if_false, Cursor.past, byteSize_append, hoffset, Nat.add_assoc]
      cases Argument.readAll ⟨start.offset + byteSize (throughWord content),
          trimEnd (behindWord content)⟩ with
      | error e => rfl
      | ok args => rfl

/-- There is no call without a closing delimiter. -/
theorem Site.call_ne_some_of_unclosed (h : ¬ site.closing <:+: start.rest) {c : CallTag} :
    site.call registry start ≠ .ok (some c) := by
  intro hcall
  unfold Site.call at hcall
  simp only at hcall
  split at hcall
  · simp at hcall
  · obtain ⟨⟨inside, found, next⟩, hfound, _⟩ := exists_ok_of_bind hcall
    have hinfix := (Site.upTo_eq_ok_iff.1 hfound).1
    obtain ⟨taken, hrest, _⟩ := (Cursor.reaches_skipBlank start).trans
      ((Cursor.reaches_name start.skipBlank site.closing).trans (Cursor.reaches_skipBlank _))
    refine h ⟨taken ++ inside, next.rest, ?_⟩
    rw [hrest, hinfix]
    simp only [List.append_assoc]

end Calls

/-! ### Sigils -/

/-- The sigils of tags whose content ends at the first closing delimiter. -/
inductive Sigil where
  /-- Opens a block. -/
  | enter
  /-- Opens a block that is shown in the absence of a value. -/
  | inverted
  /-- Closes a block. -/
  | leave
  /-- Marks an interpolation that is not escaped. -/
  | ampersand
  /-- No sigil: an interpolation that is escaped, or a call. -/
  | bare
deriving DecidableEq, Repr, Inhabited

/-- How a tag with a content is read behind its mark. -/
theorem Recognizer.read_ofContent (name : String) {mark : List Char}
    (event : String → Span → Event) {site : Site} {start : Cursor}
    (hstart : site.cursor.after? mark = some start) :
    (Recognizer.ofContent name mark event).read site = (do
      let (inside, _, next) ← site.upTo start site.closing
      if (trim inside).isEmpty then .error (site.empty next.offset)
      else .ok (some (event (String.ofList (trim inside)) (site.spanTo next)), next)) := by
  simp only [Recognizer.ofContent, Site.content, hstart]
  cases site.upTo start site.closing with
  | error e => rfl
  | ok found =>
    simp only [bind, Except.bind]
    by_cases hempty : (trim found.1).isEmpty = true
    · simp only [hempty, if_true]
    · simp only [hempty, if_false, Bool.false_eq_true]

namespace Sigil

/-- The characters of a sigil. -/
def chars : Sigil → List Char
  | enter => ['#']
  | inverted => ['^']
  | leave => ['/']
  | ampersand => ['&']
  | bare => []

/-- What a tag with a name or a path says. -/
def event (g : Sigil) (content : String) (tag : Span) : Event :=
  match g with
  | enter => .enter ⟨.plain, content, [], tag⟩
  | inverted => .enter ⟨.inverted, content, [], tag⟩
  | leave => .leave content tag
  | ampersand => .token (.interpolation ⟨content, false, tag⟩)
  | bare => .token (.interpolation ⟨content, true, tag⟩)

/-- The registries whose helpers a tag can call. -/
def registries (g : Sigil) (sections inlines : List Registry) : List Registry :=
  match g with
  | enter => sections
  | inverted => sections
  | leave => []
  | ampersand => []
  | bare => inlines

/-- What a tag with a call says. -/
def callEvent (g : Sigil) (name : String) (args : List Argument) (tag content : Span) : Event :=
  match g with
  | enter => .enter ⟨.helper, name, args, tag⟩
  | inverted => .enter ⟨.invertedHelper, name, args, tag⟩
  | _ => .token (.call ⟨name, args, tag, content⟩)

/-- The recognizer of tags with a name or a path. -/
def recognizer : Sigil → Recognizer
  | enter => .plainSection
  | inverted => .invertedSection
  | leave => .sectionEnd
  | ampersand => .unescaped
  | bare => .interpolation

/-- The recognizer of tags that call a helper. -/
def helperRecognizer (g : Sigil) (registry : Registry) : Recognizer :=
  match g with
  | enter => .helperSection registry
  | inverted => .helperInvertedSection registry
  | _ => .helper registry

/-- The recognizers for one sigil: those for calls, and then that for everything else. -/
def recognizers (g : Sigil) (sections inlines : List Registry) : List Recognizer :=
  (g.registries sections inlines).map g.helperRecognizer ++ [g.recognizer]

/-- What the content of a tag says, when its first word is the name of a helper or of none. The
content starts at a byte offset, and the tag has a span. -/
inductive Says (g : Sigil) (content : List Char) (offset : Nat) (tag : Span) :
    Option Helper → Event → Prop where
  | name (notBlank : trim content ≠ []) :
    Says g content offset tag none (g.event (String.ofList (trim content)) tag)
  | call (helper : Helper) (args : List Argument)
    (arguments : helper.arguments? content = some args) :
    Says g content offset tag (some helper)
      (g.callEvent (String.ofList (firstWord content)) args tag (helper.callSpan offset content))

variable {g : Sigil} {site : Site} {start : Cursor}

/-- How a tag with a name or a path is read behind its sigil. -/
theorem read_recognizer (hstart : site.cursor.after? g.chars = some start) :
    g.recognizer.read site = (do
      let (inside, _, next) ← site.upTo start site.closing
      if (trim inside).isEmpty then .error (site.empty next.offset)
      else .ok (some (g.event (String.ofList (trim inside)) (site.spanTo next)), next)) := by
  cases g with
  -- The ampersand shares its recognizer with the brace, which is tried first and does not stand
  -- here.
  | ampersand =>
    have hrest := (Cursor.after?_singleton_eq_some hstart).1
    have hbrace : site.cursor.after? ['\x7b'] = none :=
      Cursor.after?_singleton_eq_none_iff.2 (by rw [hrest]; simp)
    have hmark : site.cursor.after? ['&'] = some start := hstart
    simp only [recognizer, Recognizer.unescaped, Recognizer.openUnescaped?, hbrace, hmark,
      Option.map_some]
    rfl
  | enter => exact Recognizer.read_ofContent "section" (fun s tag => enter.event s tag) hstart
  | inverted =>
    exact Recognizer.read_ofContent "inverted_section" (fun s tag => inverted.event s tag) hstart
  | leave => exact Recognizer.read_ofContent "section_end" (fun s tag => leave.event s tag) hstart
  | bare => exact Recognizer.read_ofContent "interpolation" (fun s tag => bare.event s tag) hstart

/-- How a tag that calls a helper is read behind its sigil. -/
theorem read_helperRecognizer {sections inlines : List Registry} {registry : Registry}
    (hregistry : registry ∈ g.registries sections inlines)
    (hstart : site.cursor.after? g.chars = some start) :
    (g.helperRecognizer registry).read site = (do
      match ← site.call registry start with
      | none => .ok (none, site.cursor)
      | some c => .ok (some (g.callEvent c.name c.args c.tag c.content), c.next)) := by
  cases g with
  | enter =>
    have hmark : site.cursor.after? ['#'] = some start := hstart
    simp only [helperRecognizer, Recognizer.helperSection, Recognizer.helperBlock, hmark]
    rfl
  | inverted =>
    have hmark : site.cursor.after? ['^'] = some start := hstart
    simp only [helperRecognizer, Recognizer.helperInvertedSection, Recognizer.helperBlock, hmark]
    rfl
  -- These call no helpers, so that they have no registries.
  | leave => simp [registries] at hregistry
  | ampersand => simp [registries] at hregistry
  | bare =>
    obtain rfl : start = site.cursor := (Option.some.inj hstart).symm
    rfl

section Group

variable {sections inlines known : List Registry} {others : List Recognizer}
  {content tail : List Char} {event : Event} {next : Cursor}

/-- A registry declines a content that starts with none of its names. -/
theorem read_of_unknown {registry : Registry} (hclosing : IsWord site.closing)
    (hregistry : registry ∈ g.registries sections inlines)
    (hstart : site.cursor.after? g.chars = some start)
    (hrest : start.rest = content ++ site.closing ++ tail)
    (hfirst : StartsFirst site.closing content)
    (hget : registry.get? (String.ofList (firstWord content)) = none) :
    (g.helperRecognizer registry).read site = .ok (none, site.cursor) := by
  rw [read_helperRecognizer hregistry hstart, Site.call_of_startsFirst hclosing hrest hfirst, hget]
  rfl

/-- A registry takes a content that starts with one of its names. -/
theorem read_of_known {registry : Registry} {helper : Helper} (hclosing : IsWord site.closing)
    (hregistry : registry ∈ g.registries sections inlines)
    (hstart : site.cursor.after? g.chars = some start)
    (hrest : start.rest = content ++ site.closing ++ tail)
    (hfirst : StartsFirst site.closing content)
    (hget : registry.get? (String.ofList (firstWord content)) = some helper) :
    (g.helperRecognizer registry).read site =
      (helper.argumentsAt start.offset content).map fun args =>
        (some (g.callEvent (String.ofList (firstWord content)) args
          (site.spanTo (start.past (content ++ site.closing) tail))
          (helper.callSpan start.offset content)), start.past (content ++ site.closing) tail) := by
  rw [read_helperRecognizer hregistry hstart, Site.call_of_startsFirst hclosing hrest hfirst, hget]
  simp only
  cases helper.argumentsAt start.offset content with
  | error e => rfl
  | ok args => rfl

/-- The stock recognizer for a sigil takes a closed content as a name, unless it is blank. -/
theorem recognize_stock_of_startsFirst (hstart : site.cursor.after? g.chars = some start)
    (hrest : start.rest = content ++ site.closing ++ tail)
    (hfirst : StartsFirst site.closing content) :
    recognize (g.recognizer :: others) site = .ok (event, next) ↔
      next = start.past (content ++ site.closing) tail ∧
        g.Says content start.offset (site.spanTo next) none event := by
  have hupTo : site.upTo start site.closing = .ok (content,
      start.past content (site.closing ++ tail), start.past (content ++ site.closing) tail) :=
    Site.upTo_eq_ok_iff.2 ⟨hrest, hfirst, rfl, rfl⟩
  rw [recognize, read_recognizer hstart, hupTo]
  simp only [bind, Except.bind]
  -- Only a blank content is an error, and it says nothing.
  by_cases hempty : (trim content).isEmpty = true
  · rw [if_pos hempty]
    constructor
    · intro h
      simp at h
    · rintro ⟨_, hsays⟩
      cases hsays with
      | name hne => exact absurd (List.isEmpty_iff.1 hempty) hne
  · rw [if_neg hempty]
    have hne : trim content ≠ [] := fun hnil => hempty (List.isEmpty_iff.2 hnil)
    constructor
    · intro h
      simp only [Except.ok.injEq, Prod.mk.injEq] at h
      obtain ⟨rfl, rfl⟩ := h
      exact ⟨rfl, .name hne⟩
    · rintro ⟨rfl, hsays⟩
      cases hsays with
      | name _ => rfl

/-- A registry that knows the first word of a closed content decides on the tag. -/
theorem recognize_helper_of_startsFirst {registry : Registry} {helper : Helper}
    (hclosing : IsWord site.closing) (hregistry : registry ∈ g.registries sections inlines)
    (hstart : site.cursor.after? g.chars = some start)
    (hrest : start.rest = content ++ site.closing ++ tail)
    (hfirst : StartsFirst site.closing content)
    (hget : registry.get? (String.ofList (firstWord content)) = some helper) :
    recognize (g.helperRecognizer registry :: others) site = .ok (event, next) ↔
      next = start.past (content ++ site.closing) tail ∧
        g.Says content start.offset (site.spanTo next) (some helper) event := by
  rw [recognize, read_of_known hclosing hregistry hstart hrest hfirst hget]
  cases hargs : helper.argumentsAt start.offset content with
  | error e =>
    simp only [Except.map]
    constructor
    · intro h
      simp at h
    · rintro ⟨_, hsays⟩
      cases hsays with
      | call _ args hargs' =>
        rw [Helper.argumentsAt_eq_ok_iff.2 hargs'] at hargs
        simp at hargs
  | ok args =>
    have hargs' := Helper.argumentsAt_eq_ok_iff.1 hargs
    simp only [Except.map]
    constructor
    · intro h
      simp only [Except.ok.injEq, Prod.mk.injEq] at h
      obtain ⟨rfl, rfl⟩ := h
      exact ⟨rfl, .call helper args hargs'⟩
    · rintro ⟨rfl, hsays⟩
      cases hsays with
      | call _ args' hargs'' =>
        obtain rfl : args = args' := Option.some.inj (hargs'.symm.trans hargs'')
        rfl

/-- The recognizers for one sigil take a content that is closed as it says. -/
theorem recognize_of_startsFirst (hclosing : IsWord site.closing)
    (hstart : site.cursor.after? g.chars = some start)
    (hrest : start.rest = content ++ site.closing ++ tail)
    (hfirst : StartsFirst site.closing content)
    (hknown : ∀ r ∈ known, r ∈ g.registries sections inlines) :
    recognize (known.map g.helperRecognizer ++ g.recognizer :: others) site = .ok (event, next) ↔
      next = start.past (content ++ site.closing) tail ∧
        g.Says content start.offset (site.spanTo next) (helperFor? known content) event := by
  induction known with
  | nil => exact recognize_stock_of_startsFirst hstart hrest hfirst
  | cons registry known ih =>
    have hlater := ih fun r hr => hknown r (List.mem_cons_of_mem _ hr)
    have hregistry := hknown registry (by simp)
    rw [List.map_cons, List.cons_append, helperFor?, List.findSome?_cons]
    -- The first registry either decides, or leaves the tag to the others.
    cases hget : registry.get? (String.ofList (firstWord content)) with
    | none =>
      rw [recognize, read_of_unknown hclosing hregistry hstart hrest hfirst hget]
      exact hlater
    | some helper =>
      exact recognize_helper_of_startsFirst hclosing hregistry hstart hrest hfirst hget

/-- The recognizers for one sigil take no tag without an end. -/
theorem recognize_ne_of_unclosed (hstart : site.cursor.after? g.chars = some start)
    (h : ¬ site.closing <:+: start.rest) (hknown : ∀ r ∈ known, r ∈ g.registries sections inlines) :
    recognize (known.map g.helperRecognizer ++ g.recognizer :: others) site ≠
      .ok (event, next) := by
  induction known with
  | nil =>
    rw [List.map_nil, List.nil_append, recognize, read_recognizer hstart,
      Site.upTo_eq_unclosed h]
    simp [bind, Except.bind]
  | cons registry known ih =>
    have hlater := ih fun r hr => hknown r (List.mem_cons_of_mem _ hr)
    rw [List.map_cons, List.cons_append, recognize,
      read_helperRecognizer (hknown registry (by simp)) hstart]
    cases hcall : site.call registry start with
    | error e => simp [bind, Except.bind]
    | ok c? =>
      cases c? with
      | none => exact hlater
      | some c => exact absurd hcall (Site.call_ne_some_of_unclosed h)

/-- The recognizers for one sigil take exactly the tags that are closed and say something. -/
theorem recognize_recognizers (hclosing : IsWord site.closing)
    (hstart : site.cursor.after? g.chars = some start) :
    recognize (g.recognizers sections inlines ++ others) site = .ok (event, next) ↔
      ∃ content, start.rest = content ++ site.closing ++ next.rest ∧
        next.offset = start.offset + byteSize (content ++ site.closing) ∧
        StartsFirst site.closing content ∧
        g.Says content start.offset (site.spanTo next)
          (helperFor? (g.registries sections inlines) content) event := by
  have hgroup : g.recognizers sections inlines ++ others =
      (g.registries sections inlines).map g.helperRecognizer ++ g.recognizer :: others := by
    rw [recognizers, List.append_assoc]
    rfl
  rw [hgroup]
  cases hcut : Text.cut? site.closing start.rest with
  | none =>
    have hnone := cut?_eq_none_iff.1 hcut
    constructor
    · intro h
      exact absurd h (recognize_ne_of_unclosed hstart hnone fun _ hr => hr)
    · rintro ⟨content, hrest, _⟩
      exact absurd ⟨content, next.rest, hrest.symm⟩ hnone
  | some found =>
    obtain ⟨content, tail⟩ := found
    obtain ⟨hrest, hfirst⟩ := cut?_eq_some_iff.1 hcut
    rw [recognize_of_startsFirst hclosing hstart hrest hfirst fun _ hr => hr]
    constructor
    · rintro ⟨rfl, hsays⟩
      exact ⟨content, hrest, rfl, hfirst, hsays⟩
    -- The content is settled by the first closing delimiter in the text.
    · rintro ⟨content', hrest', hoffset, hfirst', hsays⟩
      obtain ⟨rfl, htail⟩ := hfirst.unique hfirst' (hrest.symm.trans hrest')
      refine ⟨?_, hsays⟩
      rw [Cursor.past, ← hoffset, htail]

end Group

end Sigil

end Stencil
