import Stencil.Template.Event

/-!
# `Stencil.Template.Tags`: the tags of the language

The recognizers for comments, changes of delimiters, blocks and interpolations. The first
character of a tag tells its kind; an interpolation has none of the others' marks. Their order
in `stockRecognizers` matters, since the last of them takes every tag with a content.
-/

set_option autoImplicit false

namespace Stencil

open Text

/-- The trimmed content of a tag after its mark, with the place where the tag ends; nothing if
the tag has another mark. A tag without content is an error. -/
def Site.content (site : Site) (mark : List Char) :
    Except ParseError (Option (String × Cursor)) :=
  match site.cursor.after? mark with
  | none => .ok none
  | some start => do
    let (inside, _, next) ← site.upTo start site.closing
    let content := trim inside
    if content.isEmpty then .error (site.empty next.offset)
    else .ok (some (String.ofList content, next))

/-- The content of a tag lies between the mark and the place where the tag ends. -/
theorem Site.reaches_of_content {site : Site} {mark : List Char} {content : String}
    {next : Cursor} (h : site.content mark = .ok (some (content, next))) :
    site.cursor.Reaches next := by
  unfold Site.content at h
  split at h
  · simp at h
  · rename_i start hstart
    obtain ⟨⟨inside, found, next'⟩, hfound, h⟩ := exists_ok_of_bind h
    obtain ⟨hinside, hclosing⟩ := reaches_of_upTo hfound
    simp only at h
    split at h
    · simp at h
    · simp only [Except.ok.injEq, Option.some.injEq, Prod.mk.injEq] at h
      obtain ⟨_, rfl⟩ := h
      exact (Cursor.reaches_of_after? hstart).trans (hinside.trans hclosing)

/-- A recognizer for tags that have a mark and a trimmed content that is not empty. -/
def Recognizer.ofContent (name : String) (mark : List Char)
    (event : String → Span → Event) : Recognizer where
  name := name
  read site := do
    match ← site.content mark with
    | none => .ok (none, site.cursor)
    | some (content, next) => .ok (some (event content (site.spanTo next)), next)
  reaches := by
    intro site e next h
    obtain ⟨content?, hcontent, h⟩ := exists_ok_of_bind h
    split at h
    · simp at h
    · simp only [Except.ok.injEq, Prod.mk.injEq] at h
      obtain ⟨_, rfl⟩ := h
      exact Site.reaches_of_content hcontent

namespace Recognizer

/-- A comment shows nothing. Its end is sought from its mark on. -/
def comment : Recognizer where
  name := "comment"
  read site := do
    match site.cursor.after? ['!'] with
    | none => .ok (none, site.cursor)
    | some _ =>
      -- The closing delimiter may itself start with the mark.
      let (_, _, next) ← site.upTo site.cursor site.closing
      .ok (some .skip, next)
  reaches := by
    intro site e next h
    split at h
    · simp at h
    · obtain ⟨⟨inside, found, next'⟩, hfound, h⟩ := exists_ok_of_bind h
      obtain ⟨hinside, hclosing⟩ := Site.reaches_of_upTo hfound
      simp only [Except.ok.injEq, Prod.mk.injEq] at h
      obtain ⟨_, rfl⟩ := h
      exact hinside.trans hclosing

/-- The delimiters that a tag changes to: two words, neither with a `=` in it. -/
def newDelimiters? (inside : List Char) : Option Delimiters :=
  match words inside with
  | [opening, closing] =>
    if opening.contains '=' || closing.contains '=' then none
    else some ⟨String.ofList opening, String.ofList closing⟩
  | _ => none

/-- A change of delimiters stands between `=` and `=`. -/
def delimiters : Recognizer where
  name := "delimiters"
  read site := do
    match site.cursor.after? ['='] with
    | none => .ok (none, site.cursor)
    | some start =>
      let (inside, stop, next) ← site.upTo start ('=' :: site.closing)
      match newDelimiters? inside with
      | none => .error (.invalidDelimiters site.start (excerpt site.source stop.offset))
      | some d => .ok (some (.change d), next)
  reaches := by
    intro site e next h
    split at h
    · simp at h
    · rename_i start hstart
      obtain ⟨⟨inside, found, next'⟩, hfound, h⟩ := exists_ok_of_bind h
      obtain ⟨hinside, hclosing⟩ := Site.reaches_of_upTo hfound
      simp only at h
      split at h
      · simp at h
      · simp only [Except.ok.injEq, Prod.mk.injEq] at h
        obtain ⟨_, rfl⟩ := h
        exact (Cursor.reaches_of_after? hstart).trans (hinside.trans hclosing)

/-- The open tag of a block that shows its children for a value. -/
def plainSection : Recognizer :=
  .ofContent "section" ['#'] fun name tag => .enter ⟨.plain, name, [], tag⟩

/-- The open tag of a block that shows its children in the absence of a value. -/
def invertedSection : Recognizer :=
  .ofContent "inverted_section" ['^'] fun name tag => .enter ⟨.inverted, name, [], tag⟩

/-- The close tag of a block. -/
def sectionEnd : Recognizer :=
  .ofContent "section_end" ['/'] fun name tag => .leave name tag

/-- The place where the path of an interpolation that is not escaped starts, and what ends its
tag. What was opened by one more brace is closed by one more. -/
def openUnescaped? (site : Site) : Option (Cursor × List Char) :=
  match site.cursor.after? ['\x7b'] with
  | some start => some (start, '\x7d' :: site.closing)
  | none => (site.cursor.after? ['&']).map fun start => (start, site.closing)

/-- What opens an interpolation that is not escaped leads to the place where its path starts. -/
theorem reaches_of_openUnescaped? {site : Site} {start : Cursor} {ending : List Char}
    (h : openUnescaped? site = some (start, ending)) : site.cursor.Reaches start := by
  unfold openUnescaped? at h
  split at h
  · rename_i hbrace
    simp only [Option.some.injEq, Prod.mk.injEq] at h
    obtain ⟨rfl, _⟩ := h
    exact Cursor.reaches_of_after? hbrace
  · obtain ⟨start', hmark, heq⟩ := Option.map_eq_some_iff.1 h
    simp only [Prod.mk.injEq] at heq
    obtain ⟨rfl, _⟩ := heq
    exact Cursor.reaches_of_after? hmark

/-- An interpolation that is not escaped: marked with `&`, or between one more pair of braces. -/
def unescaped : Recognizer where
  name := "unescaped"
  read site := do
    match openUnescaped? site with
    | none => .ok (none, site.cursor)
    | some (start, ending) =>
      let (inside, _, next) ← site.upTo start ending
      let path := trim inside
      if path.isEmpty then .error (site.empty next.offset)
      else
        .ok (some (.token (.interpolation ⟨String.ofList path, false, site.spanTo next⟩)), next)
  reaches := by
    intro site e next h
    split at h
    · simp at h
    · rename_i start ending hstart
      obtain ⟨⟨inside, found, next'⟩, hfound, h⟩ := exists_ok_of_bind h
      obtain ⟨hinside, hclosing⟩ := Site.reaches_of_upTo hfound
      simp only at h
      split at h
      · simp at h
      · simp only [Except.ok.injEq, Prod.mk.injEq] at h
        obtain ⟨_, rfl⟩ := h
        exact (reaches_of_openUnescaped? hstart).trans (hinside.trans hclosing)

/-- An interpolation that is escaped. It has no mark. -/
def interpolation : Recognizer :=
  .ofContent "interpolation" [] fun path tag => .token (.interpolation ⟨path, true, tag⟩)

end Recognizer

/-- The recognizers of the language, in the order in which they are asked. -/
def stockRecognizers : List Recognizer :=
  [.comment, .delimiters, .plainSection, .invertedSection, .sectionEnd, .unescaped, .interpolation]

end Stencil
