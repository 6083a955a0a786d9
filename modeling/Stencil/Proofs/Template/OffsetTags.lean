import Mathlib.Data.List.Forall2
import Stencil.Proofs.Template.Offsets
import Stencil.Proofs.Template.TagContent

/-!
# `Stencil.Proofs.Template.OffsetTags`: tags read by byte offsets

The recognizers of an engine with helpers once more, with offsets in the place of cursors. A reader
is given a `Place` and says what the tag is and at which offset it ends. It cuts the template for
every look at it, and so do the readers of arguments with the text behind a helper's name.

`Reader.Follows` says that a reader does what a recognizer does, and none of its cuts fails, when the
start of the template reaches the site. There is one lemma of this kind for each reader, from the
lemmas on moves in `Offsets`, from `mark_bind` for the mark of a tag, and from `findEnd_bind` for the
search of its end. `dispatch_of_follows` puts them together: the readers of an engine do what
`recognize` does.
-/

set_option autoImplicit false

namespace Stencil

open Text

namespace Offsets

/-! ### Arguments -/

/-- The offset behind the closing quote of a literal. The text starts at an offset, and its first
character may be escaped. -/
def stringEnd (quote : Char) : Bool → Nat → List Char → Option Nat
  | _, _, [] => none
  | escaped, offset, c :: cs =>
    if c = '\\' then stringEnd quote (!escaped) (offset + c.utf8Size) cs
    else if c = quote ∧ escaped = false then some (offset + c.utf8Size)
    else stringEnd quote false (offset + c.utf8Size) cs

/-- The first argument of a text without leading blanks, and the text behind it without leading
blanks. The text starts at a position of the template. -/
def lexeme (text : List Char) (position : Nat) : Except Halt (Option (Argument × List Char)) :=
  match text with
  | [] => .ok none
  | c :: cs =>
    if isQuote c then
      match stringEnd c false c.utf8Size cs with
      | none => do
        let excerpt ← lastBytes text
        .error (.error (.unclosedString position excerpt))
      | some stop => do
        let inside ← between text c.utf8Size (stop - c.utf8Size)
        let rest ← textFrom text stop
        .ok (some (.literal (String.ofList (unescape inside)), trimStart rest))
    else do
      let stop := (offsetOf? isBlank 0 text).getD (byteSize text)
      let word ← between text 0 stop
      let rest ← textFrom text stop
      .ok (some (.lookup (String.ofList word), trimStart rest))

/-- The arguments in a text without leading blanks, of which there are fewer than the number says. -/
def lexemes : Nat → List Char → Nat → Except Halt (List Argument)
  | 0, _, _ => .error .unfinished
  | n + 1, text, position => do
    match ← lexeme text position with
    | none => .ok []
    | some (argument, rest) =>
      (argument :: ·) <$> lexemes n rest (position + (byteSize text - byteSize rest))

/-- The arguments in a text that starts at a position of the template. -/
def arguments (text : List Char) (position : Nat) : Except Halt (List Argument) :=
  let trimmed := trimStart text
  lexemes (trimmed.length + 1) trimmed (position + (byteSize text - byteSize trimmed))

/-- A parser that keeps offsets fails with an error of the template. -/
def lift {α : Type} (result : Except ParseError α) : Except Halt α :=
  result.mapError .error

/-- A failure of the first part of a computation is one of the whole. -/
theorem lift_bind {α β γ : Type} {x : Except ParseError α} {f : α → Except Halt γ}
    {g : α → Except ParseError β} {k : β → γ} (h : ∀ a, f a = lift (k <$> g a)) :
    lift x >>= f = lift (k <$> (x >>= g)) := by
  cases x with
  | error e => rfl
  | ok a => exact h a

/-- The closing quote is found behind the inside of a literal. -/
theorem stringEnd_eq {quote : Char} (hquote : quote ≠ '\\') (offset : Nat) (cs : List Char) :
    stringEnd quote false offset cs =
      (quotedSpan? quote cs).map fun found => offset + byteSize found.1 + quote.utf8Size := by
  fun_induction quotedSpan? quote cs generalizing offset with
  | case1 => rfl
  | case2 c cs ih =>
    -- A backslash and the character behind it are passed over together.
    have hpair : stringEnd quote false offset ('\\' :: c :: cs) =
        stringEnd quote false (offset + '\\'.utf8Size + c.utf8Size) cs := by
      by_cases hc : c = '\\'
      · simp [stringEnd, hc]
      · simp [stringEnd, hc]
    rw [hpair, ih, Option.map_map]
    congr 1
    funext found
    simp only [Function.comp, byteSize_cons]
    omega
  | case3 cs hpair =>
    have hc : quote ≠ '\\' := hquote
    simp [stringEnd, hc]
  | case4 c cs hpair hc ih =>
    by_cases hback : c = '\\'
    · subst hback
      cases cs with
      | nil => simp [stringEnd, quotedSpan?]
      | cons d ds => exact (hpair d ds rfl rfl).elim
    · have hone : stringEnd quote false offset (c :: cs) =
          stringEnd quote false (offset + c.utf8Size) cs := by
        simp [stringEnd, hback, hc]
      rw [hone, ih, Option.map_map]
      congr 1
      funext found
      simp only [Function.comp, byteSize_cons]
      omega

/-- A cut at the size of what stands before it. -/
theorem between_zero (inside after : List Char) :
    between (inside ++ after) 0 (byteSize inside) = .ok inside := by
  have happend := between_append [] inside after
  rw [List.nil_append, byteSize_nil, Nat.zero_add] at happend
  exact happend

/-- The first argument is the one that the library reads. -/
theorem lexeme_eq {c : Cursor} {d : Char} {ds : List Char} (hrest : c.rest = d :: ds) :
    lexeme c.rest c.offset =
      match Argument.readAt c d ds with
      | .error e => .error (.error e)
      | .ok (argument, next) => .ok (some (argument, next.skipBlank.rest)) := by
  rw [hrest, lexeme, Argument.readAt]
  by_cases hquote : isQuote d = true
  · rw [if_pos hquote, if_pos hquote, stringEnd_eq (ne_backslash_of_isQuote hquote)]
    -- Without a closing quote, both report the whole rest, which needs no cut at the end.
    cases hspan : quotedSpan? d ds with
    | none =>
      simp only [Option.map_none, lastBytes_eq]
      rfl
    | some found =>
      obtain ⟨inside, rest⟩ := found
      have htext : d :: ds = [d] ++ inside ++ ([d] ++ rest) := by
        rw [quotedSpan?_eq_some hspan]
        simp
      -- The quote has one size at both ends, so that the cut loses exactly the two of them.
      have hinside : between (d :: ds) d.utf8Size
          (d.utf8Size + byteSize inside + d.utf8Size - d.utf8Size) = .ok inside := by
        have happend := between_append [d] inside ([d] ++ rest)
        rw [← htext] at happend
        have hone : byteSize [d] = d.utf8Size := by simp
        rw [hone] at happend
        rw [Nat.add_sub_cancel]
        exact happend
      have hbehind : textFrom (d :: ds) (d.utf8Size + byteSize inside + d.utf8Size) = .ok rest := by
        have happend := textFrom_append ([d] ++ inside ++ [d]) rest
        have hsize : byteSize ([d] ++ inside ++ [d]) =
            d.utf8Size + byteSize inside + d.utf8Size := by
          simp [Nat.add_assoc]
        rw [hsize, List.append_assoc, ← htext] at happend
        exact happend
      simp only [Option.map_some, hinside, hbehind]
      rfl
  · rw [if_neg hquote, if_neg hquote]
    -- A word ends at the first blank, or with the text.
    have hstop : (offsetOf? isBlank 0 (d :: ds)).getD (byteSize (d :: ds)) =
        byteSize ((d :: ds).takeWhile (!isBlank ·)) := by
      have hfirst := offsetOf?_getD isBlank 0 (d :: ds)
      rw [Nat.zero_add, Nat.zero_add] at hfirst
      exact hfirst
    have hsplit : (d :: ds).takeWhile (!isBlank ·) ++ (d :: ds).dropWhile (!isBlank ·) = d :: ds :=
      List.takeWhile_append_dropWhile
    have hword := between_zero ((d :: ds).takeWhile (!isBlank ·))
      ((d :: ds).dropWhile (!isBlank ·))
    have hbehind := textFrom_append ((d :: ds).takeWhile (!isBlank ·))
      ((d :: ds).dropWhile (!isBlank ·))
    rw [hsplit] at hword hbehind
    simp only [hstop, hword, hbehind]
    rfl

/-- What is read of an argument list leads from its beginning to the place behind it. -/
theorem reaches_of_readAt {c next : Cursor} {d : Char} {ds : List Char} {argument : Argument}
    (hrest : c.rest = d :: ds) (h : Argument.readAt c d ds = .ok (argument, next)) :
    c.Reaches next := by
  unfold Argument.readAt at h
  split at h
  · split at h
    · simp at h
    · rename_i inside rest hspan
      simp only [Except.ok.injEq, Prod.mk.injEq] at h
      obtain ⟨_, rfl⟩ := h
      refine Cursor.reaches_past ?_
      rw [hrest, quotedSpan?_eq_some hspan]
      simp
  · simp only [Except.ok.injEq, Prod.mk.injEq] at h
    obtain ⟨_, rfl⟩ := h
    refine Cursor.reaches_past ?_
    rw [hrest, List.takeWhile_append_dropWhile]

/-- The arguments are those that the library reads, if there is a round for each of them. -/
theorem lexemes_eq {c : Cursor} {n : Nat} (hn : c.skipBlank.rest.length < n) :
    lexemes n c.skipBlank.rest c.skipBlank.offset = lift (Argument.readAll c) := by
  -- Each round takes an argument off, so that the text behind it needs one round less.
  fun_induction Argument.readAll c generalizing n with
  | case1 c hnil =>
    obtain ⟨n, rfl⟩ := Nat.exists_eq_succ_of_ne_zero (Nat.ne_zero_of_lt hn)
    rw [lexemes, hnil]
    rfl
  | case2 c d ds hcons e hread =>
    obtain ⟨n, rfl⟩ := Nat.exists_eq_succ_of_ne_zero (Nat.ne_zero_of_lt hn)
    rw [lexemes, lexeme_eq hcons, hread]
    rfl
  | case3 c d ds hcons argument next hread ih =>
    obtain ⟨n, rfl⟩ := Nat.exists_eq_succ_of_ne_zero (Nat.ne_zero_of_lt hn)
    have hreaches := (reaches_of_readAt hcons hread).trans (Cursor.reaches_skipBlank next)
    have hoffset : c.skipBlank.offset +
        (byteSize c.skipBlank.rest - byteSize next.skipBlank.rest) = next.skipBlank.offset := by
      obtain ⟨taken, htaken, hsize⟩ := hreaches
      rw [htaken, byteSize_append, hsize]
      omega
    have hblank : isBlank d = false := by
      have hhead := List.head?_dropWhile_not isBlank c.rest
      have hrest : c.rest.dropWhile isBlank = d :: ds := hcons
      rw [hrest] at hhead
      simpa using hhead
    have hlength : next.skipBlank.rest.length < n := by
      -- A word or a quoted text takes at least one character.
      have hlt := Argument.length_lt_of_readAt hblank hread
      have hle : next.skipBlank.rest.length ≤ next.rest.length :=
        (List.dropWhile_suffix isBlank).length_le
      rw [hcons] at hn
      omega
    have htail := ih hlength
    rw [lexemes, lexeme_eq hcons, hread]
    show (argument :: ·) <$> lexemes n next.skipBlank.rest (c.skipBlank.offset +
      (byteSize c.skipBlank.rest - byteSize next.skipBlank.rest)) = _
    rw [hoffset, htail]
    cases Argument.readAll next with
    | error e => rfl
    | ok args => rfl

/-- The arguments of a call are those that the library reads. -/
theorem arguments_eq (text : List Char) (position : Nat) :
    arguments text position = lift (Argument.readAll ⟨position, text⟩) := by
  have hoffset : position + (byteSize text - byteSize (trimStart text)) =
      (Cursor.skipBlank ⟨position, text⟩).offset := by
    have hsize := congrArg byteSize (List.takeWhile_append_dropWhile (p := isBlank) (l := text))
    rw [byteSize_append] at hsize
    simp only [Cursor.skipBlank, Cursor.past, trimStart]
    omega
  rw [arguments, hoffset]
  exact lexemes_eq (c := ⟨position, text⟩) (Nat.lt_succ_self _)

/-! ### Readers -/

/-- A tag that is about to be read. -/
structure Place where
  /-- The whole template. -/
  source : List Char
  /-- The offset at which the opening delimiter starts. -/
  start : Nat
  /-- The offset just past the opening delimiter. -/
  cursor : Nat
  /-- The delimiters in effect. -/
  delimiters : Delimiters

/-- What a tag says and the offset where it ends, or nothing for a tag that is left to others. -/
abbrev Reader := Place → Except Halt (Option (Event × Nat))

namespace Place

variable (place : Place)

/-- The delimiter that ends the tag. -/
def closing : List Char :=
  place.delimiters.closing.toList

/-- The failure for a tag without an end. -/
def unclosed {α : Type} : Except Halt α := do
  let excerpt ← near place.source (byteSize place.source)
  .error (.error (.unclosedTag place.start excerpt))

/-- The failure for a tag without content that was read up to an offset. -/
def empty {α : Type} (position : Nat) : Except Halt α := do
  let excerpt ← near place.source position
  .error (.error (.emptyTag place.start excerpt))

/-- The offset of the next `ending`. A tag that has none is unclosed. -/
def findEnd (offset : Nat) (ending : List Char) : Except Halt Nat := do
  match ← findFrom place.source ending offset with
  | some stop => .ok stop
  | none => place.unclosed

/-- The trimmed text between two offsets of a tag that ends at a third. A blank text is an error. -/
def content (start stop next : Nat) : Except Halt String := do
  let inside ← between place.source start stop
  let content := trim inside
  if content.isEmpty then place.empty next else .ok (String.ofList content)

end Place

/-- Reads a tag that has a mark and a content. -/
def readContent (mark : List Char) (event : String → Span → Event) : Reader := fun place => do
  let rest ← textFrom place.source place.cursor
  if (Text.after? mark rest).isNone then .ok none
  else
    let start := place.cursor + byteSize mark
    let stop ← place.findEnd start place.closing
    let next := stop + byteSize place.closing
    let content ← place.content start stop next
    .ok (some (event content ⟨place.start, next⟩, next))

/-- Reads a comment. -/
def readComment : Reader := fun place => do
  let rest ← textFrom place.source place.cursor
  if (Text.after? ['!'] rest).isNone then .ok none
  else
    let stop ← place.findEnd place.cursor place.closing
    .ok (some (.skip, stop + byteSize place.closing))

/-- Reads a change of delimiters. -/
def readDelimiters : Reader := fun place => do
  let rest ← textFrom place.source place.cursor
  if (Text.after? ['='] rest).isNone then .ok none
  else
    let start := place.cursor + 1
    let ending := '=' :: place.closing
    let stop ← place.findEnd start ending
    let inside ← between place.source start stop
    match Recognizer.newDelimiters? inside with
    | none => do
      let excerpt ← near place.source stop
      .error (.error (.invalidDelimiters place.start excerpt))
    | some d => .ok (some (.change d, stop + byteSize ending))

/-- Reads an interpolation that is not escaped. -/
def readUnescaped : Reader := fun place => do
  let rest ← textFrom place.source place.cursor
  let ending? :=
    if (Text.after? ['\x7b'] rest).isSome then some ('\x7d' :: place.closing)
    else if (Text.after? ['&'] rest).isSome then some place.closing
    else none
  match ending? with
  | none => .ok none
  | some ending =>
    let start := place.cursor + 1
    let stop ← place.findEnd start ending
    let next := stop + byteSize ending
    let path ← place.content start stop next
    .ok (some (.token (.interpolation ⟨path, false, ⟨place.start, next⟩⟩), next))

/-- Reads a helper's name and arguments from an offset inside a tag to the end of the tag. -/
def readCall (place : Place) (registry : Registry) (start : Nat)
    (event : String → List Argument → Span → Span → Event) : Except Halt (Option (Event × Nat)) := do
  let nameStart ← skipBlank place.source start
  let nameStop ← nameEnd place.source place.closing nameStart
  let name ← between place.source nameStart nameStop
  match registry.get? (String.ofList name) with
  | none => .ok none
  | some helper =>
    let argsStart ← skipBlank place.source nameStop
    let stop ← place.findEnd argsStart place.closing
    let next := stop + byteSize place.closing
    if helper.arity = 0 then
      .ok (some (event (String.ofList name) [] ⟨place.start, next⟩ ⟨nameStart, stop⟩, next))
    else
      let inside ← between place.source argsStart stop
      let text := trimEnd inside
      let args ← arguments text argsStart
      .ok (some (event (String.ofList name) args ⟨place.start, next⟩
        ⟨nameStart, argsStart + byteSize text⟩, next))

/-- Reads the call of an inline helper. -/
def readHelper (registry : Registry) : Reader := fun place =>
  readCall place registry place.cursor fun name args tag content =>
    .token (.call ⟨name, args, tag, content⟩)

/-- Reads the open tag of a block with a helper. -/
def readHelperBlock (mark : Char) (kind : BlockKind) (registry : Registry) : Reader := fun place => do
  let rest ← textFrom place.source place.cursor
  if (Text.after? [mark] rest).isNone then .ok none
  else
    readCall place registry (place.cursor + 1) fun name args tag _ =>
      .enter ⟨kind, name, args, tag⟩

/-- The readers of an engine with helpers, in the order in which they are asked. -/
def readersWith (sections inlines : List Registry) : List Reader :=
  [readComment, readDelimiters] ++
    (sections.map (readHelperBlock '#' .helper) ++
      [readContent ['#'] fun name tag => .enter ⟨.plain, name, [], tag⟩]) ++
    (sections.map (readHelperBlock '^' .invertedHelper) ++
      [readContent ['^'] fun name tag => .enter ⟨.inverted, name, [], tag⟩]) ++
    [readContent ['/'] fun name tag => .leave name tag, readUnescaped] ++
    (inlines.map readHelper ++
      [readContent [] fun path tag => .token (.interpolation ⟨path, true, tag⟩)])

/-- What the first reader makes of a tag that does not leave it to the others. -/
def dispatch : List Reader → Place → Except Halt (Event × Nat)
  | [], place => place.unclosed
  | reader :: readers, place => do
    match ← reader place with
    | some found => .ok found
    | none => dispatch readers place

/-! ### Readers and recognizers -/

/-- The offsets of a site. -/
def placeOf (site : Site) : Place :=
  ⟨site.source, site.start, site.cursor.offset, site.delimiters⟩

/-- What a recognizer says, with an offset in the place of a cursor. -/
def told : Option Event × Cursor → Option (Event × Nat)
  | (some event, next) => some (event, next.offset)
  | (none, _) => none

/-- A reader does what a recognizer does, at every site that the start of its template reaches. -/
def Reader.Follows (reader : Reader) (r : Recognizer) : Prop :=
  ∀ site : Site, (Cursor.atStart site.source).Reaches site.cursor →
    reader (placeOf site) = lift (told <$> r.read site)

section Follows

variable {site : Site} {c : Cursor}

/-- A tag without an end fails with the error of the library, since its excerpt can be cut out. -/
theorem unclosed_eq {α : Type} (site : Site) :
    (placeOf site).unclosed (α := α) = .error (.error site.unclosed) := by
  rw [Place.unclosed, near_eq]
  rfl

/-- A tag without content fails with the error of the library, since its excerpt can be cut out. -/
theorem empty_eq {α : Type} (site : Site) (position : Nat) :
    (placeOf site).empty (α := α) position = .error (.error (site.empty position)) := by
  rw [Place.empty, near_eq]
  rfl

/-- What is done behind a search for the end of a tag is done by offsets as by cursors, if that holds
for every end. The text in front of the end can be cut out. -/
theorem findEnd_bind {α β : Type} {f : Nat → Except Halt β}
    {g : List Char × Cursor × Cursor → Except ParseError α} {k : α → β} {ending : List Char}
    (hc : (Cursor.atStart site.source).Reaches c)
    (h : ∀ inside found next, between site.source c.offset found.offset = .ok inside →
      found.offset + byteSize ending = next.offset →
        f found.offset = lift (k <$> g (inside, found, next))) :
    (placeOf site).findEnd c.offset ending >>= f = lift (k <$> (site.upTo c ending >>= g)) := by
  rw [Site.upTo, Cursor.cut?, Place.findEnd]
  show (findFrom site.source ending c.offset >>= _) >>= f = _
  rw [findFrom_of_reaches hc]
  cases hcut : Text.cut? ending c.rest with
  | none =>
    show (placeOf site).unclosed >>= f = _
    rw [unclosed_eq]
    rfl
  | some split =>
    obtain ⟨inside, rest⟩ := split
    have hrest := cut?_eq_some hcut
    rw [List.append_assoc] at hrest
    exact h inside (c.past inside (ending ++ rest)) ((c.past inside (ending ++ rest)).past ending rest)
      (between_of_reaches hc hrest rfl) rfl

/-- The content of a tag that is found is the one that the library trims. -/
theorem content_eq {inside : List Char} {start stop : Nat} (next : Nat)
    (hcut : between site.source start stop = .ok inside) :
    (placeOf site).content start stop next =
      if (trim inside).isEmpty then .error (.error (site.empty next))
      else .ok (String.ofList (trim inside)) := by
  rw [Place.content]
  show between site.source start stop >>= _ = _
  rw [hcut]
  show (if _ then (placeOf site).empty next else _) = _
  rw [empty_eq]

/-- A mark that stands first in the text is passed by the cursor. -/
theorem after?_of_some {mark rest : List Char} (h : Text.after? mark c.rest = some rest) :
    c.after? mark = some (c.past mark rest) := by
  rw [Cursor.after?, h]
  rfl

/-- A cursor does not pass a mark that does not stand first in the text. -/
theorem after?_of_none {mark : List Char} (h : Text.after? mark c.rest = none) :
    c.after? mark = none := by
  rw [Cursor.after?, h]
  rfl

/-- A reader that looks for a mark first leaves the tag to others where a recognizer does. Behind the
mark the one has to do what the other does. -/
theorem mark_bind {f : Except Halt (Option (Event × Nat))}
    {g : Cursor → Except ParseError (Option Event × Cursor)} (mark : List Char)
    (hsite : (Cursor.atStart site.source).Reaches site.cursor)
    (h : ∀ start, site.cursor.after? mark = some start → f = lift (told <$> g start)) :
    (do
      let rest ← textFrom (placeOf site).source (placeOf site).cursor
      if (Text.after? mark rest).isNone then .ok none else f) =
      lift (told <$> match site.cursor.after? mark with
        | none => .ok (none, site.cursor)
        | some start => g start) := by
  show textFrom site.source site.cursor.offset >>= _ = _
  rw [textFrom_of_reaches hsite]
  show (if (Text.after? mark site.cursor.rest).isNone then _ else _) = _
  cases hmark : Text.after? mark site.cursor.rest with
  | none =>
    rw [after?_of_none hmark]
    rfl
  | some rest =>
    have hstart := after?_of_some hmark
    rw [hstart]
    exact h _ hstart

/-- A mark has the size of its characters. -/
theorem offset_of_after? {start : Cursor} {mark : List Char} (h : c.after? mark = some start) :
    start.offset = c.offset + byteSize mark := by
  obtain ⟨rest, _, rfl⟩ := Option.map_eq_some_iff.1 h
  rfl

/-- A tag with a content, by its mark. -/
theorem read_ofContent_eq (name : String) (mark : List Char) (event : String → Span → Event) :
    (Recognizer.ofContent name mark event).read site =
      match site.cursor.after? mark with
      | none => .ok (none, site.cursor)
      | some start => (do
        let (inside, _, next) ← site.upTo start site.closing
        if (trim inside).isEmpty then .error (site.empty next.offset)
        else .ok (some (event (String.ofList (trim inside)) (site.spanTo next)), next)) := by
  cases hmark : site.cursor.after? mark with
  | none =>
    simp only [Recognizer.ofContent, Site.content, hmark]
    rfl
  | some start => exact Recognizer.read_ofContent name event hmark

/-- A tag with a mark and a content is read by offsets as by cursors. -/
theorem follows_content (name : String) (mark : List Char) (event : String → Span → Event) :
    Reader.Follows (readContent mark event) (.ofContent name mark event) := by
  intro site hsite
  rw [readContent, read_ofContent_eq]
  refine mark_bind mark hsite fun start hstart => ?_
  show (placeOf site).findEnd (site.cursor.offset + byteSize mark) _ >>= _ = _
  rw [← offset_of_after? hstart]
  refine findEnd_bind (hsite.trans (Cursor.reaches_of_after? hstart))
    fun inside found next hcut hnext => ?_
  show (placeOf site).content (site.cursor.offset + byteSize mark) found.offset
    (found.offset + byteSize (placeOf site).closing) >>= _ = _
  rw [← offset_of_after? hstart, content_eq _ hcut, hnext]
  show _ = lift (told <$> if (trim inside).isEmpty then _ else _)
  split
  · rfl
  · rfl

/-- A comment is read by offsets as by cursors. -/
theorem follows_comment : Reader.Follows readComment .comment := by
  intro site hsite
  refine mark_bind ['!'] hsite fun start hstart => ?_
  -- The end is sought from the mark on, not from behind it.
  refine findEnd_bind hsite fun inside found next _ hnext => ?_
  show Except.ok (some (Event.skip, found.offset + byteSize (placeOf site).closing)) = _
  rw [hnext]
  rfl

/-- A change of delimiters is read by offsets as by cursors. -/
theorem follows_delimiters : Reader.Follows readDelimiters .delimiters := by
  intro site hsite
  refine mark_bind ['='] hsite fun start hstart => ?_
  have hoffset : start.offset = site.cursor.offset + 1 := offset_of_after? hstart
  show (placeOf site).findEnd (site.cursor.offset + 1) _ >>= _ = _
  rw [← hoffset]
  refine findEnd_bind (hsite.trans (Cursor.reaches_of_after? hstart))
    fun inside found next hcut hnext => ?_
  show between site.source (site.cursor.offset + 1) found.offset >>= _ = _
  rw [← hoffset, hcut]
  show (match Recognizer.newDelimiters? inside with
    | none => _
    | some d => _) = lift (told <$> match Recognizer.newDelimiters? inside with
    | none => _
    | some d => _)
  -- The excerpt ends where the closing delimiter was found.
  cases Recognizer.newDelimiters? inside with
  | none =>
    show near site.source found.offset >>= _ = _
    rw [near_eq]
    rfl
  | some d =>
    show Except.ok (some (Event.change d,
      found.offset + byteSize ('=' :: (placeOf site).closing))) = _
    rw [hnext]
    rfl

/-- The part of an interpolation that is not escaped behind its mark. -/
theorem unescaped_from (hc : (Cursor.atStart site.source).Reaches c) (ending : List Char) :
    (do
      let stop ← (placeOf site).findEnd c.offset ending
      let path ← (placeOf site).content c.offset stop (stop + byteSize ending)
      .ok (some (Event.token (.interpolation ⟨path, false, ⟨site.start, stop + byteSize ending⟩⟩),
        stop + byteSize ending))) =
      lift (told <$> do
        let (inside, _, next) ← site.upTo c ending
        if (trim inside).isEmpty then .error (site.empty next.offset)
        else .ok (some (.token (.interpolation
          ⟨String.ofList (trim inside), false, site.spanTo next⟩)), next)) := by
  refine findEnd_bind hc fun inside found next hcut hnext => ?_
  show (placeOf site).content c.offset found.offset (found.offset + byteSize ending) >>= _ = _
  rw [content_eq _ hcut, hnext]
  show _ = lift (told <$> if (trim inside).isEmpty then _ else _)
  split
  · rfl
  · rfl

/-- An interpolation that is not escaped is read by offsets as by cursors. -/
theorem follows_unescaped : Reader.Follows readUnescaped .unescaped := by
  intro site hsite
  rw [readUnescaped]
  show textFrom site.source site.cursor.offset >>= _ = _
  rw [textFrom_of_reaches hsite]
  -- A brace is tried before an ampersand, and has an ending of its own.
  cases hbrace : Text.after? ['\x7b'] site.cursor.rest with
  | some rest =>
    have hstart := after?_of_some hbrace
    simp only [Recognizer.unescaped, Recognizer.openUnescaped?, hstart, bind, Except.bind, hbrace,
      Option.isSome_some, if_true]
    exact unescaped_from (hsite.trans (Cursor.reaches_of_after? hstart)) ('\x7d' :: site.closing)
  | none =>
    have hnobrace := after?_of_none hbrace
    cases hmark : Text.after? ['&'] site.cursor.rest with
    | none =>
      have hnomark := after?_of_none hmark
      simp only [Recognizer.unescaped, Recognizer.openUnescaped?, hnobrace, hnomark, bind,
        Except.bind, hbrace, hmark]
      rfl
    | some rest =>
      have hstart := after?_of_some hmark
      simp only [Recognizer.unescaped, Recognizer.openUnescaped?, hnobrace, hstart, bind,
        Except.bind, hbrace, hmark, Option.isSome_some, Option.isSome_none, if_true,
        Bool.false_eq_true, if_false, Option.map_some]
      exact unescaped_from (hsite.trans (Cursor.reaches_of_after? hstart)) site.closing

/-- A call is read by offsets as by cursors, at every place of the tag. -/
theorem readCall_eq (hc : (Cursor.atStart site.source).Reaches c) (registry : Registry)
    (event : String → List Argument → Span → Span → Event) :
    readCall (placeOf site) registry c.offset event =
      lift ((Option.map fun call : CallTag =>
        (event call.name call.args call.tag call.content, call.next.offset)) <$>
          site.call registry c) := by
  -- Over blanks, the name and blanks again to the arguments, as the library goes.
  have hstart := hc.trans (Cursor.reaches_skipBlank c)
  have hstop := hstart.trans (Cursor.reaches_name c.skipBlank site.closing)
  have hargs := hstop.trans (Cursor.reaches_skipBlank (c.skipBlank.name site.closing).2)
  have hname : between site.source c.skipBlank.offset
      (c.skipBlank.name site.closing).2.offset = .ok (c.skipBlank.name site.closing).1 :=
    between_of_reaches hstart (spanUntil_append isBlank site.closing c.skipBlank.rest).symm rfl
  rw [readCall, Site.call]
  show skipBlank site.source c.offset >>= _ = _
  rw [skipBlank_of_reaches hc]
  show nameEnd site.source site.closing c.skipBlank.offset >>= _ = _
  rw [nameEnd_of_reaches hstart]
  show between site.source c.skipBlank.offset _ >>= _ = _
  rw [hname]
  show (match registry.get? (String.ofList (c.skipBlank.name site.closing).1) with
    | none => _
    | some helper => _) = lift (_ <$>
      match registry.get? (String.ofList (c.skipBlank.name site.closing).1) with
      | none => _
      | some helper => _)
  -- A name that the registry does not have is left to others, before the end is sought.
  cases registry.get? (String.ofList (c.skipBlank.name site.closing).1) with
  | none => rfl
  | some helper =>
    show skipBlank site.source (c.skipBlank.name site.closing).2.offset >>= _ = _
    rw [skipBlank_of_reaches hstop]
    refine findEnd_bind hargs fun inside found next hcut hnext => ?_
    show (if helper.arity = 0 then _ else between site.source _ found.offset >>= _) =
      lift (_ <$> if helper.arity = 0 then _ else _)
    rw [hcut, hnext]
    split
    · rfl
    · show arguments (trimEnd inside) _ >>= _ = _
      rw [arguments_eq]
      exact lift_bind fun args => rfl

/-- A call is read by offsets as by cursors. -/
theorem follows_helper (registry : Registry) :
    Reader.Follows (readHelper registry) (.helper registry) := by
  intro site hsite
  show readCall (placeOf site) registry site.cursor.offset _ = _
  rw [readCall_eq hsite]
  show _ = lift (told <$> (site.call registry site.cursor >>= _))
  cases site.call registry site.cursor with
  | error e => rfl
  | ok call? =>
    cases call? with
    | none => rfl
    | some call => rfl

/-- The open tag of a block with a helper is read by offsets as by cursors. Its mark has to be a
single byte, since the reader goes on one byte further. -/
theorem follows_helperBlock (name : String) {mark : Char} (hmark : mark.utf8Size = 1)
    (kind : BlockKind) (registry : Registry) :
    Reader.Follows (readHelperBlock mark kind registry)
      (.helperBlock name [mark] kind registry) := by
  intro site hsite
  refine mark_bind [mark] hsite fun start hstart => ?_
  have hoffset : start.offset = site.cursor.offset + 1 := by
    rw [offset_of_after? hstart, byteSize_cons, hmark, byteSize_nil]
  have hcall := readCall_eq (hsite.trans (Cursor.reaches_of_after? hstart)) registry
    fun name args tag _ => .enter ⟨kind, name, args, tag⟩
  rw [hoffset] at hcall
  show readCall (placeOf site) registry (site.cursor.offset + 1)
    (fun name args tag _ => .enter ⟨kind, name, args, tag⟩) = _
  rw [hcall]
  show _ = lift (told <$> (site.call registry start >>= _))
  cases site.call registry start with
  | error e => rfl
  | ok call? =>
    cases call? with
    | none => rfl
    | some call => rfl

end Follows

/-! ### The readers of an engine -/

/-- Every reader of an engine does what the recognizer in its place does. -/
theorem follows_readersWith (sections inlines : List Registry) :
    List.Forall₂ Reader.Follows (readersWith sections inlines)
      (recognizersWith sections inlines) := by
  -- The readers of helpers are as many as the registries, on both sides.
  have hblocks : ∀ (name : String) (mark : Char) (kind : BlockKind), mark.utf8Size = 1 →
      List.Forall₂ Reader.Follows (sections.map (readHelperBlock mark kind))
        (sections.map (Recognizer.helperBlock name [mark] kind)) := by
    intro name mark kind hmark
    rw [List.forall₂_map_left_iff, List.forall₂_map_right_iff, List.forall₂_same]
    exact fun registry _ => follows_helperBlock name hmark kind registry
  have hhelpers : List.Forall₂ Reader.Follows (inlines.map readHelper)
      (inlines.map Recognizer.helper) := by
    rw [List.forall₂_map_left_iff, List.forall₂_map_right_iff, List.forall₂_same]
    exact fun registry _ => follows_helper registry
  have hfirst : List.Forall₂ Reader.Follows [readComment, readDelimiters]
      [.comment, .delimiters] := .cons follows_comment (.cons follows_delimiters .nil)
  have hopens := List.rel_append (hblocks "helper_section" '#' .helper (by decide))
    (.cons (follows_content "section" ['#'] fun name tag => .enter ⟨.plain, name, [], tag⟩) .nil)
  have hinverted := List.rel_append (hblocks "helper_inverted_section" '^' .invertedHelper
    (by decide)) (.cons (follows_content "inverted_section" ['^'] fun name tag =>
      .enter ⟨.inverted, name, [], tag⟩) .nil)
  have hmiddle : List.Forall₂ Reader.Follows
      [readContent ['/'] fun name tag => .leave name tag, readUnescaped]
      [.sectionEnd, .unescaped] :=
    .cons (follows_content "section_end" ['/'] _) (.cons follows_unescaped .nil)
  have hlast := List.rel_append hhelpers (.cons (follows_content "interpolation" []
    fun path tag => .token (.interpolation ⟨path, true, tag⟩)) .nil)
  exact List.rel_append (List.rel_append (List.rel_append (List.rel_append hfirst hopens)
    hinverted) hmiddle) hlast

/-- The readers of an engine find what its recognizers find. -/
theorem dispatch_of_follows {readers : List Reader} {rs : List Recognizer} {site : Site}
    (h : List.Forall₂ Reader.Follows readers rs)
    (hsite : (Cursor.atStart site.source).Reaches site.cursor) :
    dispatch readers (placeOf site) =
      lift ((fun found => (found.1, found.2.offset)) <$> recognize rs site) := by
  induction h with
  | nil =>
    rw [dispatch, recognize, unclosed_eq]
    rfl
  | @cons reader r readers rs hfollows _ ih =>
    rw [dispatch, recognize, hfollows site hsite]
    cases r.read site with
    | error e => rfl
    | ok result =>
      obtain ⟨event?, next⟩ := result
      cases event? with
      | none => exact ih
      | some event => rfl

end Offsets

end Stencil
