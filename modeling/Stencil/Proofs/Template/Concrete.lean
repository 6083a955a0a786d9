import Stencil.Proofs.Template.Nests
import Stencil.Proofs.Template.TagMeaning

/-!
# `Stencil.Proofs.Template.Concrete`: well-formed templates

A concrete template is a tree of texts, comments, interpolations and blocks, with the blanks inside
its tags. `Part.writeAll` writes it down between two delimiters, and `Part.tokensOf` is the tree of
tokens that it stands for. It is well-formed (`Part.AllFit`) when no text has an opening delimiter
starting in it, no two texts are side by side, and every tag is closed for the first time where it
ends.

`parse_write` is the main fact: the stock pipeline parses every well-formed template to just the
tokens that it stands for, with their names, paths, bodies and spans.
-/

set_option autoImplicit false

namespace Stencil

open Text

/-! ### Concrete templates -/

/-- The blanks on both sides of a name or a path. -/
structure Padding where
  before : List Char
  after : List Char
deriving DecidableEq, Repr, Inhabited

/-- A name or a path between blanks. -/
def Padding.around (pad : Padding) (content : List Char) : List Char :=
  pad.before ++ content ++ pad.after

/-- A name or a path that can be told from the blanks around it, and is closed for the first time
behind these. -/
structure Padding.Fits (closing : List Char) (pad : Padding) (content : List Char) : Prop where
  before : AllBlank pad.before
  after : AllBlank pad.after
  trimmed : trim content = content
  notEmpty : content ≠ []
  first : StartsFirst closing (pad.around content)

/-- To fit is to have each of the five properties, which can be decided one by one. -/
theorem Padding.fits_iff {closing content : List Char} {pad : Padding} :
    pad.Fits closing content ↔ AllBlank pad.before ∧ AllBlank pad.after ∧ trim content = content ∧
      content ≠ [] ∧ StartsFirst closing (pad.around content) :=
  ⟨fun h => ⟨h.before, h.after, h.trimmed, h.notEmpty, h.first⟩,
    fun ⟨before, after, trimmed, notEmpty, first⟩ => ⟨before, after, trimmed, notEmpty, first⟩⟩

/-- Whether a name fits between its blanks can be decided. -/
instance (closing content : List Char) (pad : Padding) : Decidable (pad.Fits closing content) :=
  decidable_of_iff _ Padding.fits_iff.symm

/-- A part of a concrete template. -/
inductive Part where
  | text (content : List Char)
  | comment (content : List Char)
  /-- An interpolation without a sigil. -/
  | bare (pad : Padding) (path : List Char)
  /-- An interpolation that is marked with `&`. -/
  | ampersand (pad : Padding) (path : List Char)
  /-- An interpolation in one more pair of braces. -/
  | braces (pad : Padding) (path : List Char)
  /-- A block, with the blanks in its open and in its close tag. -/
  | block (inverted : Bool) (name : List Char) (opening closing : Padding) (children : List Part)
deriving Inhabited

/-- The text of a tag, with its delimiters. -/
def Delimiters.tag (d : Delimiters) (inside : List Char) : List Char :=
  d.opening.toList ++ inside ++ d.closing.toList

/-- The sigil of the open tag of a block. -/
def Sigil.ofBlock (inverted : Bool) : Sigil :=
  if inverted then .inverted else .enter

/-- What a block without a helper does with its children. -/
def BlockKind.ofBlock (inverted : Bool) : BlockKind :=
  if inverted then .inverted else .plain

namespace Part

/-- Whether a part is a literal text. -/
def isText : Part → Bool
  | .text _ => true
  | _ => false

/-- Whether parts start with a literal text. -/
def startWithText : List Part → Bool
  | [] => false
  | part :: _ => part.isText

mutual

/-- The text of a part. -/
def write (d : Delimiters) : Part → List Char
  | .text content => content
  | .comment content => d.tag ('!' :: content)
  | .bare pad path => d.tag (pad.around path)
  | .ampersand pad path => d.tag ('&' :: pad.around path)
  | .braces pad path => d.tag ('\x7b' :: pad.around path ++ ['\x7d'])
  | .block inverted name opening closing children =>
    d.tag ((Sigil.ofBlock inverted).chars ++ opening.around name) ++ writeAll d children ++
      d.tag ('/' :: closing.around name)

/-- The text of parts one behind the other. -/
def writeAll (d : Delimiters) : List Part → List Char
  | [] => []
  | part :: parts => write d part ++ writeAll d parts

end

mutual

/-- A part that can be told from what stands around it. -/
def Fits (d : Delimiters) : Part → Prop
  | .text content => content ≠ [] ∧ StartsFirst d.opening.toList content
  | .comment content => StartsFirst d.closing.toList ('!' :: content)
  | .bare pad path => pad.Fits d.closing.toList path ∧
      ∀ c ∈ marks, (pad.before ++ path).head? ≠ some c
  | .ampersand pad path => pad.Fits d.closing.toList path
  | .braces pad path => pad.Fits ('\x7d' :: d.closing.toList) path
  | .block _ name opening closing children => opening.Fits d.closing.toList name ∧
      AllFit d children ∧ closing.Fits d.closing.toList name

/-- Parts that can be told from each other. -/
def AllFit (d : Delimiters) : List Part → Prop
  | [] => True
  | part :: parts => Fits d part ∧ (part.isText = true → startWithText parts = false) ∧
      AllFit d parts

end

mutual

/-- Whether a part can be told from what stands around it is decided part by part. -/
def decidableFits (d : Delimiters) : (part : Part) → Decidable (Fits d part)
  | .text content =>
    inferInstanceAs (Decidable (content ≠ [] ∧ StartsFirst d.opening.toList content))
  | .comment content => inferInstanceAs (Decidable (StartsFirst d.closing.toList ('!' :: content)))
  | .bare pad path =>
    -- Only the marks are tried here, not all characters.
    have : Decidable (∀ c ∈ marks, (pad.before ++ path).head? ≠ some c) := List.decidableBAll ..
    inferInstanceAs (Decidable (pad.Fits d.closing.toList path ∧
      ∀ c ∈ marks, (pad.before ++ path).head? ≠ some c))
  | .ampersand pad path => inferInstanceAs (Decidable (pad.Fits d.closing.toList path))
  | .braces pad path => inferInstanceAs (Decidable (pad.Fits ('\x7d' :: d.closing.toList) path))
  | .block _ name opening closing children =>
    have := decidableAllFit d children
    inferInstanceAs (Decidable (opening.Fits d.closing.toList name ∧ AllFit d children ∧
      closing.Fits d.closing.toList name))

/-- Whether parts can be told from each other is decided one after the other. -/
def decidableAllFit (d : Delimiters) : (parts : List Part) → Decidable (AllFit d parts)
  | [] => .isTrue trivial
  | part :: parts =>
    have := decidableFits d part
    have := decidableAllFit d parts
    inferInstanceAs (Decidable (Fits d part ∧ (part.isText = true → startWithText parts = false) ∧
      AllFit d parts))

end

/-- Whether a concrete template is well-formed can be decided. -/
instance (d : Delimiters) (parts : List Part) : Decidable (AllFit d parts) :=
  decidableAllFit d parts

mutual

/-- The tokens that a part stands for when it starts at a byte offset. -/
def tokens (d : Delimiters) (offset : Nat) : Part → List Token
  | .text content => [.text (String.ofList content)]
  | .comment _ => []
  | .bare pad path => [.interpolation
      ⟨String.ofList path, true, ⟨offset, offset + byteSize (d.tag (pad.around path))⟩⟩]
  | .ampersand pad path => [.interpolation
      ⟨String.ofList path, false, ⟨offset, offset + byteSize (d.tag ('&' :: pad.around path))⟩⟩]
  | .braces pad path => [.interpolation
      ⟨String.ofList path, false,
        ⟨offset, offset + byteSize (d.tag ('\x7b' :: pad.around path ++ ['\x7d']))⟩⟩]
  | .block inverted name opening closing children =>
    let inside := offset +
      byteSize (d.tag ((Sigil.ofBlock inverted).chars ++ opening.around name))
    let outside := inside + byteSize (writeAll d children)
    [.block ⟨⟨.ofBlock inverted, String.ofList name, [], ⟨offset, inside⟩⟩,
      ⟨outside, outside + byteSize (d.tag ('/' :: closing.around name))⟩,
      String.ofList (writeAll d children), d⟩ (tokensOf d inside children)]

/-- The tokens that parts stand for when the first one starts at a byte offset. -/
def tokensOf (d : Delimiters) (offset : Nat) : List Part → List Token
  | [] => []
  | part :: parts => tokens d offset part ++
      tokensOf d (offset + byteSize (write d part)) parts

end

end Part

/-! ### Scanning what is written -/

/-- A text at a byte offset, with other text behind it, is scanned to pieces that nest into the
tokens and leave the delimiters as they were. -/
def ScansTo (source : List Char) (d : Delimiters) (offset : Nat) (written rest : List Char)
    (tokens : List Token) : Prop :=
  ∃ pieces, Tiled .stock source d ⟨offset, written ++ rest⟩ pieces
      ⟨offset + byteSize written, rest⟩ ∧
    delimitersAlong d pieces = d ∧ Nests pieces tokens

section Scanning

variable {source written written' rest : List Char} {d : Delimiters} {offset : Nat}
  {tokens tokens' : List Token}

/-- Nothing is scanned to nothing. -/
theorem ScansTo.nil : ScansTo source d offset [] rest [] :=
  ⟨[], rfl, rfl, .nil⟩

/-- Texts one behind the other are scanned one after the other. -/
theorem ScansTo.append (h : ScansTo source d offset written (written' ++ rest) tokens)
    (h' : ScansTo source d (offset + byteSize written) written' rest tokens') :
    ScansTo source d offset (written ++ written') rest (tokens ++ tokens') := by
  obtain ⟨pieces, htiled, halong, hnests⟩ := h
  obtain ⟨pieces', htiled', halong', hnests'⟩ := h'
  refine ⟨pieces ++ pieces', ?_, ?_, hnests.append hnests'⟩
  · rw [List.append_assoc, byteSize_append, ← Nat.add_assoc]
    refine tiled_append_iff.2 ⟨_, htiled, ?_⟩
    rw [halong]
    exact htiled'
  · have hfold : delimitersAlong d (pieces ++ pieces') =
        delimitersAlong (delimitersAlong d pieces) pieces' := List.foldl_append
    rw [hfold, halong, halong']

/-- A text in front of the end or of an opening delimiter is scanned to a text. -/
theorem ScansTo.text (hne : written ≠ []) (hfirst : StartsFirst d.opening.toList written)
    (hrest : rest = [] ∨ d.opening.toList <+: rest) :
    ScansTo source d offset written rest [.text (String.ofList written)] := by
  have htakes : Piece.Takes .stock source ⟨offset, written ++ rest⟩
      ⟨.token (.text (String.ofList written)), offset, ⟨offset + byteSize written, rest⟩, d⟩ := by
    refine .text written rfl hne rfl rfl ?_
    rcases hrest with rfl | hopens
    · exact .inl ⟨hfirst.not_isInfix hne, rfl⟩
    · exact .inr ⟨hfirst, hopens⟩
  exact ⟨[_], ⟨rfl, rfl, htakes, offset_lt_of_ne_nil hne offset, rfl⟩, rfl, .token rfl .nil⟩

/-- The place behind the opening delimiter of a tag. -/
def tagSite (source : List Char) (d : Delimiters) (offset : Nat) (inside rest : List Char) :
    Site :=
  ⟨source, offset, ⟨offset + byteSize d.opening.toList, inside ++ d.closing.toList ++ rest⟩, d⟩

/-- The piece of a tag. -/
def tagPiece (event : Event) (d : Delimiters) (offset : Nat) (inside rest : List Char) : Piece :=
  ⟨event, offset, ⟨offset + byteSize (d.tag inside), rest⟩, d⟩

/-- A tag that says something is one piece. -/
theorem tiled_tag {inside : List Char} {event : Event} (hd : d.Proper)
    (h : (tagSite source d offset inside rest).Says [] []
      ⟨offset + byteSize (d.tag inside), rest⟩ inside event) :
    Tiled .stock source d ⟨offset, d.tag inside ++ rest⟩
      [tagPiece event d offset inside rest] ⟨offset + byteSize (d.tag inside), rest⟩ := by
  have hends : (tagSite source d offset inside rest).Ends inside
      -- It is read by the pipeline without helpers, and so as what it says.
      ⟨offset + byteSize (d.tag inside), rest⟩ := by
    constructor
    · rfl
    · simp only [tagSite, Site.closing, Delimiters.tag, byteSize_append, Nat.add_assoc]
  have hread : recognize Pipeline.stock.recognizers (tagSite source d offset inside rest) =
      .ok (event, ⟨offset + byteSize (d.tag inside), rest⟩) := by
    have hclosing : IsWord (tagSite source d offset inside rest).closing := hd.closing
    exact (recognize_eq_ok_iff hclosing).2 ⟨inside, hends, h⟩
  have hne : d.tag inside ≠ [] := by
    intro hnil
    simp only [Delimiters.tag, List.append_eq_nil_iff] at hnil
    exact hd.opening.1 hnil.1.1
  refine ⟨rfl, rfl, .tag ⟨_, _⟩ ?_ rfl hread, offset_lt_of_ne_nil hne offset, rfl⟩
  simp only [Delimiters.tag, tagPiece, List.append_assoc]

/-- A tag that gives a token is scanned to that. -/
theorem ScansTo.token {inside : List Char} {t : Token} (hd : d.Proper)
    (h : (tagSite source d offset inside rest).Says [] []
      ⟨offset + byteSize (d.tag inside), rest⟩ inside (.token t)) :
    ScansTo source d offset (d.tag inside) rest [t] :=
  ⟨_, tiled_tag hd h, rfl, .token rfl .nil⟩

/-- A comment is scanned to nothing. -/
theorem ScansTo.skip {inside : List Char} (hd : d.Proper)
    (h : (tagSite source d offset inside rest).Says [] []
      ⟨offset + byteSize (d.tag inside), rest⟩ inside .skip) :
    ScansTo source d offset (d.tag inside) rest [] :=
  ⟨_, tiled_tag hd h, rfl, .hidden rfl .nil⟩

/-- An open tag, what is scanned behind it, and a close tag of the same name are scanned to a
block. -/
theorem ScansTo.block {opens closes body : List Char} {children : List Token} {kind : BlockKind}
    {name : String} (hd : d.Proper)
    (hopens : (tagSite source d offset opens (body ++ (d.tag closes ++ rest))).Says [] []
      ⟨offset + byteSize (d.tag opens), body ++ (d.tag closes ++ rest)⟩ opens
      (.enter ⟨kind, name, [], ⟨offset, offset + byteSize (d.tag opens)⟩⟩))
    (hbody : ScansTo source d (offset + byteSize (d.tag opens)) body (d.tag closes ++ rest)
      children)
    (hcloses : (tagSite source d (offset + byteSize (d.tag opens) + byteSize body) closes
      rest).Says [] []
      ⟨offset + byteSize (d.tag opens) + byteSize body + byteSize (d.tag closes), rest⟩ closes
      (.leave name ⟨offset + byteSize (d.tag opens) + byteSize body,
        offset + byteSize (d.tag opens) + byteSize body + byteSize (d.tag closes)⟩)) :
    ScansTo source d offset (d.tag opens ++ body ++ d.tag closes) rest
      [.block ⟨⟨kind, name, [], ⟨offset, offset + byteSize (d.tag opens)⟩⟩,
        ⟨offset + byteSize (d.tag opens) + byteSize body,
          offset + byteSize (d.tag opens) + byteSize body + byteSize (d.tag closes)⟩,
        String.ofList body, d⟩ children] := by
  obtain ⟨inner, htiled, halong, hnests⟩ := hbody
  have hopensTiled := tiled_tag hd hopens
  have hclosesTiled := tiled_tag hd hcloses
  -- The offsets of the four ends are kept as names, since they stand in every span.
  generalize hmid : offset + byteSize (d.tag opens) = mid at *
  generalize hlast : mid + byteSize body = last at *
  generalize hstop : last + byteSize (d.tag closes) = stop at *
  have hinside : Tiled .stock source d ⟨mid, body ++ (d.tag closes ++ rest)⟩
      (inner ++ [tagPiece (.leave name ⟨last, stop⟩) d last closes rest]) ⟨stop, rest⟩ :=
    tiled_append_iff.2 ⟨_, htiled, by rw [halong]; exact hclosesTiled⟩
  refine ⟨tagPiece (.enter ⟨kind, name, [], ⟨offset, mid⟩⟩) d offset opens
    (body ++ (d.tag closes ++ rest)) :: inner ++
      [tagPiece (.leave name ⟨last, stop⟩) d last closes rest], ?_, ?_, .block ?_ hnests .nil⟩
  · have hsize : offset + byteSize (d.tag opens ++ body ++ d.tag closes) = stop := by
      rw [byteSize_append, byteSize_append, ← hstop, ← hlast, ← hmid]
      omega
    rw [hsize, List.append_assoc, List.append_assoc, List.cons_append]
    exact tiled_append_iff.2 ⟨_, hopensTiled, hinside⟩
  · have hfold : delimitersAlong d (inner ++
        [tagPiece (.leave name ⟨last, stop⟩) d last closes rest]) =
        delimitersAlong (delimitersAlong d inner) [_] := List.foldl_append
    rw [halong] at hfold
    exact hfold
  · refine ⟨rfl, rfl, ?_, rfl⟩
    -- The body is as long as the way from the open tag to the close tag.
    have hbody : last - (offset + byteSize (d.tag opens)) = byteSize body := by
      rw [hmid, ← hlast, Nat.add_sub_cancel_left]
    simp only [tagPiece, hbody, takeBytes_byteSize_append]

/-! ### What the parts of a template say -/

/-- A name or a path comes back from the blanks around it. -/
theorem Padding.Fits.trim_around {closing content : List Char} {pad : Padding}
    (h : pad.Fits closing content) : trim (pad.around content) = content :=
  trim_padded h.before h.trimmed h.notEmpty h.after

/-- A tag with a name or a path says it. -/
theorem says_of_fits (g : Sigil) {pad : Padding} {content : List Char} {next : Cursor}
    (h : pad.Fits d.closing.toList content)
    (hbare : g = .bare → ∀ c ∈ marks, (pad.before ++ content).head? ≠ some c) :
    (tagSite source d offset (g.chars ++ pad.around content) rest).Says [] [] next
      (g.chars ++ pad.around content) (g.event (String.ofList content) ⟨offset, next.offset⟩) := by
  -- Without registries no name is the name of a helper.
  have hnone : helperFor? (g.registries [] []) (pad.around content) = none := by
    cases g <;> rfl
  have hname : g.Says (pad.around content) (offset + byteSize d.opening.toList + byteSize g.chars)
      ⟨offset, next.offset⟩ (helperFor? (g.registries [] []) (pad.around content))
      (g.event (String.ofList content) ⟨offset, next.offset⟩) := by
    rw [hnone]
    have hne : trim (pad.around content) ≠ [] := by
      rw [h.trim_around]
      exact h.notEmpty
    have hsays : g.Says (pad.around content)
        (offset + byteSize d.opening.toList + byteSize g.chars) ⟨offset, next.offset⟩ none
        (g.event (String.ofList (trim (pad.around content))) ⟨offset, next.offset⟩) := .name hne
    rwa [h.trim_around] at hsays
  refine .sigil g (pad.around content) _ ?_ h.first hname
  intro hg c hc
  -- The first character of the content is that of its blanks or of its name.
  have hhead : (pad.around content ++ d.closing.toList).head? = (pad.before ++ content).head? := by
    obtain ⟨x, xs, hx⟩ := List.exists_cons_of_ne_nil h.notEmpty
    rw [Padding.around, hx]
    cases pad.before <;> rfl
  show (pad.around content ++ d.closing.toList).head? ≠ some c
  rw [hhead]
  exact hbare hg c hc

/-- A part that is no text starts with an opening delimiter. -/
theorem Part.opening_isPrefix_write {part : Part} (h : part.isText = false) (rest : List Char) :
    d.opening.toList <+: part.write d ++ rest := by
  have htag : ∀ inside more, d.opening.toList <+: d.tag inside ++ more := by
    intro inside more
    exact ⟨inside ++ d.closing.toList ++ more, by simp only [Delimiters.tag, List.append_assoc]⟩
  cases part with
  | text content => simp [isText] at h
  | comment content => exact htag _ rest
  | bare pad path => exact htag _ rest
  | ampersand pad path => exact htag _ rest
  | braces pad path => exact htag _ rest
  | block inverted name opening closing children =>
    rw [write, List.append_assoc, List.append_assoc]
    exact htag _ _

/-- Behind a text stands the end of the template or an opening delimiter. -/
theorem Part.opening_isPrefix_of_startWithText {parts : List Part}
    (h : startWithText parts = false) (hrest : rest = [] ∨ d.opening.toList <+: rest) :
    writeAll d parts ++ rest = [] ∨ d.opening.toList <+: writeAll d parts ++ rest := by
  cases parts with
  | nil => exact hrest
  | cons part parts =>
    rw [writeAll, List.append_assoc]
    exact .inr (opening_isPrefix_write h _)

/-- A part of a template is scanned to the tokens that it stands for, if its children are, when it is
a block. What stands behind it matters to a text only. -/
theorem Part.scansTo (hd : d.Proper) (part : Part)
    (hinside : ∀ inverted name opening closing children,
      part = .block inverted name opening closing children →
        ∀ {offset : Nat} {rest : List Char}, Part.AllFit d children →
          (rest = [] ∨ d.opening.toList <+: rest) →
            ScansTo source d offset (Part.writeAll d children) rest (Part.tokensOf d offset children))
    {offset : Nat} {rest : List Char} (h : part.Fits d)
    (hrest : part.isText = true → rest = [] ∨ d.opening.toList <+: rest) :
    ScansTo source d offset (part.write d) rest (part.tokens d offset) := by
  cases part with
  | text content => exact .text h.1 h.2 (hrest rfl)
  | comment content => exact .skip hd (.comment _ rfl h)
  | bare pad path => exact .token hd (says_of_fits .bare h.1 fun _ => h.2)
  | ampersand pad path => exact .token hd (says_of_fits .ampersand h (by simp))
  | braces pad path =>
    have hne : trim (pad.around path) ≠ [] := by
      rw [h.trim_around]
      exact h.notEmpty
    refine .token hd ?_
    have hsays : (tagSite source d offset ('\x7b' :: pad.around path ++ ['\x7d']) rest).Says [] []
        ⟨offset + byteSize (d.tag ('\x7b' :: pad.around path ++ ['\x7d'])), rest⟩
        ('\x7b' :: pad.around path ++ ['\x7d']) (.token (.interpolation
          ⟨String.ofList (trim (pad.around path)), false, _⟩)) := .braces _ h.first hne
    rw [h.trim_around] at hsays
    exact hsays
  | block inverted name opening closing children =>
    obtain ⟨hopening, hchildren, hclosing⟩ := h
    have hevent : ∀ tag, (Sigil.ofBlock inverted).event (String.ofList name) tag =
        .enter ⟨.ofBlock inverted, String.ofList name, [], tag⟩ := by
      intro tag
      cases inverted <;> rfl
    have hbare : Sigil.ofBlock inverted ≠ .bare := by
      cases inverted <;> simp [Sigil.ofBlock]
    -- The children end where the close tag begins.
    have hcloseTag : d.opening.toList <+: d.tag ('/' :: closing.around name) ++ rest :=
      ⟨'/' :: closing.around name ++ d.closing.toList ++ rest,
        by simp only [Delimiters.tag, List.append_assoc]⟩
    refine .block hd ?_ (hinside _ _ _ _ _ rfl hchildren (.inr hcloseTag)) ?_
    · rw [← hevent]
      exact says_of_fits _ hopening fun h => absurd h hbare
    · exact says_of_fits .leave hclosing (by simp)

/-- Parts of a template are scanned to the tokens that they stand for. The recursion is on the parts,
whose children are smaller. -/
theorem Part.scansTo_all (hd : d.Proper) : ∀ (parts : List Part) {offset : Nat} {rest : List Char},
    Part.AllFit d parts → (rest = [] ∨ d.opening.toList <+: rest) →
    ScansTo source d offset (Part.writeAll d parts) rest (Part.tokensOf d offset parts)
  | [], offset, rest, _, _ => .nil
  | part :: parts, offset, rest, h, hrest => by
    obtain ⟨hpart, htext, hparts⟩ := h
    have hbehind : part.isText = true → writeAll d parts ++ rest = [] ∨
        d.opening.toList <+: writeAll d parts ++ rest :=
      fun h => Part.opening_isPrefix_of_startWithText (htext h) hrest
    refine (part.scansTo hd ?_ hpart hbehind).append (Part.scansTo_all hd parts hparts hrest)
    intro inverted name opening closing children hblock offset rest hchildren hrest
    exact Part.scansTo_all hd children hchildren hrest
termination_by parts => sizeOf parts
decreasing_by
  · rw [hblock, List.cons.sizeOf_spec, Part.block.sizeOf_spec]
    omega
  · rw [List.cons.sizeOf_spec]
    omega

end Scanning

/-- The stock pipeline parses every well-formed template to the tokens that it stands for. -/
theorem parse_write {d : Delimiters} {parts : List Part} (hd : d.Proper)
    (h : Part.AllFit d parts) :
    Pipeline.stock.parse (String.ofList (Part.writeAll d parts)) d =
      .ok (Part.tokensOf d 0 parts) := by
  -- Nothing stands behind the last part.
  have hscans : ScansTo (Part.writeAll d parts) d 0 (Part.writeAll d parts) []
      (Part.tokensOf d 0 parts) := Part.scansTo_all hd parts h (.inl rfl)
  obtain ⟨pieces, htiled, _, hnests⟩ := hscans
  rw [List.append_nil] at htiled
  -- The stock pipeline is that of an engine without additions.
  have hwith : Tiled (.withHelpers []) (Part.writeAll d parts) d ⟨0, Part.writeAll d parts⟩ pieces
      ⟨0 + byteSize (Part.writeAll d parts), []⟩ := htiled
  have hproper : ∀ taken, taken <+: pieces → (delimitersAlong d taken).opening.toList ≠ [] := by
    intro taken htaken
    exact (hwith.proper_along hd htaken).opening.1
  have hscan := scan_of_tiled htiled rfl hproper
  refine Pipeline.parse_eq_ok_iff.2 ⟨pieces, ?_, hnests⟩
  rw [String.toList_ofList]
  exact hscan

/-- A text, a comment, and a block with another one in it. -/
def Part.nested : List Part :=
  [.text ['a'], .comment ['c'], .block false ['x'] ⟨[' '], [' ']⟩ ⟨[], []⟩
    [.block true ['y'] ⟨[], []⟩ ⟨[], []⟩ [.bare ⟨[], []⟩ ['z']], .text ['b']]]

/-- Text, comment and blocks come back as the tokens that they stand for. -/
theorem parse_write_nested :
    Pipeline.stock.parse "a<!c><# x ><^y><z></y>b</x>" ⟨"<", ">"⟩ =
      .ok [.text "a",
        .block ⟨⟨.plain, "x", [], ⟨5, 11⟩⟩, ⟨23, 27⟩, "<^y><z></y>b", ⟨"<", ">"⟩⟩
          [.block ⟨⟨.inverted, "y", [], ⟨11, 15⟩⟩, ⟨18, 22⟩, "<z>", ⟨"<", ">"⟩⟩
            [.interpolation ⟨"z", true, ⟨15, 18⟩⟩], .text "b"]] := by
  have hproper : (⟨"<", ">"⟩ : Delimiters).Proper := ⟨by decide, by decide⟩
  have hsource : String.ofList (Part.writeAll ⟨"<", ">"⟩ Part.nested) =
      "a<!c><# x ><^y><z></y>b</x>" := by
    decide +kernel
  have hfit : Part.AllFit ⟨"<", ">"⟩ Part.nested := by decide +kernel
  rw [← hsource, parse_write hproper hfit, Except.ok.injEq]
  decide +kernel

end Stencil
