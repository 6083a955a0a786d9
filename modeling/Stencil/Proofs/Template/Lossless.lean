import Stencil.Proofs.Template.Nests
import Stencil.Proofs.Template.Pieces

/-!
# `Stencil.Proofs.Template.Lossless`: nothing of a template is lost

A template is written as a list of stretches: literal texts, tags that show in the tree of tokens,
comments, and changes of delimiters. `Stretch.writeAll` writes them down between the delimiters in
effect, `Stretch.Fits` says which stretches a scan can tell apart, and `Stretch.shown` gives those
that show, with the bytes that they take up.

`exists_lossless` is the main fact: a template that can be parsed is the written form of stretches,
and what shows of these is the walk over its tokens (`Token.marksOf`). The pieces of the walk stand
in the template one behind the other, at character boundaries, with nothing but comments and changes
of delimiters between them (`Lossless.ordered`, `Lossless.located`); without those they are the
whole template (`Lossless.complete`). A block records the text between its tags, and its children
stand in there (`Block.Sits`).
-/

set_option autoImplicit false

namespace Stencil

open Text

/-! ### The walk over a tree of tokens -/

/-- What a walk over the tokens of a template meets: a literal text, or the span of a tag. -/
inductive Mark where
  | literal (content : String)
  | tag (span : Span)
deriving DecidableEq, Repr, Inhabited

mutual

/-- The walk over a token. A block gives its open tag, its children, and its close tag. -/
def Token.marks : Token → List Mark
  | .text s => [.literal s]
  | .interpolation i => [.tag i.tag]
  | .call c => [.tag c.tag]
  | .block b children => .tag b.opening.tag :: (Token.marksOf children ++ [.tag b.closing])

/-- The walk over tokens, in order. -/
def Token.marksOf : List Token → List Mark
  | [] => []
  | t :: ts => Token.marks t ++ Token.marksOf ts

end

/-- The text that takes up the bytes of a span. -/
def slice (source : List Char) (span : Span) : List Char :=
  takeBytes (span.stop - span.start) (source.drop (takeBytes span.start source).length)

/-- The text that a mark stands for. -/
def Mark.content (source : List Char) : Mark → List Char
  | .literal s => s.toList
  | .tag span => slice source span

/-- The text takes up the bytes of a span: it stands between two others, and its first and its last
byte are those of the span. -/
def Span.Covers (span : Span) (source text : List Char) : Prop :=
  ∃ lead rest, source = lead ++ text ++ rest ∧
    span = ⟨byteSize lead, byteSize lead + byteSize text⟩

/-- The slice of a span is the text that takes it up. -/
theorem slice_of_covers {span : Span} {source text : List Char} (h : span.Covers source text) :
    slice source span = text := by
  obtain ⟨lead, rest, rfl, rfl⟩ := h
  have hlead : takeBytes (byteSize lead) (lead ++ (text ++ rest)) = lead :=
    takeBytes_byteSize_append lead _
  have hsize : byteSize lead + byteSize text - byteSize lead = byteSize text := by omega
  rw [slice, List.append_assoc, hlead, List.drop_left, hsize]
  exact takeBytes_byteSize_append text rest

/-! ### Stretches -/

/-- A stretch of a template. -/
inductive Stretch where
  /-- Text between tags. -/
  | text (content : List Char)
  /-- A tag that shows in the tree of tokens. -/
  | tag (inside : List Char)
  /-- A tag that shows nothing. -/
  | comment (inside : List Char)
  /-- A tag after which other delimiters hold. -/
  | change (inside : List Char) (next : Delimiters)
deriving Inhabited

namespace Stretch

/-- The delimiters that hold behind a stretch. -/
def delimitersAfter (before : Delimiters) : Stretch → Delimiters
  | .change _ next => next
  | _ => before

/-- The text of a stretch between delimiters. -/
def write (d : Delimiters) : Stretch → List Char
  | .text content => content
  | .tag inside => d.opening.toList ++ inside ++ d.closing.toList
  | .comment inside => d.opening.toList ++ inside ++ d.closing.toList
  | .change inside _ => d.opening.toList ++ ('=' :: inside ++ ['=']) ++ d.closing.toList

/-- The text of stretches one behind the other. -/
def writeAll : Delimiters → List Stretch → List Char
  | _, [] => []
  | d, s :: ss => s.write d ++ writeAll (s.delimitersAfter d) ss

/-- What a scan can tell apart: a literal text is not empty and has no opening delimiter in it, a
comment is marked by `!` and runs to the first closing delimiter, a change gives two words between
`=` and the first `=` in front of one, and any other tag has neither mark. -/
def Fits (d : Delimiters) (following : List Char) : Stretch → Prop
  | .text content => content ≠ [] ∧ ¬ d.opening.toList <:+: content
  | .tag inside => d.opening.toList ++ inside ++ d.closing.toList ≠ [] ∧
      (inside ++ d.closing.toList ++ following).head? ≠ some '!' ∧
      (inside ++ d.closing.toList ++ following).head? ≠ some '='
  | .comment inside => StartsFirst d.closing.toList inside ∧
      (inside ++ d.closing.toList ++ following).head? = some '!'
  | .change inside next => StartsFirst ('=' :: d.closing.toList) inside ∧
      Recognizer.newDelimiters? inside = some next

/-- Stretches that a scan can tell apart, with some text behind them. -/
def AllFit (following : List Char) : Delimiters → List Stretch → Prop
  | _, [] => True
  | d, s :: ss =>
    s.Fits d (writeAll (s.delimitersAfter d) ss ++ following) ∧
      AllFit following (s.delimitersAfter d) ss

/-- Whether a stretch shows in the tree of tokens. -/
def isShown : Stretch → Bool
  | .text _ => true
  | .tag _ => true
  | .comment _ => false
  | .change _ _ => false

/-- What the walk over the tokens meets in the place of a stretch. -/
def mark? (span : Span) : Stretch → Option Mark
  | .text content => some (.literal (String.ofList content))
  | .tag _ => some (.tag span)
  | .comment _ => none
  | .change _ _ => none

end Stretch

/-- A stretch that shows. -/
structure Shown where
  /-- The bytes that it takes up. -/
  span : Span
  /-- What the walk over the tokens meets in its place. -/
  mark : Mark
  /-- Its text, with the delimiters in effect if it is a tag. -/
  text : List Char

/-- The stretches that show, when the first of all starts at the offset. -/
def Stretch.shown : Delimiters → Nat → List Stretch → List Shown
  | _, _, [] => []
  | d, offset, s :: ss =>
    let span : Span := ⟨offset, offset + byteSize (s.write d)⟩
    ((s.mark? span).map fun mark => ⟨span, mark, s.write d⟩).toList ++
      shown (s.delimitersAfter d) span.stop ss

mutual

/-- The spans that a token records, at any depth. -/
def Token.spans : Token → List Span
  | .text _ => []
  | .interpolation i => [i.tag]
  | .call c => [c.tag, c.content]
  | .block b children => b.opening.tag :: b.content :: b.closing :: Token.spansOf children

/-- The spans that tokens record. -/
def Token.spansOf : List Token → List Span
  | [] => []
  | t :: ts => Token.spans t ++ Token.spansOf ts

end

/-- A block sits in a template: its body is the text between its tags, and all that its children
record stands in there. -/
structure Block.Sits (source : List Char) (b : Block) (children : List Token) : Prop where
  content : b.content = ⟨b.opening.tag.stop, b.closing.start⟩
  ordered : b.opening.tag.stop ≤ b.closing.start
  body : b.content.Covers source b.body.toList
  children : ∀ span ∈ Token.spansOf children,
    b.content.start ≤ span.start ∧ span.start ≤ span.stop ∧ span.stop ≤ b.content.stop

/-- Tokens keep all of a template that is written as the stretches. -/
structure Lossless (source : List Char) (d : Delimiters) (tokens : List Token)
    (stretches : List Stretch) : Prop where
  /-- The template is the stretches one behind the other. -/
  written : source = Stretch.writeAll d stretches
  fits : Stretch.AllFit [] d stretches
  /-- The walk over the tokens meets the stretches that show, in order. -/
  marks : Token.marksOf tokens = (Stretch.shown d 0 stretches).map Shown.mark
  /-- What shows takes up some bytes, and comes behind all that was shown before. -/
  ordered : (∀ p ∈ Stretch.shown d 0 stretches, p.span.start < p.span.stop) ∧
    (Stretch.shown d 0 stretches).Pairwise fun p q => p.span.stop ≤ q.span.start
  /-- What shows stands in the template where it is said to, and the walk gives its text. -/
  located : ∀ p ∈ Stretch.shown d 0 stretches,
    p.span.Covers source p.text ∧ p.mark.content source = p.text
  /-- Without comments and changes of delimiters what shows is all of the template. -/
  complete : (∀ s ∈ stretches, s.isShown = true) →
    (Token.marksOf tokens).flatMap (Mark.content source) = source
  blocks : ∀ b children, HasBlock tokens b children → b.Sits source children

/-! ### What shows of stretches -/

namespace Stretch

/-- Stretches that fit take up some bytes if they show. -/
theorem size_pos_of_fits {d : Delimiters} {following : List Char} {s : Stretch}
    (h : s.Fits d following) (hshown : s.isShown = true) : 0 < byteSize (s.write d) := by
  have hpos : ∀ {cs : List Char}, cs ≠ [] → 0 < byteSize cs := by
    intro cs hne
    have := offset_lt_of_ne_nil hne 0
    omega
  cases s with
  | text content => exact hpos h.1
  | tag inside => exact hpos h.1
  | _ => simp [isShown] at hshown

/-- Only what shows has a mark. -/
theorem isShown_of_mark? {s : Stretch} {span : Span} {mark : Mark}
    (h : s.mark? span = some mark) : s.isShown = true := by
  cases s with
  | text content => rfl
  | tag inside => rfl
  | _ => simp [mark?] at h

/-- A stretch that shows is the first of what shows, or it shows later. -/
theorem mem_shown_cons {d : Delimiters} {offset : Nat} {s : Stretch} {ss : List Stretch}
    {p : Shown} (h : p ∈ shown d offset (s :: ss)) :
    (∃ mark, s.mark? ⟨offset, offset + byteSize (s.write d)⟩ = some mark ∧
      p = ⟨⟨offset, offset + byteSize (s.write d)⟩, mark, s.write d⟩) ∨
      p ∈ shown (s.delimitersAfter d) (offset + byteSize (s.write d)) ss := by
  rw [shown] at h
  rcases List.mem_append.1 h with hhere | hlater
  · -- The first stretch gives one mark at most.
    obtain ⟨mark, hmark, rfl⟩ := Option.map_eq_some_iff.1 (Option.mem_toList.1 hhere)
    exact .inl ⟨mark, hmark, rfl⟩
  · exact .inr hlater

/-- What shows starts at or behind the offset and takes up some bytes. -/
theorem bounds_of_mem_shown {following : List Char} {d : Delimiters} {offset : Nat}
    {ss : List Stretch} (h : AllFit following d ss) {p : Shown}
    (hp : p ∈ shown d offset ss) : offset ≤ p.span.start ∧ p.span.start < p.span.stop := by
  induction ss generalizing d offset with
  | nil => simp [shown] at hp
  | cons s ss ih =>
    rcases mem_shown_cons hp with ⟨mark, hmark, rfl⟩ | hlater
    · have hpos := size_pos_of_fits h.1 (isShown_of_mark? hmark)
      simp only
      omega
    · have := ih h.2 hlater
      omega

/-- What shows comes behind all that was shown before. -/
theorem pairwise_shown {following : List Char} {d : Delimiters} {ss : List Stretch}
    (h : AllFit following d ss) (offset : Nat) :
    (shown d offset ss).Pairwise fun p q => p.span.stop ≤ q.span.start := by
  induction ss generalizing d offset with
  | nil => exact List.Pairwise.nil
  | cons s ss ih =>
    rw [shown, List.pairwise_append]
    refine ⟨?_, ih h.2 _, ?_⟩
    · cases s.mark? ⟨offset, offset + byteSize (s.write d)⟩ with
      | none => exact List.Pairwise.nil
      | some mark => exact List.pairwise_singleton _ _
    -- Whatever comes later starts where this stretch ends.
    · intro p hp q hq
      obtain ⟨mark, _, rfl⟩ := Option.map_eq_some_iff.1 (Option.mem_toList.1 hp)
      exact (bounds_of_mem_shown h.2 hq).1

/-- The walk gives the text of a stretch from where that takes up the bytes. -/
theorem content_of_mark? {s : Stretch} {span : Span} {mark : Mark} {d : Delimiters}
    {source : List Char} (h : s.mark? span = some mark) (hcovers : span.Covers source (s.write d)) :
    mark.content source = s.write d := by
  cases s with
  | text content =>
    rw [← Option.some.inj h]
    exact String.toList_ofList
  | tag inside =>
    rw [← Option.some.inj h]
    exact slice_of_covers hcovers
  | _ => simp [mark?] at h

/-- What shows stands in the written text where it is said to. -/
theorem covers_of_mem_shown {lead following : List Char} {d : Delimiters} {ss : List Stretch}
    {p : Shown} (hp : p ∈ shown d (byteSize lead) ss) :
    p.span.Covers (lead ++ writeAll d ss ++ following) p.text ∧
      p.mark.content (lead ++ writeAll d ss ++ following) = p.text := by
  induction ss generalizing d lead with
  | nil => simp [shown] at hp
  | cons s ss ih =>
    rcases mem_shown_cons hp with ⟨mark, hmark, rfl⟩ | hlater
    -- The first stretch stands behind the lead.
    · have hcovers : Span.Covers ⟨byteSize lead, byteSize lead + byteSize (s.write d)⟩
          (lead ++ writeAll d (s :: ss) ++ following) (s.write d) :=
        ⟨lead, writeAll (s.delimitersAfter d) ss ++ following, by simp [writeAll], rfl⟩
      exact ⟨hcovers, content_of_mark? hmark hcovers⟩
    -- For the others it belongs to the lead.
    · rw [← byteSize_append] at hlater
      have := ih hlater
      rwa [List.append_assoc lead, ← writeAll] at this

/-- Without comments and changes of delimiters what shows makes up the written text. -/
theorem flatMap_shown {d : Delimiters} {offset : Nat} {ss : List Stretch}
    (h : ∀ s ∈ ss, s.isShown = true) : (shown d offset ss).flatMap Shown.text = writeAll d ss := by
  induction ss generalizing d offset with
  | nil => rfl
  | cons s ss ih =>
    have hlater : (shown (s.delimitersAfter d) (offset + byteSize (s.write d)) ss).flatMap
        Shown.text = writeAll (s.delimitersAfter d) ss :=
      ih fun s hs => h s (List.mem_cons_of_mem _ hs)
    rw [shown, List.flatMap_append, hlater, writeAll]
    cases s with
    | text content => simp [mark?]
    | tag inside => simp [mark?]
    | comment inside => simp [isShown] at h
    | change inside next => simp [isShown] at h

end Stretch

/-! ### From pieces to stretches -/

/-- What the walk over the tokens meets in the place of a piece. -/
def Event.mark? : Event → Option Mark
  | .token (.text s) => some (.literal s)
  | .token (.interpolation i) => some (.tag i.tag)
  | .token (.call c) => some (.tag c.tag)
  | .token (.block _ _) => none
  | .enter opening => some (.tag opening.tag)
  | .leave _ tag => some (.tag tag)
  | .change _ => none
  | .skip => none

/-- A hidden event has no mark. -/
theorem Event.mark?_of_hidden {event : Event} (h : event.isHidden = true) :
    event.mark? = none := by
  cases event with
  | change d => rfl
  | skip => rfl
  | _ => simp [isHidden] at h

/-- The walk over the tokens meets the pieces in order. -/
theorem Nests.filterMap_mark? {pieces : List Piece} {tokens : List Token}
    (h : Nests pieces tokens)
    (hplain : ∀ piece ∈ pieces, ∀ b children, piece.event ≠ .token (.block b children)) :
    pieces.filterMap (·.event.mark?) = Token.marksOf tokens := by
  induction h with
  | nil => rfl
  | @token piece t pieces tokens hevent _ ih =>
    -- The first token is that of the first piece, and a block is never given as one.
    have hrest := ih fun piece hpiece => hplain piece (List.mem_cons_of_mem _ hpiece)
    rw [List.filterMap_cons, hrest, hevent, Token.marksOf]
    cases t with
    | block b children => exact absurd hevent (hplain piece (by simp) b children)
    | _ => rfl
  | @hidden piece pieces tokens hevent _ ih =>
    rw [List.filterMap_cons, Event.mark?_of_hidden hevent]
    exact ih fun piece hpiece => hplain piece (List.mem_cons_of_mem _ hpiece)
  | @block opens closes b inner pieces children tokens tags _ _ ihInside ihRest =>
    have hinside := ihInside fun piece hpiece => hplain piece (by simp [hpiece])
    have hrest := ihRest fun piece hpiece => hplain piece (by simp [hpiece])
    rw [List.filterMap_append, List.filterMap_cons, List.filterMap_cons, tags.enter, tags.leave,
      hinside, hrest, Token.marksOf, Token.marks]
    simp [Event.mark?]

/-- An event that shows is met as the span of its tag. -/
theorem Event.ShowsAt.mark? {site : Site} {next : Cursor} {event : Event}
    (h : event.ShowsAt site next) : event.mark? = some (.tag (site.spanTo next)) := by
  cases h <;> rfl

/-- A tag that shows does not change the delimiters. -/
theorem Event.ShowsAt.delimitersAfter {site : Site} {next : Cursor} {event : Event}
    (h : event.ShowsAt site next) (d : Delimiters) : event.delimitersAfter d = d := by
  cases h <;> rfl

/-- A stretch stands for a piece that starts at a place. -/
structure Stretch.StandsFor (s : Stretch) (c : Cursor) (piece : Piece) : Prop where
  rest : c.rest = s.write piece.delimiters ++ piece.stop.rest
  offset : piece.stop.offset = c.offset + byteSize (s.write piece.delimiters)
  fits : s.Fits piece.delimiters piece.stop.rest
  delimiters : s.delimitersAfter piece.delimiters =
    piece.event.delimitersAfter piece.delimiters
  mark : s.mark? ⟨c.offset, piece.stop.offset⟩ = piece.event.mark?

/-- The stretch of a tag takes up its delimiters and what is between them. -/
theorem Site.Ends.written {source : List Char} {c behind next : Cursor} {d : Delimiters}
    {inside : List Char} (h : (⟨source, c.offset, behind, d⟩ : Site).Ends inside next)
    (hrest : c.rest = d.opening.toList ++ behind.rest)
    (hoffset : behind.offset = c.offset + byteSize d.opening.toList) :
    c.rest = d.opening.toList ++ inside ++ d.closing.toList ++ next.rest ∧
      next.offset = c.offset + byteSize (d.opening.toList ++ inside ++ d.closing.toList) := by
  have hbehind := h.rest
  have hnext := h.offset
  simp only [Site.closing, byteSize_append] at hbehind hnext
  constructor
  · rw [hrest, hbehind]
    simp only [List.append_assoc]
  · rw [hnext, hoffset]
    simp only [byteSize_append]
    omega

/-- A piece that takes up some text is a stretch. -/
theorem Piece.Takes.exists_stretch {additions : List Addition} {source : List Char} {c : Cursor}
    {piece : Piece}
    (h : piece.Takes (.withHelpers additions) source c) (hlt : c.offset < piece.stop.offset) :
    ∃ s : Stretch, s.StandsFor c piece := by
  cases h with
  -- No opening delimiter stands inside a literal text.
  | text text hevent hne hrest hoffset hwhole =>
    have hfree : ¬ piece.delimiters.opening.toList <:+: text := by
      rcases hwhole with ⟨hfree, _⟩ | ⟨hfirst, _⟩
      · exact hfree
      · exact hfirst.not_isInfix hne
    exact ⟨.text text, hrest, hoffset, ⟨hne, hfree⟩, by rw [hevent]; rfl, by rw [hevent]; rfl⟩
  | tag behind hrest hoffset hread =>
    have hreads := reads_of_recognize hread
    generalize hevent : piece.event = event at hreads
    cases hreads with
    | comment inside hmark hends hfirst =>
      obtain ⟨hwritten, hsize⟩ := hends.written hrest hoffset
      refine ⟨.comment inside, hwritten, hsize, ⟨hfirst, ?_⟩, by rw [hevent]; rfl,
        by rw [hevent]; rfl⟩
      rw [← hmark, hends.rest]
      rfl
    | change inside d hends hfirst hwords =>
      obtain ⟨hwritten, hsize⟩ := hends.written hrest hoffset
      exact ⟨.change inside d, hwritten, hsize, ⟨hfirst, hwords⟩, by rw [hevent]; rfl,
        by rw [hevent]; rfl⟩
    | shown inside _ hnoComment hnoChange hends hshows =>
      obtain ⟨hwritten, hsize⟩ := hends.written hrest hoffset
      have hbehind := hends.rest
      simp only [Site.closing] at hbehind
      simp only [hbehind] at hnoComment hnoChange
      -- A tag takes up text, and it has neither of the two marks.
      refine ⟨.tag inside, hwritten, hsize, ⟨?_, hnoComment, hnoChange⟩, ?_, ?_⟩
      · intro hnil
        rw [hnil, byteSize_nil] at hsize
        omega
      · rw [hevent, hshows.delimitersAfter]
        rfl
      · rw [hevent, hshows.mark?]
        rfl

/-- Pieces that follow each other are stretches one behind the other. -/
theorem Tiled.exists_stretches {additions : List Addition} {source : List Char} {d : Delimiters}
    {c stop : Cursor} {pieces : List Piece}
    (h : Tiled (.withHelpers additions) source d c pieces stop) :
    ∃ ss, c.rest = Stretch.writeAll d ss ++ stop.rest ∧ Stretch.AllFit stop.rest d ss ∧
      (Stretch.shown d c.offset ss).map Shown.mark = pieces.filterMap (·.event.mark?) := by
  induction pieces generalizing d c with
  | nil =>
    obtain rfl : c = stop := h
    exact ⟨[], rfl, trivial, rfl⟩
  | cons piece pieces ih =>
    obtain ⟨_, rfl, htakes, hlt, hrest⟩ := h
    obtain ⟨s, hs⟩ := htakes.exists_stretch hlt
    rw [← hs.delimiters] at hrest
    obtain ⟨ss, hwritten, hfit, hshown⟩ := ih hrest
    have hfits := hs.fits
    rw [hwritten] at hfits
    refine ⟨s :: ss, ?_, ⟨hfits, hfit⟩, ?_⟩
    · rw [hs.rest, hwritten, Stretch.writeAll, List.append_assoc]
    · rw [Stretch.shown, List.map_append, ← hs.offset, hs.mark, hshown, List.filterMap_cons]
      cases piece.event.mark? <;> rfl

/-! ### What blocks record -/

/-- The spans of a tag that gives a token stand in the bytes that it takes up. -/
theorem Piece.Takes.spans_within {additions : List Addition} {source : List Char} {c : Cursor}
    {piece : Piece} {t : Token}
    (h : piece.Takes (.withHelpers additions) source c) (hlt : c.offset < piece.stop.offset)
    (hevent : piece.event = .token t) :
    ∀ span ∈ t.spans,
      c.offset ≤ span.start ∧ span.start ≤ span.stop ∧ span.stop ≤ piece.stop.offset := by
  cases h with
  | text text htext _ _ _ _ =>
    rw [hevent] at htext
    obtain rfl := Event.token.inj htext
    simp [Token.spans]
  | tag behind _ hoffset hread =>
    have hreads := reads_of_recognize hread
    rw [hevent] at hreads
    cases hreads with
    | shown _ _ _ _ _ hshows =>
      cases hshows with
      | interpolation path escaped =>
        simp only [Token.spans, List.mem_singleton, forall_eq, Site.spanTo]
        omega
      | call name args content hstart horder hstop =>
        simp only [Token.spans, List.mem_cons, List.not_mem_nil, or_false, forall_eq_or_imp,
          forall_eq, Site.spanTo]
        simp only at hstart
        omega

/-- The spans that tokens record stand in the text of their pieces. -/
theorem Nests.spans_within {pieces : List Piece} {tokens : List Token}
    (h : Nests pieces tokens) {additions : List Addition} {source : List Char} {d : Delimiters}
    {c stop : Cursor}
    (htiled : Tiled (.withHelpers additions) source d c pieces stop) :
    ∀ span ∈ Token.spansOf tokens,
      c.offset ≤ span.start ∧ span.start ≤ span.stop ∧ span.stop ≤ stop.offset := by
  induction h generalizing d c stop with
  | nil => simp [Token.spansOf]
  | @token piece t pieces tokens hevent _ ih =>
    obtain ⟨_, _, htakes, hlt, hrest⟩ := htiled
    have hstop := hrest.bounds.1
    intro span hspan
    rcases List.mem_append.1 hspan with hhere | hlater
    · have := htakes.spans_within hlt hevent span hhere
      omega
    · have := ih hrest span hlater
      omega
  | hidden _ _ ih =>
    obtain ⟨_, _, _, hlt, hrest⟩ := htiled
    intro span hspan
    have := ih hrest span hspan
    omega
  | block tags _ _ ihInside ihRest =>
    -- The children stand between the tags, and the rest behind the close tag.
    obtain ⟨shut, hb, hafter⟩ := htiled.between tags
    have hinner := hb.inside.bounds.1
    have hstop := hafter.bounds.1
    have hopens := hb.openingLt
    have hcloses := hb.closingLt
    intro span hspan
    rw [Token.spansOf, Token.spans] at hspan
    rcases List.mem_append.1 hspan with hhere | hlater
    · rcases List.mem_cons.1 hhere with rfl | hhere
      · rw [hb.opening]
        simp only
        omega
      rcases List.mem_cons.1 hhere with rfl | hhere
      · rw [Block.content, hb.opening, hb.closing]
        simp only
        omega
      rcases List.mem_cons.1 hhere with rfl | hhere
      · rw [hb.closing]
        simp only
        omega
      · have := ihInside hb.inside span hhere
        omega
    · have := ihRest hafter span hlater
      omega

/-- A block sits in the template that it lies in. -/
theorem Block.Between.sits {additions : List Addition} {source lead : List Char}
    {d : Delimiters} {c shut : Cursor} {b : Block} {opens closes : Piece} {inner : List Piece}
    {children : List Token}
    (h : b.Between (.withHelpers additions) source d c opens inner shut closes)
    (tags : opens.Enclose b closes)
    (hlead : source = lead ++ c.rest) (hoffset : c.offset = byteSize lead)
    (hinner : Nests inner children) : b.Sits source children := by
  obtain ⟨hrest, hshut⟩ := h.body tags
  obtain ⟨taken, htaken, hopens⟩ := h.enters
  have hcontent : b.content = ⟨opens.stop.offset, shut.offset⟩ := by
    rw [Block.content, h.opening, h.closing]
  constructor
  · rfl
  · rw [h.opening, h.closing]
    exact h.inside.bounds.1
  · have hstart : opens.stop.offset = byteSize (lead ++ taken) := by
      rw [hopens, hoffset, byteSize_append]
    refine ⟨lead ++ taken, shut.rest, ?_, ?_⟩
    · rw [hlead, htaken, hrest]
      simp only [List.append_assoc]
    · rw [hcontent, hshut, hstart]
  · rw [hcontent]
    exact hinner.spans_within h.inside

/-- A block of a parsed template sits in it. -/
theorem Nests.sits {additions : List Addition} {pieces : List Piece}
    {tokens children : List Token} {b : Block} {source : List Char} {d : Delimiters}
    {stop : Cursor} (h : Nests pieces tokens)
    (htiled : Tiled (.withHelpers additions) source d (.atStart source) pieces stop)
    (hb : HasBlock tokens b children) : b.Sits source children := by
  obtain ⟨before, opens, inner, closes, after, rfl, tags, hinner⟩ :=
    h.exists_of_hasBlock htiled.ne_block hb
  obtain ⟨mid, hbefore, hblock⟩ := tiled_append_iff.1 htiled
  obtain ⟨lead, hlead, hoffset⟩ := hbefore.reaches
  obtain ⟨shut, hbetween, _⟩ := hblock.between tags
  refine hbetween.sits tags hlead ?_ hinner
  rw [hoffset]
  simp [Cursor.atStart]

/-! ### The whole template -/

/-- A template that can be parsed by an engine with helpers is written as stretches of which the
tokens keep all but comments and changes of delimiters, whatever delimiters it starts with. -/
theorem exists_lossless {additions : List Addition} {source : String} {d : Delimiters}
    {tokens : List Token} (h : (Pipeline.withHelpers additions).parse source d = .ok tokens) :
    ∃ stretches, Lossless source.toList d tokens stretches := by
  obtain ⟨pieces, hscan, hnests⟩ := Pipeline.parse_eq_ok_iff.1 h
  have htiled := tiled_of_scan hscan
  obtain ⟨ss, hwritten, hfit, hshown⟩ := htiled.exists_stretches
  have hsource : source.toList = Stretch.writeAll d ss := by
    rw [← List.append_nil (Stretch.writeAll d ss)]
    exact hwritten
  have hmarks : Token.marksOf tokens = (Stretch.shown d 0 ss).map Shown.mark := by
    rw [← hnests.filterMap_mark? htiled.ne_block, ← hshown]
    rfl
  have hlocated : ∀ p ∈ Stretch.shown d 0 ss,
      p.span.Covers source.toList p.text ∧ p.mark.content source.toList = p.text := by
    intro p hp
    have hwhole : [] ++ Stretch.writeAll d ss ++ [] = source.toList := by
      rw [List.nil_append, List.append_nil, hsource]
    rw [← hwhole]
    exact Stretch.covers_of_mem_shown hp
  have hcomplete : (∀ s ∈ ss, s.isShown = true) →
      (Token.marksOf tokens).flatMap (Mark.content source.toList) = source.toList := by
    intro hss
    -- Each mark stands for the text of what shows.
    have htexts : (Token.marksOf tokens).flatMap (Mark.content source.toList) =
        (Stretch.shown d 0 ss).flatMap Shown.text := by
      rw [hmarks, List.flatMap_map]
      rw [List.flatMap_def, List.flatMap_def, List.map_congr_left fun p hp => (hlocated p hp).2]
    rw [htexts, Stretch.flatMap_shown hss, hsource]
  exact ⟨ss, {
    written := hsource
    fits := hfit
    marks := hmarks
    ordered := ⟨fun p hp => (Stretch.bounds_of_mem_shown hfit hp).2,
      Stretch.pairwise_shown hfit 0⟩
    located := hlocated
    complete := hcomplete
    blocks := fun b children hb => hnests.sits htiled hb }⟩

/-- Of a text, a comment, a change of delimiters and a block with a call of a helper in it, the
tree shows the first and the last. -/
theorem exists_lossless_of_hidden_tags :
    ∃ stretches, Lossless
      "a\x7b\x7b!c\x7d\x7d\x7b\x7b=<% %>=\x7d\x7d<%#always%>b<%always%><%/always%>".toList
      .standard
      [.text "a", .block ⟨⟨.helper, "always", [], ⟨18, 29⟩⟩, ⟨40, 51⟩, "b<%always%>", ⟨"<%", "%>"⟩⟩
        [.text "b", .call ⟨"always", [], ⟨30, 40⟩, ⟨32, 38⟩⟩]] stretches := by
  have hparse : (Pipeline.withHelpers [.inline .always, .sections .always]).parse
      "a\x7b\x7b!c\x7d\x7d\x7b\x7b=<% %>=\x7d\x7d<%#always%>b<%always%><%/always%>"
      .standard = .ok [.text "a", .block
        ⟨⟨.helper, "always", [], ⟨18, 29⟩⟩, ⟨40, 51⟩, "b<%always%>", ⟨"<%", "%>"⟩⟩
        [.text "b", .call ⟨"always", [], ⟨30, 40⟩, ⟨32, 38⟩⟩]] :=
    Pipeline.parse_of_parseWithin (n := 6) rfl
  exact exists_lossless hparse

end Stencil
