import Stencil.Proofs.Template.Nests
import Stencil.Proofs.Template.TagMeaning

/-!
# `Stencil.Proofs.Template.Moved`: a part of a template moved to the front

The body of a block is a text with something before it and something behind it. Seen from there
a place lies some bytes further on and has more text behind it: `Cursor.embed` is the place in the
template for a place in the body. `raise` is what that does to the spans of tokens.

`Tiled.lower` takes the pieces of a part out of a template, as long as tags stand between words, and
`Nests.lower` the tokens that they nest into. What stands around the part plays no role in either.
-/

set_option autoImplicit false

namespace Stencil

open Text

/-! ### Spans further on -/

/-- The span that lies `n` bytes further on. -/
def Span.raise (n : Nat) (span : Span) : Span :=
  ⟨span.start + n, span.stop + n⟩

/-- The open tag that lies `n` bytes further on. -/
def OpenTag.raise (n : Nat) (opening : OpenTag) : OpenTag :=
  { opening with tag := opening.tag.raise n }

/-- The block whose tags lie `n` bytes further on. -/
def Block.raise (n : Nat) (b : Block) : Block :=
  { b with opening := b.opening.raise n, closing := b.closing.raise n }

mutual

/-- The token that lies `n` bytes further on. -/
def Token.raise (n : Nat) : Token → Token
  | .text s => .text s
  | .interpolation i => .interpolation { i with tag := i.tag.raise n }
  | .call c => .call { c with tag := c.tag.raise n, content := c.content.raise n }
  | .block b children => .block (b.raise n) (Token.raiseAll n children)

/-- The tokens that lie `n` bytes further on. -/
def Token.raiseAll (n : Nat) : List Token → List Token
  | [] => []
  | t :: ts => Token.raise n t :: Token.raiseAll n ts

end

/-- The event of a tag that lies `n` bytes further on. -/
def Event.raise (n : Nat) : Event → Event
  | .token t => .token (t.raise n)
  | .enter opening => .enter (opening.raise n)
  | .leave name tag => .leave name (tag.raise n)
  | .change d => .change d
  | .skip => .skip

namespace Event

variable {n : Nat} {event : Event}

/-- A tag changes the delimiters wherever it lies. -/
theorem delimitersAfter_raise (d : Delimiters) :
    (event.raise n).delimitersAfter d = event.delimitersAfter d := by
  cases event <;> rfl

/-- What does not show does not show further on either. -/
theorem isHidden_raise : (event.raise n).isHidden = event.isHidden := by
  cases event <;> rfl

/-- A token further on is that of a token here. -/
theorem exists_of_raise_eq_token {t : Token} (h : event.raise n = .token t) :
    ∃ t', event = .token t' ∧ t = t'.raise n := by
  cases event with
  | token t' => exact ⟨t', rfl, (Event.token.inj h).symm⟩
  | _ => simp [raise] at h

/-- An open tag further on is that of an open tag here. -/
theorem exists_of_raise_eq_enter {opening : OpenTag} (h : event.raise n = .enter opening) :
    ∃ opening', event = .enter opening' ∧ opening = opening'.raise n := by
  cases event with
  | enter opening' => exact ⟨opening', rfl, (Event.enter.inj h).symm⟩
  | _ => simp [raise] at h

/-- A close tag further on is that of a close tag here, of the same name. -/
theorem exists_of_raise_eq_leave {name : String} {tag : Span}
    (h : event.raise n = .leave name tag) :
    ∃ tag', event = .leave name tag' ∧ tag = tag'.raise n := by
  cases event with
  | leave name' tag' =>
    obtain ⟨rfl, rfl⟩ := Event.leave.inj h
    exact ⟨tag', rfl, rfl⟩
  | _ => simp [raise] at h

end Event

/-! ### Places in a part -/

/-- The place in a template for a place in a part of it that starts at the offset `n` and has
`tail` behind it. -/
def Cursor.embed (n : Nat) (tail : List Char) (c : Cursor) : Cursor :=
  ⟨c.offset + n, c.rest ++ tail⟩

/-- The site in a template for a site in a part of it. -/
def Site.embed (source : List Char) (n : Nat) (tail : List Char) (site : Site) : Site :=
  ⟨source, site.start + n, site.cursor.embed n tail, site.delimiters⟩

/-- The piece of a template for a piece of a part of it. -/
def Piece.embed (n : Nat) (tail : List Char) (piece : Piece) : Piece :=
  ⟨piece.event.raise n, piece.start + n, piece.stop.embed n tail, piece.delimiters⟩

section Part

variable {source body tail inside : List Char} {n : Nat} {c e stop : Cursor}

/-- Different places of a part are different ones of the template. -/
theorem Cursor.embed_inj (h : c.embed n tail = e.embed n tail) : c = e := by
  obtain ⟨hoffset, hrest⟩ := Cursor.mk.inj h
  obtain ⟨offset, rest⟩ := c
  obtain ⟨offset', rest'⟩ := e
  obtain rfl : offset = offset' := Nat.add_right_cancel hoffset
  obtain rfl : rest = rest' := List.append_cancel_right hrest
  rfl

/-- A place between two places of a part is one of the part. -/
theorem Cursor.exists_embed (h : (c.embed n tail).Reaches e)
    (hstop : e.Reaches (stop.embed n tail)) :
    ∃ e' : Cursor, e = e'.embed n tail ∧ c.Reaches e' := by
  obtain ⟨taken, hrest, hoffset⟩ := h
  obtain ⟨more, hmore, _⟩ := hstop
  refine ⟨⟨c.offset + byteSize taken, more ++ stop.rest⟩, ?_, taken, ?_, rfl⟩
  · obtain ⟨offset, rest⟩ := e
    simp only [embed] at hmore hoffset ⊢
    rw [hmore, hoffset, List.append_assoc, Nat.add_right_comm]
  · simp only [embed] at hmore hrest
    rw [hmore, ← List.append_assoc, ← List.append_assoc] at hrest
    rw [List.append_cancel_right hrest, List.append_assoc]

/-! ### Tags of a part -/

variable {sections inlines : List Registry} {site : Site} {next : Cursor} {event : Event}

/-- What a content says further on it says here. -/
theorem Sigil.Says.lower {g : Sigil} {content : List Char} {offset : Nat} {tag : Span}
    {helper? : Option Helper}
    (h : g.Says content (offset + n) (tag.raise n) helper? event) :
    ∃ event', g.Says content offset tag helper? event' ∧ event = event'.raise n := by
  cases h with
  -- A name is the same wherever it stands; only the spans move.
  | name hne =>
    refine ⟨_, .name hne, ?_⟩
    cases g <;> rfl
  | call helper args hargs =>
    refine ⟨_, .call helper args hargs, ?_⟩
    have hspan :
        helper.callSpan (offset + n) content = (helper.callSpan offset content).raise n := by
      simp only [Helper.callSpan, Span.raise, Nat.add_right_comm]
    rw [hspan]
    cases g <;> rfl

/-- What a tag says in the template it says in the part. -/
theorem Site.Says.lower
    (h : (site.embed source n tail).Says sections inlines (next.embed n tail) inside event) :
    ∃ event', site.Says sections inlines next inside event' ∧ event = event'.raise n := by
  cases h with
  | comment _ hmark hfirst => exact ⟨.skip, .comment inside hmark hfirst, rfl⟩
  | change inside d hfirst hwords => exact ⟨.change d, .change inside d hfirst hwords, rfl⟩
  | braces content hfirst hne => exact ⟨_, .braces content hfirst hne, rfl⟩
  | sigil g content _ hmark hfirst hsays =>
    have hoffset : (site.embed source n tail).cursor.offset + byteSize g.chars =
        site.cursor.offset + byteSize g.chars + n := Nat.add_right_comm _ _ _
    have htag : (site.embed source n tail).spanTo (next.embed n tail) =
        (site.spanTo next).raise n := rfl
    rw [hoffset, htag] at hsays
    obtain ⟨event', hsays', hevent⟩ := hsays.lower
    exact ⟨event', .sigil g content event' hmark hfirst hsays', hevent⟩

/-- A tag that ends in the template where it ends in the part. -/
theorem Site.Ends.lower (h : (site.embed source n tail).Ends inside (next.embed n tail)) :
    site.Ends inside next := by
  obtain ⟨hrest, hoffset⟩ := h
  simp only [embed, Cursor.embed, closing] at hrest hoffset
  constructor
  · rw [← List.append_assoc] at hrest
    exact List.append_cancel_right hrest
  · rw [closing]
    omega

/-- A tag that is taken in the template is taken in the part. -/
theorem exists_recognize_of_embed (hclosing : IsWord site.closing)
    (h : recognize (recognizersWith sections inlines) (site.embed source n tail) =
      .ok (event, next.embed n tail)) :
    ∃ event', recognize (recognizersWith sections inlines) site = .ok (event', next) ∧
      event = event'.raise n := by
  have hclosing' : IsWord (site.embed source n tail).closing := hclosing
  obtain ⟨inside, hends, hsays⟩ := (recognize_eq_ok_iff hclosing').1 h
  obtain ⟨event', hsays', hevent⟩ := hsays.lower
  exact ⟨event', (recognize_eq_ok_iff hclosing).2 ⟨inside, hends.lower, hsays'⟩, hevent⟩

/-! ### Pieces of a part -/

/-- Where an opening delimiter stands, a piece is a tag. -/
theorem Piece.Takes.exists_behind {p : Pipeline} {piece : Piece} (h : piece.Takes p source c)
    (hopens : piece.delimiters.opening.toList <+: c.rest) :
    ∃ behind : Cursor, c.rest = piece.delimiters.opening.toList ++ behind.rest ∧
      behind.Reaches piece.stop := by
  cases h with
  | text text _ hne hrest _ hwhole =>
    -- A literal text would end in front of the delimiter.
    obtain ⟨more, hmore⟩ := hopens
    rcases hwhole with ⟨hfree, hend⟩ | ⟨hfirst, behind, hbehind⟩
    · rw [hend, List.append_nil] at hrest
      exact absurd ⟨[], more, by rw [← hrest]; exact hmore⟩ hfree
    · have hsplit : [] ++ piece.delimiters.opening.toList ++ more =
          text ++ piece.delimiters.opening.toList ++ behind := by
        rw [List.nil_append, hmore, hrest, ← hbehind, List.append_assoc]
      exact absurd ((StartsFirst.nil _).unique hfirst hsplit).1.symm hne
  | tag behind hrest _ hread => exact ⟨behind, hrest, reaches_of_recognize hread⟩

/-- A text that all of a template stands behind, up to a tag or to the end of the part, is such a
text of the part. -/
theorem whole_of_embed {p : Pipeline} {d : Delimiters} {text : List Char} {pieces : List Piece}
    (hne : text ≠ [])
    (hwhole : (¬ d.opening.toList <:+: text ∧ (e.embed n tail).rest = []) ∨
      (StartsFirst d.opening.toList text ∧ d.opening.toList <+: (e.embed n tail).rest))
    (h : Tiled p source d (e.embed n tail) pieces (stop.embed n tail)) (hstop : stop.rest = []) :
    (¬ d.opening.toList <:+: text ∧ e.rest = []) ∨
      (StartsFirst d.opening.toList text ∧ d.opening.toList <+: e.rest) := by
  rcases hwhole with ⟨hfree, hend⟩ | ⟨hfirst, hopens⟩
  · exact .inl ⟨hfree, (List.append_eq_nil_iff.1 hend).1⟩
  · cases pieces with
    | nil =>
      -- The text is the last piece of the part.
      obtain rfl : e = stop := Cursor.embed_inj h
      exact .inl ⟨hfirst.not_isInfix hne, hstop⟩
    | cons piece pieces =>
      obtain ⟨_, rfl, htakes, _, hrest⟩ := h
      obtain ⟨behind, hbehind, hreaches⟩ := htakes.exists_behind hopens
      obtain ⟨taken, htaken, _⟩ := hreaches.trans hrest.reaches
      refine .inr ⟨hfirst, taken ++ stop.rest, ?_⟩
      have hall :
          e.rest ++ tail = piece.delimiters.opening.toList ++ (taken ++ (stop.rest ++ tail)) :=
        hbehind.trans (by rw [htaken]; rfl)
      simp only [← List.append_assoc] at hall ⊢
      exact (List.append_cancel_right hall).symm

/-- The pieces of a part of a template are pieces of the part by itself. -/
theorem Tiled.lower {additions : List Addition} {d : Delimiters} {pieces : List Piece}
    (hd : d.Proper) (hstop : stop.rest = [])
    (h : Tiled (.withHelpers additions) source d (c.embed n tail) pieces (stop.embed n tail)) :
    ∃ pieces', pieces = pieces'.map (Piece.embed n tail) ∧
      Tiled (.withHelpers additions) body d c pieces' stop := by
  induction pieces generalizing d c with
  | nil =>
    obtain rfl : c = stop := Cursor.embed_inj h
    exact ⟨[], rfl, rfl⟩
  | cons piece pieces ih =>
    obtain ⟨event, start, place, d'⟩ := piece
    obtain ⟨rfl, rfl, htakes, hlt, hrest⟩ := h
    obtain ⟨next, rfl, hnext⟩ := Cursor.exists_embed htakes.reaches hrest.reaches
    have hlt' : c.offset < next.offset := by
      simp only [Cursor.embed] at hlt
      omega
    cases htakes with
    -- A text ends in front of a tag or at the end of the part.
    | text text hevent hne htext hoffset hwhole =>
      obtain rfl : event = .token (.text (String.ofList text)) := hevent
      obtain ⟨pieces', rfl, htiled⟩ := ih hd hrest
      refine ⟨⟨.token (.text (String.ofList text)), c.offset, next, d'⟩ :: pieces', rfl, rfl, rfl,
        ?_, hlt', htiled⟩
      simp only [Cursor.embed] at htext hoffset
      refine .text text rfl hne ?_ ?_ (whole_of_embed hne hwhole hrest hstop)
      · rw [← List.append_assoc] at htext
        exact List.append_cancel_right htext
      · simp only
        omega
    -- A tag is read alike, since it ends inside the part.
    | tag behind htag hoffset hread =>
      simp only at htag hoffset hread
      have hbehind : (c.embed n tail).Reaches behind := ⟨_, htag, hoffset⟩
      obtain ⟨behind, rfl, _⟩ := Cursor.exists_embed hbehind
        ((reaches_of_recognize hread).trans hrest.reaches)
      have hproper := proper_delimitersAfter hd hread
      have hsite : (⟨source, (c.embed n tail).offset, behind.embed n tail, d'⟩ : Site) =
          Site.embed source n tail ⟨body, c.offset, behind, d'⟩ := rfl
      rw [hsite, Pipeline.withHelpers, Settings.recognizers_withHelpers] at hread
      have hclosing : IsWord (⟨body, c.offset, behind, d'⟩ : Site).closing := hd.closing
      obtain ⟨event', hread', rfl⟩ := exists_recognize_of_embed hclosing hread
      rw [Event.delimitersAfter_raise] at hrest hproper
      obtain ⟨pieces', rfl, htiled⟩ := ih hproper hrest
      refine ⟨⟨event', c.offset, next, d'⟩ :: pieces', rfl, rfl, rfl, ?_, hlt', htiled⟩
      simp only [Cursor.embed] at htag hoffset
      refine .tag behind ?_ ?_ ?_
      · rw [← List.append_assoc] at htag
        exact List.append_cancel_right htag
      · simp only
        omega
      · rw [Pipeline.withHelpers, Settings.recognizers_withHelpers]
        exact hread'

/-! ### Tokens of a part -/

/-- A block of the template whose tags are in the part is a block of the part. -/
theorem Piece.Enclose.lower {additions : List Addition} {d : Delimiters} {b : Block}
    {opens closes : Piece} {inner after : List Piece}
    (h : (opens.embed n tail).Enclose b (closes.embed n tail))
    (htiled : Tiled (.withHelpers additions) body d c (opens :: inner ++ closes :: after) stop) :
    ∃ b' : Block, opens.Enclose b' closes ∧ b = b'.raise n := by
  obtain ⟨opening, hopens, hopening⟩ := Event.exists_of_raise_eq_enter h.enter
  obtain ⟨tag, hcloses, htag⟩ := Event.exists_of_raise_eq_leave h.leave
  rw [hopening] at hcloses
  have htags := OpenBlock.enclose_closed hopens hcloses []
  refine ⟨_, htags, ?_⟩
  obtain ⟨shut, hbetween, _⟩ := htiled.between htags
  obtain ⟨hrest, hoffset⟩ := hbetween.body htags
  have hshut : tag.start = shut.offset := congrArg Span.start hbetween.closing
  -- The body is as long in the template, and nothing behind the part belongs to it.
  have hbody :
      b.body = (OpenBlock.closed ⟨opening, opens.stop, []⟩ tag closes.delimiters).body := by
    have hsize : b.closing.start - (opens.embed n tail).stop.offset = byteSize
        (OpenBlock.closed ⟨opening, opens.stop, []⟩ tag closes.delimiters).body.toList := by
      rw [htag]
      simp only [Span.raise, Piece.embed, Cursor.embed]
      omega
    rw [h.body, hsize]
    simp only [Piece.embed, Cursor.embed]
    rw [hrest, List.append_assoc, takeBytes_byteSize_append, String.ofList_toList]
  obtain ⟨bOpening, bClosing, bBody, bDelimiters⟩ := b
  simp only at hopening htag hbody
  have hdelimiters : bDelimiters = closes.delimiters := h.delimiters
  rw [hopening, htag, hbody, hdelimiters]
  rfl

/-- The tokens that pieces of a part nest into in a template are those of the part by itself. -/
theorem Nests.lower {additions : List Addition} {d : Delimiters} {pieces pieces' : List Piece}
    {tokens : List Token} (h : Nests pieces tokens)
    (hpieces : pieces'.map (Piece.embed n tail) = pieces)
    (htiled : Tiled (.withHelpers additions) body d c pieces' stop) :
    ∃ tokens', tokens = Token.raiseAll n tokens' ∧ Nests pieces' tokens' := by
  induction h generalizing pieces' d c stop with
  | nil =>
    obtain rfl := List.map_eq_nil_iff.1 hpieces
    exact ⟨[], rfl, .nil⟩
  | token hevent _ ih =>
    obtain ⟨piece', rest', rfl, rfl, hrest'⟩ := List.map_eq_cons_iff.1 hpieces
    obtain ⟨_, _, _, _, htiled⟩ := htiled
    obtain ⟨t', ht', rfl⟩ := Event.exists_of_raise_eq_token hevent
    obtain ⟨tokens', rfl, hnests⟩ := ih hrest' htiled
    exact ⟨t' :: tokens', rfl, .token ht' hnests⟩
  | hidden hevent _ ih =>
    obtain ⟨piece', rest', rfl, rfl, hrest'⟩ := List.map_eq_cons_iff.1 hpieces
    obtain ⟨_, _, _, _, htiled⟩ := htiled
    obtain ⟨tokens', rfl, hnests⟩ := ih hrest' htiled
    exact ⟨tokens', rfl, .hidden (Event.isHidden_raise ▸ hevent) hnests⟩
  | block tags _ _ ihInside ihRest =>
    rw [List.cons_append] at hpieces
    obtain ⟨opens', rest', rfl, rfl, hrest'⟩ := List.map_eq_cons_iff.1 hpieces
    obtain ⟨inner', rest'', rfl, hinner', hrest''⟩ := List.map_eq_append_iff.1 hrest'
    obtain ⟨closes', after', rfl, rfl, hafter'⟩ := List.map_eq_cons_iff.1 hrest''
    -- The tags of a block and what is between them all lie in the part.
    obtain ⟨b', htags', rfl⟩ := tags.lower htiled
    obtain ⟨shut, hbetween, hafter⟩ := htiled.between htags'
    obtain ⟨children', rfl, hinside⟩ := ihInside hinner' hbetween.inside
    obtain ⟨tokens', rfl, hnests⟩ := ihRest hafter' hafter
    exact ⟨.block b' children' :: tokens', rfl, .block htags' hinside hnests⟩

end Part

end Stencil
