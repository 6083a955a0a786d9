import Stencil.Proofs.Template.Pieces
import Stencil.Template.Parse

/-!
# `Stencil.Proofs.Template.Nests`: pieces nested into tokens

`Nests pieces tokens` is the grammar of a parsed template: the open and close tags among the
pieces match like brackets, by name, and the tokens of a block are those of the pieces between its
tags. `ofPieces_eq_ok_iff` says that the stack of open blocks which a parse keeps decides exactly
this, and `Pipeline.parse_eq_ok_iff` that a parse succeeds when the scan does and its pieces nest.

`HasBlock` finds a block at any depth of some tokens, `Occurs` a token of any kind.
`Nests.exists_of_hasBlock` finds the tags of a block and what stands between them among the pieces,
and `Tiled.between` says where these lie in the template.
-/

set_option autoImplicit false

namespace Stencil

open Text

/-- An event that gives no token and opens or closes no block. -/
def Event.isHidden : Event → Bool
  | .change _ => true
  | .skip => true
  | _ => false

/-- The open and the close tag of a block. -/
structure Piece.Enclose (opens : Piece) (b : Block) (closes : Piece) : Prop where
  enter : opens.event = .enter b.opening
  leave : closes.event = .leave b.opening.name b.closing
  body : b.body =
    String.ofList (takeBytes (b.closing.start - opens.stop.offset) opens.stop.rest)
  delimiters : b.delimiters = closes.delimiters

/-- The pieces nest into the tokens. -/
inductive Nests : List Piece → List Token → Prop where
  | nil : Nests [] []
  | token {piece : Piece} {t : Token} {pieces : List Piece} {tokens : List Token}
    (event : piece.event = .token t) (rest : Nests pieces tokens) :
    Nests (piece :: pieces) (t :: tokens)
  | hidden {piece : Piece} {pieces : List Piece} {tokens : List Token}
    (event : piece.event.isHidden = true) (rest : Nests pieces tokens) :
    Nests (piece :: pieces) tokens
  | block {opens closes : Piece} {b : Block} {inner pieces : List Piece}
    {children tokens : List Token} (tags : opens.Enclose b closes)
    (inside : Nests inner children) (rest : Nests pieces tokens) :
    Nests (opens :: inner ++ closes :: pieces) (.block b children :: tokens)

/-- Pieces one behind the other nest into tokens one behind the other. -/
theorem Nests.append {pieces pieces' : List Piece} {tokens tokens' : List Token}
    (h : Nests pieces tokens) (h' : Nests pieces' tokens') :
    Nests (pieces ++ pieces') (tokens ++ tokens') := by
  induction h with
  | nil => exact h'
  | token hevent _ ih => exact .token hevent ih
  | hidden hevent _ ih => exact .hidden hevent ih
  | block tags inside _ _ ih =>
    rw [List.append_assoc, List.cons_append]
    exact .block tags inside ih

/-- A block with its children, at any depth of some tokens. -/
inductive HasBlock : List Token → Block → List Token → Prop where
  | here {tokens children : List Token} {b : Block} (mem : .block b children ∈ tokens) :
    HasBlock tokens b children
  | inside {tokens around children : List Token} {outer b : Block}
    (mem : .block outer around ∈ tokens) (within : HasBlock around b children) :
    HasBlock tokens b children

/-- A token at any depth of some tokens. -/
inductive Occurs (t : Token) : List Token → Prop where
  | here {tokens : List Token} (mem : t ∈ tokens) : Occurs t tokens
  | inside {tokens children : List Token} {b : Block} (mem : .block b children ∈ tokens)
    (within : Occurs t children) : Occurs t tokens

/-- Nothing occurs among no tokens. -/
theorem occurs_nil {t : Token} : ¬ Occurs t [] := by
  intro h
  cases h with
  | here mem => exact absurd mem List.not_mem_nil
  | inside mem _ => exact absurd mem List.not_mem_nil

/-- A token occurs if it is the first one, inside that, or among the others. -/
theorem occurs_cons {t first : Token} {tokens : List Token} :
    Occurs t (first :: tokens) ↔
      t = first ∨ (∃ b children, first = .block b children ∧ Occurs t children) ∨
        Occurs t tokens := by
  constructor
  · intro h
    cases h with
    | here mem =>
      rcases List.mem_cons.1 mem with rfl | mem
      · exact .inl rfl
      · exact .inr (.inr (.here mem))
    | inside mem within =>
      rcases List.mem_cons.1 mem with rfl | mem
      · exact .inr (.inl ⟨_, _, rfl, within⟩)
      · exact .inr (.inr (.inside mem within))
  · rintro (rfl | ⟨b, children, rfl, within⟩ | h)
    · exact .here (List.mem_cons_self ..)
    · exact .inside (List.mem_cons_self ..) within
    · cases h with
      | here mem => exact .here (List.mem_cons_of_mem _ mem)
      | inside mem within => exact .inside (List.mem_cons_of_mem _ mem) within

/-- The block that a close tag makes of an open one. -/
def OpenBlock.closed (top : OpenBlock) (tag : Span) (d : Delimiters) : Block :=
  ⟨top.opening, tag,
    String.ofList (takeBytes (tag.start - top.inside.offset) top.inside.rest), d⟩

/-- An open tag and a close tag of its name enclose what they make of each other. -/
theorem OpenBlock.enclose_closed {opens closes : Piece} {opening : OpenTag} {tag : Span}
    (hopens : opens.event = .enter opening) (hcloses : closes.event = .leave opening.name tag)
    (before : List Token) :
    opens.Enclose (closed ⟨opening, opens.stop, before⟩ tag closes.delimiters) closes where
  enter := hopens
  leave := hcloses
  body := rfl
  delimiters := rfl

/-- A block is what its close tag makes of its open tag. -/
theorem Piece.Enclose.closed_eq {opens closes : Piece} {b : Block} (h : opens.Enclose b closes)
    (before : List Token) :
    OpenBlock.closed ⟨b.opening, opens.stop, before⟩ b.closing closes.delimiters = b := by
  rw [OpenBlock.closed, ← h.body, ← h.delimiters]

namespace Nesting

/-! ### One piece more -/

/-- A token is put behind those of the innermost block. -/
theorem add_of_token {piece : Piece} {t : Token} (h : piece.event = .token t) (n : Nesting) :
    n.add piece = .ok ⟨t :: n.tokens, n.stack⟩ := by
  rw [add, h]

/-- What does not show adds nothing. -/
theorem add_of_hidden {piece : Piece} (h : piece.event.isHidden = true) (n : Nesting) :
    n.add piece = .ok n := by
  cases hevent : piece.event with
  | change d => rw [add, hevent]
  | skip => rw [add, hevent]
  | _ => simp [hevent, Event.isHidden] at h

/-- An open tag starts a block without tokens, around which the others wait. -/
theorem add_of_enter {piece : Piece} {opening : OpenTag} (h : piece.event = .enter opening)
    (n : Nesting) : n.add piece = .ok ⟨[], ⟨opening, piece.stop, n.tokens⟩ :: n.stack⟩ := by
  rw [add, h]

/-- The close tag of the innermost open block puts the block behind the tokens before it. -/
theorem add_of_leave {opens closes : Piece} {b : Block} (h : opens.Enclose b closes)
    (tokens before : List Token) (stack : List OpenBlock) :
    add ⟨tokens, ⟨b.opening, opens.stop, before⟩ :: stack⟩ closes =
      .ok ⟨.block b tokens.reverse :: before, stack⟩ := by
  have hclosed := h.closed_eq before
  rw [OpenBlock.closed] at hclosed
  rw [add, h.leave]
  simp only [close, if_true]
  rw [hclosed]

/-- Pieces that nest add their tokens to the innermost open block. -/
theorem foldlM_add_of_nests {pieces : List Piece} {tokens : List Token}
    (h : Nests pieces tokens) (n : Nesting) :
    pieces.foldlM add n = .ok ⟨tokens.reverse ++ n.tokens, n.stack⟩ := by
  induction h generalizing n with
  | nil => rfl
  | token hevent _ ih =>
    rw [List.foldlM_cons, add_of_token hevent]
    show List.foldlM add _ _ = _
    rw [ih]
    simp
  | hidden hevent _ ih =>
    rw [List.foldlM_cons, add_of_hidden hevent]
    exact ih n
  -- The children are collected apart, and then the block stands for them.
  | block tags _ _ ihInside ihRest =>
    rw [List.cons_append, List.foldlM_cons, add_of_enter tags.enter]
    show List.foldlM add _ _ = _
    rw [List.foldlM_append, ihInside]
    show List.foldlM add _ _ = _
    rw [List.append_nil, List.foldlM_cons, add_of_leave tags]
    show List.foldlM add _ _ = _
    rw [ihRest]
    simp

/-! ### From the stack to the grammar -/

/-- The ways in which one more piece is added. -/
theorem add_cases {n m : Nesting} {piece : Piece} (h : n.add piece = .ok m) :
    (∃ t, piece.event = .token t ∧ m = ⟨t :: n.tokens, n.stack⟩) ∨
    (piece.event.isHidden = true ∧ m = n) ∨
    (∃ opening, piece.event = .enter opening ∧
      m = ⟨[], ⟨opening, piece.stop, n.tokens⟩ :: n.stack⟩) ∨
    (∃ top stack tag, n.stack = top :: stack ∧ piece.event = .leave top.opening.name tag ∧
      m = ⟨.block (top.closed tag piece.delimiters) n.tokens.reverse :: top.before, stack⟩) := by
  unfold add at h
  split at h
  · rename_i t hevent
    exact .inl ⟨t, hevent, (Except.ok.inj h).symm⟩
  · rename_i opening hevent
    exact .inr (.inr (.inl ⟨opening, hevent, (Except.ok.inj h).symm⟩))
  · rename_i name tag hevent
    unfold close at h
    split at h
    · simp at h
    · rename_i top stack hstack
      -- The name has to be that of the innermost open block.
      split at h
      · rename_i hname
        subst hname
        exact .inr (.inr (.inr ⟨top, stack, tag, hstack, hevent, (Except.ok.inj h).symm⟩))
      · simp at h
  · rename_i d hevent
    exact .inr (.inl ⟨by rw [hevent]; rfl, (Except.ok.inj h).symm⟩)
  · rename_i hevent
    exact .inr (.inl ⟨by rw [hevent]; rfl, (Except.ok.inj h).symm⟩)

/-- If every open block is closed in the end, then the innermost one is closed by the first piece
that the pieces before it, nested, leave to it. -/
theorem exists_close {pieces : List Piece} {tokens result : List Token} {top : OpenBlock}
    {stack : List OpenBlock}
    (h : pieces.foldlM add ⟨tokens, top :: stack⟩ = .ok ⟨result, []⟩) :
    ∃ inner children closes tag rest, pieces = inner ++ closes :: rest ∧ Nests inner children ∧
      closes.event = .leave top.opening.name tag ∧
      rest.foldlM add ⟨.block (top.closed tag closes.delimiters) (tokens.reverse ++ children) ::
        top.before, stack⟩ = .ok ⟨result, []⟩ := by
  -- By induction on the number of pieces: an inner block takes several of them at once.
  generalize hlength : pieces.length = length
  induction length using Nat.strongRecOn generalizing pieces tokens top stack with
  | ind length ih =>
    subst hlength
    cases pieces with
    | nil =>
      have := congrArg Nesting.stack (Except.ok.inj h)
      simp at this
    | cons piece pieces =>
      rw [List.foldlM_cons] at h
      obtain ⟨n, hadd, h⟩ := exists_ok_of_bind h
      rcases add_cases hadd with ⟨t, hevent, rfl⟩ | ⟨hevent, rfl⟩ | ⟨opening, hevent, rfl⟩ |
        ⟨top', stack', tag, hstack, hevent, rfl⟩
      · obtain ⟨inner, children, closes, tag, rest, rfl, hnests, hleave, hrest⟩ :=
          ih pieces.length (by simp) h rfl
        refine ⟨piece :: inner, t :: children, closes, tag, rest, rfl, .token hevent hnests,
          hleave, ?_⟩
        rw [← hrest, List.reverse_cons, List.append_assoc]
        rfl
      · obtain ⟨inner, children, closes, tag, rest, rfl, hnests, hleave, hrest⟩ :=
          ih pieces.length (by simp) h rfl
        exact ⟨piece :: inner, children, closes, tag, rest, rfl, .hidden hevent hnests, hleave,
          hrest⟩
      · -- The block that starts here is closed first, then the one around it.
        obtain ⟨inner, children, closes, tag, rest, rfl, hnests, hleave, hrest⟩ :=
          ih pieces.length (by simp) h rfl
        obtain ⟨inner', children', closes', tag', rest', rfl, hnests', hleave', hrest'⟩ :=
          ih rest.length (by simp only [List.length_cons, List.length_append]; omega) hrest rfl
        have htags := OpenBlock.enclose_closed hevent hleave tokens
        have hblock := Nests.block htags hnests hnests'
        refine ⟨_, _, closes', tag', rest', ?_, hblock, hleave', ?_⟩
        · simp
        · rw [← hrest', List.reverse_cons, List.append_assoc]
          rfl
      · simp only [List.cons.injEq] at hstack
        obtain ⟨rfl, rfl⟩ := hstack
        refine ⟨[], [], piece, tag, pieces, rfl, .nil, hevent, ?_⟩
        rw [List.append_nil]
        exact h

/-- Pieces that open and close all their blocks nest. -/
theorem exists_nests {pieces : List Piece} {tokens result : List Token}
    (h : pieces.foldlM add ⟨tokens, []⟩ = .ok ⟨result, []⟩) :
    ∃ added, Nests pieces added ∧ result = added.reverse ++ tokens := by
  -- Here, too, an inner block takes several pieces at once.
  generalize hlength : pieces.length = length
  induction length using Nat.strongRecOn generalizing pieces tokens with
  | ind length ih =>
    subst hlength
    cases pieces with
    | nil =>
      have := congrArg Nesting.tokens (Except.ok.inj h)
      exact ⟨[], .nil, this.symm⟩
    | cons piece pieces =>
      rw [List.foldlM_cons] at h
      obtain ⟨n, hadd, h⟩ := exists_ok_of_bind h
      rcases add_cases hadd with ⟨t, hevent, rfl⟩ | ⟨hevent, rfl⟩ | ⟨opening, hevent, rfl⟩ |
        ⟨top, stack, tag, hstack, _, _⟩
      · obtain ⟨added, hnests, rfl⟩ := ih pieces.length (by simp) h rfl
        exact ⟨t :: added, .token hevent hnests, by simp⟩
      · obtain ⟨added, hnests, rfl⟩ := ih pieces.length (by simp) h rfl
        exact ⟨added, .hidden hevent hnests, rfl⟩
      · obtain ⟨inner, children, closes, tag, rest, rfl, hnests, hleave, hrest⟩ :=
          exists_close h
        obtain ⟨added, hadded, rfl⟩ :=
          ih rest.length (by simp only [List.length_cons, List.length_append]; omega) hrest rfl
        have htags := OpenBlock.enclose_closed hevent hleave tokens
        exact ⟨_, .block htags hnests hadded, by simp⟩
      · simp at hstack

/-- The stack of open blocks decides whether pieces nest. -/
theorem ofPieces_eq_ok_iff {pieces : List Piece} {failure : Option ParseError}
    {tokens : List Token} :
    ofPieces pieces failure = .ok tokens ↔ failure = none ∧ Nests pieces tokens := by
  constructor
  · intro h
    obtain ⟨n, hfold, h⟩ := exists_ok_of_bind h
    cases failure with
    | some e => simp at h
    | none =>
      simp only [finish] at h
      -- Nothing is left open exactly if the stack is empty in the end.
      split at h
      · rename_i hstack
        obtain ⟨tokens', stack⟩ := n
        obtain rfl : stack = [] := hstack
        obtain ⟨added, hnests, rfl⟩ := exists_nests hfold
        have htokens := Except.ok.inj h
        simp only [List.append_nil, List.reverse_reverse] at htokens
        exact ⟨rfl, htokens ▸ hnests⟩
      · simp at h
  · rintro ⟨rfl, hnests⟩
    rw [ofPieces, foldlM_add_of_nests hnests]
    simp [bind, Except.bind, finish, start]

end Nesting

/-- A parse succeeds when the scan does and its pieces nest. -/
theorem Pipeline.parse_eq_ok_iff {p : Pipeline} {source : String} {d : Delimiters}
    {tokens : List Token} :
    p.parse source d = .ok tokens ↔
      ∃ pieces, p.scan source.toList ⟨.atStart source.toList, d⟩ = (pieces, none) ∧
        Nests pieces tokens := by
  rw [Pipeline.parse]
  generalize p.scan source.toList ⟨.atStart source.toList, d⟩ = result
  obtain ⟨pieces, failure⟩ := result
  simp only [Nesting.ofPieces_eq_ok_iff, Prod.mk.injEq]
  constructor
  · rintro ⟨rfl, hnests⟩
    exact ⟨pieces, ⟨rfl, rfl⟩, hnests⟩
  · rintro ⟨_, ⟨rfl, rfl⟩, hnests⟩
    exact ⟨rfl, hnests⟩

/-- The tokens of a template, if no more than `n` steps of a scan are needed. -/
def Pipeline.parseWithin (p : Pipeline) (n : Nat) (source : String) (d : Delimiters) :
    Option (List Token) :=
  (p.scanWithin source.toList n ⟨.atStart source.toList, d⟩).bind fun pieces =>
    (Nesting.ofPieces pieces none).toOption

/-- A parse can be evaluated step by step. -/
theorem Pipeline.parse_of_parseWithin {p : Pipeline} {n : Nat} {source : String} {d : Delimiters}
    {tokens : List Token} (h : p.parseWithin n source d = some tokens) :
    p.parse source d = .ok tokens := by
  obtain ⟨pieces, hscan, hnest⟩ := Option.bind_eq_some_iff.1 h
  rw [Pipeline.parse, Pipeline.scan_of_scanWithin hscan]
  show Nesting.ofPieces pieces none = .ok tokens
  cases hn : Nesting.ofPieces pieces none with
  | error e => simp [hn, Except.toOption] at hnest
  | ok found =>
    rw [hn] at hnest
    exact congrArg Except.ok (Option.some.inj hnest)

/-- A parse fails with the first tag, if that cannot be read. -/
theorem Pipeline.parse_of_fail {p : Pipeline} {source : String} {d : Delimiters}
    {text : List Char} {e : ParseError}
    (h : p.step source.toList ⟨.atStart source.toList, d⟩ = .fail text e) :
    p.parse source d = .error e := by
  rw [Pipeline.parse, Pipeline.scan_of_fail h]
  show Nesting.ofPieces (Scanner.textPieces _ text) (some e) = .error e
  -- The text in front of the tag is at most one piece, and it opens no block.
  unfold Scanner.textPieces
  split <;> rfl

/-! ### Blocks at any depth -/

/-- A block among the tokens themselves stands between its tags. -/
theorem Nests.exists_of_mem {pieces : List Piece} {tokens children : List Token} {b : Block}
    (h : Nests pieces tokens)
    (hplain : ∀ piece ∈ pieces, ∀ b children, piece.event ≠ .token (.block b children))
    (hmem : .block b children ∈ tokens) :
    ∃ before opens inner closes after, pieces = before ++ (opens :: inner ++ closes :: after) ∧
      opens.Enclose b closes ∧ Nests inner children := by
  induction h with
  | nil => simp at hmem
  | @token piece t pieces tokens hevent _ ih =>
    rcases List.mem_cons.1 hmem with rfl | hmem
    · exact absurd hevent (hplain piece (by simp) b children)
    · obtain ⟨before, opens, inner, closes, after, rfl, htags, hnests⟩ :=
        ih (fun piece hpiece => hplain piece (List.mem_cons_of_mem _ hpiece)) hmem
      exact ⟨piece :: before, opens, inner, closes, after, rfl, htags, hnests⟩
  | @hidden piece pieces tokens hevent _ ih =>
    obtain ⟨before, opens, inner, closes, after, rfl, htags, hnests⟩ :=
      ih (fun piece hpiece => hplain piece (List.mem_cons_of_mem _ hpiece)) hmem
    exact ⟨piece :: before, opens, inner, closes, after, rfl, htags, hnests⟩
  | @block opens closes b' inner pieces children' tokens tags inside _ _ ihRest =>
    rcases List.mem_cons.1 hmem with heq | hmem
    · obtain ⟨rfl, rfl⟩ := Token.block.inj heq
      exact ⟨[], opens, inner, closes, pieces, rfl, tags, inside⟩
    · obtain ⟨before, opens', inner', closes', after, rfl, htags, hnests⟩ :=
        ihRest (fun piece hpiece => hplain piece (by simp [hpiece])) hmem
      exact ⟨opens :: inner ++ closes :: before, opens', inner', closes', after, by simp, htags,
        hnests⟩

/-- A block at any depth stands between its tags. -/
theorem Nests.exists_of_hasBlock {pieces : List Piece} {tokens children : List Token} {b : Block}
    (h : Nests pieces tokens)
    (hplain : ∀ piece ∈ pieces, ∀ b children, piece.event ≠ .token (.block b children))
    (hb : HasBlock tokens b children) :
    ∃ before opens inner closes after, pieces = before ++ (opens :: inner ++ closes :: after) ∧
      opens.Enclose b closes ∧ Nests inner children := by
  induction hb generalizing pieces with
  | here hmem => exact h.exists_of_mem hplain hmem
  | inside hmem _ ih =>
    obtain ⟨before, opens, inner, closes, after, rfl, _, hnests⟩ := h.exists_of_mem hplain hmem
    obtain ⟨before', opens', inner', closes', after', rfl, htags, hnests'⟩ :=
      ih hnests fun piece hpiece => hplain piece (by simp [hpiece])
    exact ⟨before ++ opens :: before', opens', inner', closes', after' ++ closes :: after,
      by simp, htags, hnests'⟩

/-! ### Where a block lies -/

/-- The tags of a block and the pieces between them, in the text from one place to another. -/
structure Block.Between (p : Pipeline) (source : List Char) (d : Delimiters) (c : Cursor)
    (b : Block) (opens : Piece) (inner : List Piece) (shut : Cursor) (closes : Piece) : Prop where
  /-- The tags record the bytes that they take up. -/
  opening : b.opening.tag = ⟨c.offset, opens.stop.offset⟩
  closing : b.closing = ⟨shut.offset, closes.stop.offset⟩
  openingLt : c.offset < opens.stop.offset
  closingLt : shut.offset < closes.stop.offset
  enters : c.Reaches opens.stop
  inside : Tiled p source d opens.stop inner shut
  /-- The delimiters of the block are those that hold behind its body. -/
  delimiters : b.delimiters = delimitersAlong d inner
  leaves : closes.Takes p source shut

/-- A block lies between the places that its pieces take up. -/
theorem Tiled.between {additions : List Addition} {source : List Char} {d : Delimiters}
    {c stop : Cursor} {b : Block} {opens closes : Piece} {inner after : List Piece}
    (h : Tiled (.withHelpers additions) source d c (opens :: inner ++ closes :: after) stop)
    (tags : opens.Enclose b closes) :
    ∃ shut, b.Between (.withHelpers additions) source d c opens inner shut closes ∧
      Tiled (.withHelpers additions) source b.delimiters closes.stop after stop := by
  obtain ⟨_, _, hopens, hopensLt, h⟩ := h
  obtain ⟨shut, hinner, _, hdelimiters, hcloses, hclosesLt, hafter⟩ := tiled_append_iff.1 h
  -- Neither of the two tags changes the delimiters.
  have henter : opens.event.delimitersAfter d = d := by rw [tags.enter]; rfl
  have hleave : ∀ d', closes.event.delimitersAfter d' = d' := by
    intro d'
    rw [tags.leave]
    rfl
  rw [henter] at hinner hdelimiters hafter
  rw [hleave, ← hdelimiters, ← tags.delimiters] at hafter
  exact ⟨shut, {
    opening := hopens.tag_of_enter tags.enter
    closing := hcloses.tag_of_leave tags.leave
    openingLt := hopensLt
    closingLt := hclosesLt
    enters := hopens.reaches
    inside := hinner
    delimiters := tags.delimiters.trans hdelimiters
    leaves := hcloses }, hafter⟩

/-- The text of the body leads from the open tag of a block to its close tag. -/
theorem Block.Between.body {p : Pipeline} {source : List Char} {d : Delimiters}
    {c shut : Cursor} {b : Block} {opens closes : Piece} {inner : List Piece}
    (h : b.Between p source d c opens inner shut closes) (tags : opens.Enclose b closes) :
    opens.stop.rest = b.body.toList ++ shut.rest ∧
      shut.offset = opens.stop.offset + byteSize b.body.toList := by
  -- From the open to the close tag it is the bytes of the body.
  obtain ⟨taken, hrest, hoffset⟩ := h.inside.reaches
  have hsize : b.closing.start - opens.stop.offset = byteSize taken := by
    rw [h.closing]
    simp only
    omega
  have hbody : b.body.toList = taken := by
    rw [tags.body, hsize, hrest, takeBytes_byteSize_append, String.toList_ofList]
  rw [hbody]
  exact ⟨hrest, hoffset⟩

end Stencil
