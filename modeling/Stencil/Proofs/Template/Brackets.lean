import Stencil.Proofs.Template.Nests

/-!
# `Stencil.Proofs.Template.Brackets`: open and close tags as brackets

The recognizers read a template from one tag to the next. `Pipeline.Streams` is what comes of that:
the pieces up to the end of the template, or up to the first tag that cannot be read, and the error
of that tag. Nothing in it depends on the blocks that are open.

The open and close tags among the pieces are a word of brackets, and `Balanced` says when such a
word matches, name by name. `exists_nests_iff_balanced` says that just those pieces nest into tokens
whose brackets match. Where they do not, `LeavesOpen` tells which blocks are open behind some
pieces, and `Violation` what is wrong first: a close tag without an open block, a close tag for
another block than the innermost one, a tag that cannot be read, or a block that is open at the end.

`exists_stream` is the main fact: a parse succeeds exactly for a stream without a failure whose
brackets match, it gives the tokens that the pieces nest into, and it fails with the first violation
and with no other error.
-/

set_option autoImplicit false

namespace Stencil

open Text

/-! ### The stream of a template -/

/-- What the recognizers make of a template from a place on. A tag that cannot be read ends it. -/
inductive Pipeline.Streams (p : Pipeline) (source : List Char) :
    Scanner → List Piece → Option ParseError → Prop where
  /-- No tag follows. -/
  | finish {s : Scanner} {text : List Char} (last : p.step source s = .finish text) :
    Streams p source s (s.textPieces text) none
  /-- The next tag cannot be read. -/
  | fail {s : Scanner} {text : List Char} {e : ParseError}
    (unreadable : p.step source s = .fail text e) :
    Streams p source s (s.textPieces text) (some e)
  /-- A tag, and what follows behind it. -/
  | advance {s next : Scanner} {text : List Char} {start : Nat} {event : Event}
    {pieces : List Piece} {failure : Option ParseError}
    (tag : p.step source s = .advance text start event next)
    (behind : Streams p source next pieces failure) :
    Streams p source s (s.textPieces text ++ ⟨event, start, next.cursor, s.delimiters⟩ :: pieces)
      failure

/-- One delimiter at least is not empty. -/
def Delimiters.Visible (d : Delimiters) : Prop :=
  d.opening ≠ "" ∨ d.closing ≠ ""

/-- Some text stands between the offsets of a tag that has a delimiter. -/
theorem Delimiters.Visible.size_pos {d : Delimiters} (h : d.Visible) :
    0 < byteSize d.opening.toList + byteSize d.closing.toList := by
  have hpos : ∀ s : String, s ≠ "" → 0 < byteSize s.toList := by
    intro s hs
    have hne : s.toList ≠ [] := by simpa using hs
    have := offset_lt_of_ne_nil hne 0
    omega
  rcases h with hopening | hclosing
  · have := hpos _ hopening
    omega
  · have := hpos _ hclosing
    omega

/-- Proper delimiters can be seen. -/
theorem Delimiters.Proper.visible {d : Delimiters} (h : d.Proper) : d.Visible := by
  left
  intro hempty
  have hne := h.opening.1
  rw [hempty] at hne
  exact hne rfl

/-- A tag that is read ends with its closing delimiter, whatever it says. -/
theorem Site.Reads.exists_ends {site : Site} {next : Cursor} {event : Event}
    (h : site.Reads next event) : ∃ inside, site.Ends inside next := by
  cases h with
  | comment inside _ hends _ => exact ⟨inside, hends⟩
  | change inside _ hends _ _ => exact ⟨_, hends⟩
  | shown inside _ _ _ hends _ => exact ⟨inside, hends⟩

/-- Delimiters of which one can be seen are followed by such delimiters. -/
theorem Site.Reads.visible {site : Site} {next : Cursor} {event : Event}
    (h : site.Reads next event) {d : Delimiters} (hd : d.Visible) :
    (event.delimitersAfter d).Visible := by
  cases h with
  | comment => exact hd
  | change _ _ _ _ hwords => exact (Recognizer.proper_of_newDelimiters? hwords).visible
  | shown _ _ _ _ _ hshows =>
    cases hshows <;> exact hd

/-- With a delimiter that can be seen every step of a scan takes up some text. -/
theorem Pipeline.offset_lt_of_step {additions : List Addition} {source text : List Char}
    {s next : Scanner} {start : Nat} {event : Event} (hs : s.delimiters.Visible)
    (h : (Pipeline.withHelpers additions).step source s = .advance text start event next) :
    s.cursor.offset < next.cursor.offset ∧ next.delimiters.Visible := by
  -- A step that goes on has read a tag.
  obtain ⟨rest, _, hread, _, hdelimiters⟩ := step_eq_advance_iff.1 h
  have hreads := reads_of_recognize hread
  obtain ⟨inside, hends⟩ := hreads.exists_ends
  have hoffset := hends.offset
  have hsize := hs.size_pos
  constructor
  · -- Behind the text in front of the tag stand both delimiters, and one is not empty.
    simp only [Scanner.siteAfter, Site.closing, byteSize_append] at hoffset
    omega
  · rw [hdelimiters]
    exact hreads.visible hs

/-- A scan gives the stream of a template, so it never stops for a tag without text. -/
theorem Pipeline.streams_scan {additions : List Addition} {source : List Char} {s : Scanner}
    (hs : s.delimiters.Visible) :
    (Pipeline.withHelpers additions).Streams source s
      ((Pipeline.withHelpers additions).scan source s).1
      ((Pipeline.withHelpers additions).scan source s).2 := by
  fun_induction (Pipeline.withHelpers additions).scan source s with
  | case1 s text hstep => exact .finish hstep
  | case2 s text e hstep => exact .fail hstep
  | case3 s text start event next hstep hlt pieces failure hrest ih =>
    have hbehind := ih (offset_lt_of_step hs hstep).2
    rw [hrest] at hbehind
    exact .advance hstep hbehind
  | case4 s text start event next hstep hnot =>
    exact absurd (offset_lt_of_step hs hstep).1 hnot

/-! ### Words of brackets -/

/-- The tag that opens or closes a block, by the name of that. -/
inductive Bracket where
  | opens (name : String)
  | closes (name : String)
deriving DecidableEq, Repr

/-- Every close bracket has the name of the open one that it matches, and none is left over. -/
inductive Balanced : List Bracket → Prop where
  | nil : Balanced []
  | nest (name : String) {inner rest : List Bracket} (inside : Balanced inner)
    (behind : Balanced rest) : Balanced (.opens name :: inner ++ .closes name :: rest)

/-- Words that match do so one behind the other. -/
theorem Balanced.append {first second : List Bracket} (h : Balanced first)
    (k : Balanced second) : Balanced (first ++ second) := by
  induction h with
  | nil => exact k
  | nest name inside _ _ ih =>
    rw [List.append_assoc, List.cons_append]
    exact .nest name inside ih

/-- The bracket that an event is. -/
def Event.bracket? : Event → Option Bracket
  | .enter opening => some (.opens opening.name)
  | .leave name _ => some (.closes name)
  | _ => none

/-- The brackets among some pieces. -/
def brackets (pieces : List Piece) : List Bracket :=
  pieces.filterMap (·.event.bracket?)

/-- Brackets stand in the order of their pieces. -/
theorem brackets_append (first second : List Piece) :
    brackets (first ++ second) = brackets first ++ brackets second :=
  List.filterMap_append

/-- A piece that is no bracket adds none. -/
theorem brackets_cons_of_none {piece : Piece} (h : piece.event.bracket? = none)
    (pieces : List Piece) : brackets (piece :: pieces) = brackets pieces := by
  rw [brackets, List.filterMap_cons, h]
  rfl

/-- A piece that is a bracket comes first in its word. -/
theorem brackets_cons_of_some {piece : Piece} {b : Bracket} (h : piece.event.bracket? = some b)
    (pieces : List Piece) : brackets (piece :: pieces) = b :: brackets pieces := by
  rw [brackets, List.filterMap_cons, h]
  rfl

/-- What does not show is no bracket. -/
theorem Event.bracket?_of_hidden {event : Event} (h : event.isHidden = true) :
    event.bracket? = none := by
  cases event with
  | change d => rfl
  | skip => rfl
  | _ => simp [isHidden] at h

/-- Only open tags are open brackets. -/
theorem Event.eq_enter_of_bracket? {event : Event} {name : String}
    (h : event.bracket? = some (.opens name)) :
    ∃ opening : OpenTag, event = .enter opening ∧ opening.name = name := by
  cases event with
  | enter opening => exact ⟨opening, rfl, by simpa [bracket?] using h⟩
  | _ => simp [bracket?] at h

/-- Only close tags are close brackets. -/
theorem Event.eq_leave_of_bracket? {event : Event} {name : String}
    (h : event.bracket? = some (.closes name)) : ∃ tag, event = .leave name tag := by
  cases event with
  | leave name' tag =>
    obtain rfl : name' = name := by simpa [bracket?] using h
    exact ⟨tag, rfl⟩
  | _ => simp [bracket?] at h

/-! ### Brackets that match, and tokens -/

/-- The brackets of pieces that nest match. -/
theorem Nests.balanced {pieces : List Piece} {tokens : List Token} (h : Nests pieces tokens) :
    Balanced (brackets pieces) := by
  induction h with
  | nil => exact .nil
  | token hevent _ ih =>
    rw [brackets_cons_of_none (by rw [hevent]; rfl)]
    exact ih
  | hidden hevent _ ih =>
    rw [brackets_cons_of_none (Event.bracket?_of_hidden hevent)]
    exact ih
  | block tags _ _ ihInside ihRest =>
    rw [brackets_append, brackets_cons_of_some (by rw [tags.enter]; rfl),
      brackets_cons_of_some (by rw [tags.leave]; rfl)]
    exact .nest _ ihInside ihRest

/-- Pieces without brackets nest into their tokens. -/
theorem exists_nests_of_brackets_nil {pieces : List Piece} (h : brackets pieces = []) :
    ∃ tokens, Nests pieces tokens := by
  induction pieces with
  | nil => exact ⟨[], .nil⟩
  | cons piece pieces ih =>
    have hall := List.filterMap_eq_nil_iff.1 h
    have hpiece : piece.event.bracket? = none := hall piece (by simp)
    obtain ⟨tokens, htokens⟩ := ih (List.filterMap_eq_nil_iff.2 fun q hq => hall q (by simp [hq]))
    cases hevent : piece.event with
    | token t => exact ⟨t :: tokens, .token hevent htokens⟩
    | change d => exact ⟨tokens, .hidden (by rw [hevent]; rfl) htokens⟩
    | skip => exact ⟨tokens, .hidden (by rw [hevent]; rfl) htokens⟩
    | enter opening => simp [hevent, Event.bracket?] at hpiece
    | leave name tag => simp [hevent, Event.bracket?] at hpiece

/-- Pieces whose brackets match nest into tokens. -/
theorem Balanced.exists_nests {pieces : List Piece} (h : Balanced (brackets pieces)) :
    ∃ tokens, Nests pieces tokens := by
  generalize hword : brackets pieces = word at h
  induction h generalizing pieces with
  | nil => exact exists_nests_of_brackets_nil hword
  | nest name _ _ ihInside ihBehind =>
    -- The pieces are cut where the word is: in front of the open bracket stand no brackets.
    obtain ⟨front, back, rfl, hfront, hback⟩ := List.filterMap_eq_append_iff.1 hword
    obtain ⟨plain, opens, inner, rfl, hplain, hopens, hinner⟩ := List.filterMap_eq_cons_iff.1 hfront
    obtain ⟨before, closes, rest, rfl, hbefore, hcloses, hrest⟩ :=
      List.filterMap_eq_cons_iff.1 hback
    obtain ⟨opening, henter, rfl⟩ := Event.eq_enter_of_bracket? hopens
    obtain ⟨tag, hleave⟩ := Event.eq_leave_of_bracket? hcloses
    -- So `plain` only puts tokens in front of the block, and `before` at the end of its children.
    obtain ⟨lead, hlead⟩ := exists_nests_of_brackets_nil (List.filterMap_eq_nil_iff.2 hplain)
    obtain ⟨last, hlast⟩ := exists_nests_of_brackets_nil (List.filterMap_eq_nil_iff.2 hbefore)
    obtain ⟨children, hchildren⟩ := ihInside hinner
    obtain ⟨tokens, htokens⟩ := ihBehind hrest
    have htags := OpenBlock.enclose_closed henter hleave []
    have hblock := Nests.block htags (hchildren.append hlast) htokens
    have hall := hlead.append hblock
    simp only [List.cons_append, List.append_assoc] at hall ⊢
    exact ⟨_, hall⟩

/-- Pieces nest into tokens exactly when their brackets match. -/
theorem exists_nests_iff_balanced {pieces : List Piece} :
    (∃ tokens, Nests pieces tokens) ↔ Balanced (brackets pieces) := by
  constructor
  · rintro ⟨tokens, h⟩
    exact h.balanced
  · exact Balanced.exists_nests

/-! ### Blocks that are open -/

/-- The tags that have opened blocks and are not closed by the pieces, innermost first. -/
inductive LeavesOpen : List Piece → List OpenTag → Prop where
  | none {pieces : List Piece} (matching : Balanced (brackets pieces)) : LeavesOpen pieces []
  | some {around inner : List Piece} {opens : Piece} {opening : OpenTag} {open_ : List OpenTag}
    (outer : LeavesOpen around open_) (enter : opens.event = .enter opening)
    (matching : Balanced (brackets inner)) :
    LeavesOpen (around ++ opens :: inner) (opening :: open_)

/-- Pieces whose brackets match open and close nothing for those around them. -/
theorem LeavesOpen.append {pieces more : List Piece} {open_ : List OpenTag}
    (h : LeavesOpen pieces open_) (hmore : Balanced (brackets more)) :
    LeavesOpen (pieces ++ more) open_ := by
  cases h with
  | none hmatching =>
    refine .none ?_
    rw [brackets_append]
    exact hmatching.append hmore
  | some houter henter hmatching =>
    -- The word goes behind the innermost open tag, where what stands matches already.
    rw [List.append_assoc, List.cons_append]
    refine .some houter henter ?_
    rw [brackets_append]
    exact hmatching.append hmore

/-- A piece that is no bracket leaves the same blocks open. -/
theorem LeavesOpen.append_of_none {pieces : List Piece} {piece : Piece} {open_ : List OpenTag}
    (h : LeavesOpen pieces open_) (hpiece : piece.event.bracket? = .none) :
    LeavesOpen (pieces ++ [piece]) open_ := by
  refine h.append ?_
  rw [brackets_cons_of_none hpiece]
  exact .nil

/-- A close tag closes the innermost open block. -/
theorem LeavesOpen.close {pieces : List Piece} {piece : Piece} {opening : OpenTag}
    {open_ : List OpenTag} {tag : Span} (h : LeavesOpen pieces (opening :: open_))
    (hpiece : piece.event = .leave opening.name tag) : LeavesOpen (pieces ++ [piece]) open_ := by
  cases h with
  | some houter henter hmatching =>
    -- Open tag, inner word and close tag match together, so they go behind the outer blocks.
    rw [List.append_assoc]
    refine houter.append ?_
    rw [List.cons_append, brackets_cons_of_some (by rw [henter]; rfl), brackets_append,
      brackets_cons_of_some (by rw [hpiece]; rfl)]
    exact .nest opening.name hmatching .nil

namespace Nesting

/-- The open tags of the blocks that are open. -/
def openTags (n : Nesting) : List OpenTag :=
  n.stack.map (·.opening)

/-- A piece that is added opens and closes the blocks that it says. -/
theorem leavesOpen_of_add {n m : Nesting} {pieces : List Piece} {piece : Piece}
    (h : LeavesOpen pieces n.openTags) (hadd : n.add piece = .ok m) :
    LeavesOpen (pieces ++ [piece]) m.openTags := by
  rcases add_cases hadd with ⟨t, hevent, rfl⟩ | ⟨hevent, rfl⟩ | ⟨opening, hevent, rfl⟩ |
    ⟨top, stack, tag, hstack, hevent, rfl⟩
  · exact h.append_of_none (by rw [hevent]; rfl)
  · exact h.append_of_none (Event.bracket?_of_hidden hevent)
  · exact .some h hevent .nil
  · rw [openTags, hstack] at h
    exact h.close hevent

/-- The stack holds the blocks that are open behind the pieces added so far. -/
theorem leavesOpen_of_foldlM {n m : Nesting} {pieces more : List Piece}
    (h : LeavesOpen pieces n.openTags) (hfold : more.foldlM add n = .ok m) :
    LeavesOpen (pieces ++ more) m.openTags := by
  -- On the pieces still to be added, each of which goes behind those that were.
  induction more generalizing n pieces with
  | nil =>
    obtain rfl := Except.ok.inj hfold
    rw [List.append_nil]
    exact h
  | cons piece more ih =>
    rw [List.foldlM_cons] at hfold
    obtain ⟨mid, hadd, hfold⟩ := exists_ok_of_bind hfold
    have hmid := ih (leavesOpen_of_add h hadd) hfold
    rw [List.append_assoc] at hmid
    exact hmid

/-- The stack behind the first pieces of a template holds the blocks that they leave open. -/
theorem leavesOpen_of_start {pieces : List Piece} {n : Nesting}
    (h : pieces.foldlM add start = .ok n) : LeavesOpen pieces n.openTags := by
  have hnone : LeavesOpen [] start.openTags := .none .nil
  exact leavesOpen_of_foldlM hnone h

/-- Pieces that leave some blocks open can all be added. -/
theorem exists_foldlM_of_leavesOpen {pieces : List Piece} {open_ : List OpenTag}
    (h : LeavesOpen pieces open_) :
    ∃ n, pieces.foldlM add start = .ok n ∧ n.openTags = open_ := by
  induction h with
  | none hmatching =>
    obtain ⟨tokens, htokens⟩ := hmatching.exists_nests
    exact ⟨_, foldlM_add_of_nests htokens start, rfl⟩
  | @some around inner opens opening _ houter henter hmatching ih =>
    obtain ⟨n, hfold, rfl⟩ := ih
    obtain ⟨tokens, htokens⟩ := hmatching.exists_nests
    -- The tokens in front of the open tag wait in the stack, and those behind it are collected.
    refine ⟨⟨tokens.reverse ++ [], ⟨opening, opens.stop, n.tokens⟩ :: n.stack⟩, ?_, rfl⟩
    rw [List.foldlM_append, hfold]
    show List.foldlM add n (opens :: inner) = _
    rw [List.foldlM_cons, add_of_enter henter]
    exact foldlM_add_of_nests htokens _

/-- The ways in which a piece cannot be added. -/
theorem add_eq_error_iff {n : Nesting} {piece : Piece} {e : ParseError} :
    n.add piece = .error e ↔ ∃ name tag, piece.event = .leave name tag ∧
      ((n.openTags = [] ∧ e = .unopenedClose name tag.start) ∨
        ∃ opening open_, n.openTags = opening :: open_ ∧ name ≠ opening.name ∧
          e = .mismatchedClose name tag.start opening.name opening.tag.start) := by
  obtain ⟨tokens, stack⟩ := n
  constructor
  · intro h
    unfold add at h
    split at h
    · simp at h
    · simp at h
    · rename_i name tag hevent
      refine ⟨name, tag, hevent, ?_⟩
      cases stack with
      | nil =>
        obtain rfl := Except.error.inj h
        exact .inl ⟨rfl, rfl⟩
      -- Only a close tag can be at fault, and it is so if no block is open or another one is.
      | cons top stack =>
        by_cases hname : top.opening.name = name
        · simp [close, hname] at h
        · simp only [close, if_neg hname, Except.error.injEq] at h
          exact .inr ⟨top.opening, _, rfl, Ne.symm hname, h.symm⟩
    · simp at h
    · simp at h
  · rintro ⟨name, tag, hevent, hcases⟩
    rw [add, hevent]
    cases stack with
    | nil =>
      rcases hcases with ⟨_, rfl⟩ | ⟨opening, open_, hopen, _, _⟩
      · rfl
      · simp [openTags] at hopen
    | cons top stack =>
      rcases hcases with ⟨hopen, _⟩ | ⟨opening, open_, hopen, hname, rfl⟩
      · simp [openTags] at hopen
      · obtain ⟨rfl, _⟩ := List.cons.inj hopen
        simp only [close, if_neg (Ne.symm hname)]

/-- A piece that cannot be added comes behind pieces that can. -/
theorem exists_of_foldlM_eq_error {n : Nesting} {pieces : List Piece} {e : ParseError}
    (h : pieces.foldlM add n = .error e) : ∃ before piece after m,
      pieces = before ++ piece :: after ∧ before.foldlM add n = .ok m ∧ m.add piece = .error e := by
  induction pieces generalizing n with
  | nil => simp [pure, Except.pure] at h
  | cons piece pieces ih =>
    rw [List.foldlM_cons] at h
    cases hadd : n.add piece with
    -- The first piece is at fault, or it can be added and the fault comes later.
    | error e' =>
      rw [hadd] at h
      obtain rfl : e' = e := Except.error.inj h
      exact ⟨[], piece, pieces, n, rfl, rfl, hadd⟩
    | ok m =>
      rw [hadd] at h
      obtain ⟨before, other, after, m', rfl, hbefore, hother⟩ := ih h
      refine ⟨piece :: before, other, after, m', rfl, ?_, hother⟩
      rw [List.foldlM_cons, hadd]
      exact hbefore

end Nesting

/-! ### The first violation -/

/-- What is wrong first with the pieces of a template, and its error. Every case says which blocks
are open in front of the place, so nothing is wrong before it. -/
inductive Violation (pieces : List Piece) (failure : Option ParseError) : ParseError → Prop where
  /-- A close tag where no block is open. -/
  | unopened {before after : List Piece} {closes : Piece} {name : String} {tag : Span}
    (split : pieces = before ++ closes :: after) (around : LeavesOpen before [])
    (leave : closes.event = .leave name tag) :
    Violation pieces failure (.unopenedClose name tag.start)
  /-- A close tag that does not name the innermost open block. -/
  | mismatched {before after : List Piece} {closes : Piece} {name : String} {tag : Span}
    {innermost : OpenTag} {open_ : List OpenTag}
    (split : pieces = before ++ closes :: after) (around : LeavesOpen before (innermost :: open_))
    (leave : closes.event = .leave name tag) (differ : name ≠ innermost.name) :
    Violation pieces failure
      (.mismatchedClose name tag.start innermost.name innermost.tag.start)
  /-- A tag that cannot be read, behind close tags that all match. -/
  | unreadable {open_ : List OpenTag} {e : ParseError} (around : LeavesOpen pieces open_)
    (failed : failure = some e) : Violation pieces failure e
  /-- A block that is open at the end. -/
  | unclosed {innermost : OpenTag} {open_ : List OpenTag}
    (around : LeavesOpen pieces (innermost :: open_)) (whole : failure = none) :
    Violation pieces failure (.unclosedBlock innermost.name innermost.tag.start)

namespace Nesting

/-- A piece that cannot be added makes the pieces wrong, whatever follows it. -/
theorem ofPieces_of_add_error {before after : List Piece} {piece : Piece} {n : Nesting}
    {failure : Option ParseError} {e : ParseError} (hbefore : before.foldlM add start = .ok n)
    (hadd : n.add piece = .error e) :
    ofPieces (before ++ piece :: after) failure = .error e := by
  have hfold : (before ++ piece :: after).foldlM add start = .error e := by
    rw [List.foldlM_append, hbefore]
    show List.foldlM add n (piece :: after) = _
    rw [List.foldlM_cons, hadd]
    rfl
  rw [ofPieces, hfold]
  rfl

/-- Pieces do not nest because of what is wrong with them first. -/
theorem ofPieces_eq_error_iff {pieces : List Piece} {failure : Option ParseError}
    {e : ParseError} : ofPieces pieces failure = .error e ↔ Violation pieces failure e := by
  constructor
  · intro h
    cases hfold : pieces.foldlM add start with
    | error e' =>
      -- The first piece that cannot be added is at fault, a close tag by `add_eq_error_iff`.
      obtain ⟨before, piece, after, n, rfl, hbefore, hadd⟩ := exists_of_foldlM_eq_error hfold
      rw [ofPieces_of_add_error hbefore hadd] at h
      obtain rfl := Except.error.inj h
      have hopen := leavesOpen_of_start hbefore
      obtain ⟨name, tag, hleave, hcases⟩ := add_eq_error_iff.1 hadd
      rcases hcases with ⟨hnone, rfl⟩ | ⟨innermost, open_, hsome, hname, rfl⟩
      · exact .unopened rfl (hnone ▸ hopen) hleave
      · exact .mismatched rfl (hsome ▸ hopen) hleave hname
    | ok n =>
      -- All pieces can be added, so the fault is the failure, or else a block that is left open.
      have hopen := leavesOpen_of_start hfold
      rw [ofPieces, hfold] at h
      cases failure with
      | some e' =>
        obtain rfl : e' = e := Except.error.inj h
        exact .unreadable hopen rfl
      | none =>
        obtain ⟨tokens, stack⟩ := n
        cases stack with
        | nil => simp [bind, Except.bind, finish] at h
        | cons top stack =>
          obtain rfl := Except.error.inj h
          exact .unclosed hopen rfl
  · intro h
    -- `LeavesOpen` gives back the stack that the pieces in front lead to.
    cases h with
    | unopened hsplit haround hleave =>
      obtain ⟨n, hbefore, hopen⟩ := exists_foldlM_of_leavesOpen haround
      rw [hsplit]
      exact ofPieces_of_add_error hbefore
        (add_eq_error_iff.2 ⟨_, _, hleave, .inl ⟨hopen, rfl⟩⟩)
    | mismatched hsplit haround hleave hname =>
      obtain ⟨n, hbefore, hopen⟩ := exists_foldlM_of_leavesOpen haround
      rw [hsplit]
      exact ofPieces_of_add_error hbefore
        (add_eq_error_iff.2 ⟨_, _, hleave, .inr ⟨_, _, hopen, hname, rfl⟩⟩)
    | unreadable haround hfailed =>
      obtain ⟨n, hfold, _⟩ := exists_foldlM_of_leavesOpen haround
      rw [ofPieces, hfold, hfailed]
      rfl
    | unclosed haround hwhole =>
      obtain ⟨⟨tokens, stack⟩, hfold, hopen⟩ := exists_foldlM_of_leavesOpen haround
      rw [ofPieces, hfold, hwhole]
      -- The stack is not empty, and its top is the innermost block.
      cases stack with
      | nil => simp [openTags] at hopen
      | cons top stack =>
        obtain ⟨rfl, _⟩ := List.cons.inj hopen
        rfl

end Nesting

/-- A template with a delimiter that can be seen has a stream. A parse succeeds exactly when no tag
of the stream fails to be read and its brackets match, and gives the tokens that the pieces nest
into. It fails with what is wrong first, and with nothing else. -/
theorem exists_stream (additions : List Addition) (source : String) {d : Delimiters}
    (hd : d.opening ≠ "" ∨ d.closing ≠ "") :
    ∃ pieces failure, (Pipeline.withHelpers additions).Streams source.toList
        ⟨.atStart source.toList, d⟩ pieces failure ∧
      ((∃ tokens, (Pipeline.withHelpers additions).parse source d = .ok tokens) ↔
        failure = none ∧ Balanced (brackets pieces)) ∧
      (∀ tokens, (Pipeline.withHelpers additions).parse source d = .ok tokens ↔
        failure = none ∧ Nests pieces tokens) ∧
      ∀ e, (Pipeline.withHelpers additions).parse source d = .error e ↔
        Violation pieces failure e := by
  refine ⟨_, _, Pipeline.streams_scan hd, ?_, ?_, ?_⟩
  · rw [← exists_nests_iff_balanced]
    simp only [Pipeline.parse, Nesting.ofPieces_eq_ok_iff, exists_and_left]
  · intro tokens
    exact Nesting.ofPieces_eq_ok_iff
  · intro e
    exact Nesting.ofPieces_eq_error_iff

/-- Two blocks that cross, behind a change from an empty opening delimiter: the first close tag is
at fault, and the block that is open at the end is not told. -/
theorem exists_stream_of_crossed_blocks :
    ((⟨"", ">"⟩ : Delimiters).opening ≠ "" ∨ (⟨"", ">"⟩ : Delimiters).closing ≠ "") ∧
      ∃ pieces failure, (Pipeline.withHelpers []).Streams "=< >=><#a><#b></a></b>".toList
          ⟨.atStart "=< >=><#a><#b></a></b>".toList, ⟨"", ">"⟩⟩ pieces failure ∧
        ¬ (failure = none ∧ Balanced (brackets pieces)) ∧
        Violation pieces failure (.mismatchedClose "a" 14 "b" 10) := by
  have hd : (⟨"", ">"⟩ : Delimiters).opening ≠ "" ∨ (⟨"", ">"⟩ : Delimiters).closing ≠ "" :=
    .inr (by decide)
  have hparse : (Pipeline.withHelpers []).parse "=< >=><#a><#b></a></b>" ⟨"", ">"⟩ =
      .error (.mismatchedClose "a" 14 "b" 10) := by
    rw [Pipeline.parse, Pipeline.scan_of_scanWithin (n := 8) rfl]
    -- The error is the first violation, and so the brackets cannot match.
    rfl
  obtain ⟨pieces, failure, hstreams, hok, _, herror⟩ := exists_stream [] _ hd
  refine ⟨hd, pieces, failure, hstreams, ?_, (herror _).1 hparse⟩
  intro hmatching
  obtain ⟨tokens, htokens⟩ := hok.2 hmatching
  rw [hparse] at htokens
  simp at htokens

end Stencil
