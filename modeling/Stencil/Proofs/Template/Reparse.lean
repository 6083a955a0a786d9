import Stencil.Proofs.Template.Moved

/-!
# `Stencil.Proofs.Template.Reparse`: the body of a block parsed by itself

A helper may give back the body of its block to be rendered, and the body is parsed once more then.
`exists_parse_body` says that this finds the children of the block again, with all spans counted
from the start of the body. The delimiters to parse it with are those that the block records, which
are those behind the body: the body may change the delimiters as long as it changes them back.

`delimiters_of_hasBlock` says which delimiters these are. A body that changes the delimiters for good
is recorded with those it changes to (`not_delimiters_of_opening`), so that it reads as something
else when it is parsed by itself.
-/

set_option autoImplicit false

namespace Stencil

open Text

/-- The delimiters in effect at a byte offset of a template: those behind the last piece that does
not stop later. -/
def Pipeline.delimitersAt (p : Pipeline) (source : String) (d : Delimiters) (offset : Nat) :
    Delimiters :=
  delimitersAlong d ((p.scan source.toList ⟨.atStart source.toList, d⟩).1.takeWhile
    (·.stop.offset ≤ offset))

/-- The delimiters at a byte offset can be evaluated step by step. -/
theorem Pipeline.delimitersAt_of_scanWithin {p : Pipeline} {source : String} {d d' : Delimiters}
    {offset n : Nat}
    (h : (p.scanWithin source.toList n ⟨.atStart source.toList, d⟩).map (fun pieces =>
      delimitersAlong d (pieces.takeWhile (·.stop.offset ≤ offset))) = some d') :
    p.delimitersAt source d offset = d' := by
  obtain ⟨pieces, hscan, hd⟩ := Option.map_eq_some_iff.1 h
  rw [delimitersAt, Pipeline.scan_of_scanWithin hscan]
  exact hd

/-- The pieces that do not stop behind a place between two pieces are those in front of it. -/
theorem takeWhile_stop_le_mid {p p' : Pipeline} {source : List Char} {d d' : Delimiters}
    {c mid stop : Cursor} {before after : List Piece} (hbefore : Tiled p source d c before mid)
    (hafter : Tiled p' source d' mid after stop) :
    (before ++ after).takeWhile (·.stop.offset ≤ mid.offset) = before := by
  -- All pieces in front stop early enough, and the first one behind does not.
  have hlow : ∀ q ∈ before, decide (q.stop.offset ≤ mid.offset) = true := by
    intro q hq
    exact decide_eq_true (hbefore.bounds.2 q hq).2
  have hhigh : after.takeWhile (·.stop.offset ≤ mid.offset) = [] := by
    cases after with
    | nil => rfl
    | cons q after =>
      obtain ⟨_, _, _, hq, _⟩ := hafter
      rw [List.takeWhile_cons, if_neg]
      simp only [decide_eq_true_eq]
      omega
  rw [List.takeWhile_append_of_pos hlow, hhigh, List.append_nil]

/-- The pieces that do not stop behind another one are those up to it. -/
theorem takeWhile_stop_le {p : Pipeline} {source : List Char} {d : Delimiters} {c stop : Cursor}
    {before after : List Piece} {piece : Piece}
    (h : Tiled p source d c (before ++ piece :: after) stop) :
    (before ++ piece :: after).takeWhile (·.stop.offset ≤ piece.stop.offset) =
      before ++ [piece] := by
  rw [List.append_cons] at h ⊢
  obtain ⟨mid, hbefore, hafter⟩ := tiled_append_iff.1 h
  -- Up to the piece itself it is a piece in front.
  obtain ⟨_, _, hlast⟩ := tiled_append_iff.1 hbefore
  obtain rfl : piece.stop = mid := hlast.2.2.2.2
  exact takeWhile_stop_le_mid hbefore hafter

/-- The delimiters in effect where a piece starts are those that it stands between. -/
theorem Pipeline.delimitersAt_start {p : Pipeline} {source : String} {d : Delimiters}
    {pieces : List Piece} {piece : Piece}
    (h : p.scan source.toList ⟨.atStart source.toList, d⟩ = (pieces, none))
    (hpiece : piece ∈ pieces) : p.delimitersAt source d piece.start = piece.delimiters := by
  obtain ⟨before, after, rfl⟩ := List.append_of_mem hpiece
  obtain ⟨mid, hbefore, hafter⟩ := tiled_append_iff.1 (tiled_of_scan h)
  obtain ⟨hstart, hdelimiters, -⟩ := id hafter
  rw [delimitersAt, h, hstart, takeWhile_stop_le_mid hbefore hafter]
  exact hdelimiters.symm

/-- Pieces that do not change the delimiters leave them as they are. -/
theorem delimitersAlong_of_no_change {d : Delimiters} {pieces : List Piece}
    (h : ∀ piece ∈ pieces, ∀ d', piece.event ≠ .change d') : delimitersAlong d pieces = d := by
  induction pieces generalizing d with
  | nil => rfl
  | cons piece pieces ih =>
    have hafter : piece.event.delimitersAfter d = d := by
      cases hevent : piece.event with
      | change d' => exact absurd hevent (h piece (List.mem_cons_self ..) d')
      | _ => rfl
    rw [delimitersAlong, List.foldl_cons, hafter]
    exact ih fun other hother => h other (List.mem_cons_of_mem _ hother)

/-- A piece of a tiled text takes up text where it starts. -/
theorem Tiled.exists_takes {p : Pipeline} {source : List Char} {d : Delimiters} {c stop : Cursor}
    {pieces : List Piece} {piece : Piece} (h : Tiled p source d c pieces stop)
    (hpiece : piece ∈ pieces) :
    ∃ place : Cursor, piece.Takes p source place ∧ piece.start = place.offset ∧
      c.offset ≤ place.offset := by
  obtain ⟨before, after, rfl⟩ := List.append_of_mem hpiece
  obtain ⟨place, hbefore, hstart, -, htakes, -, -⟩ := tiled_append_iff.1 h
  exact ⟨place, htakes, hstart, hbefore.bounds.1⟩

/-- A block records the delimiters that are in effect where its close tag starts. They are those of
its open tag if no tag of its body changes them. The delimiters to start with may be any here. -/
theorem delimiters_of_hasBlock {additions : List Addition} {source : String} {d : Delimiters}
    {tokens children : List Token} {b : Block}
    (h : (Pipeline.withHelpers additions).parse source d = .ok tokens)
    (hb : HasBlock tokens b children) :
    b.delimiters = (Pipeline.withHelpers additions).delimitersAt source d b.closing.start ∧
    ((∀ piece ∈ ((Pipeline.withHelpers additions).scan source.toList
          ⟨.atStart source.toList, d⟩).1,
        b.content.start ≤ piece.start → piece.stop.offset ≤ b.content.stop →
        ∀ d', piece.event ≠ .change d') →
      b.delimiters =
        (Pipeline.withHelpers additions).delimitersAt source d b.opening.tag.start) := by
  obtain ⟨pieces, hscan, hnests⟩ := Pipeline.parse_eq_ok_iff.1 h
  have htiled := tiled_of_scan hscan
  obtain ⟨before, opens, inner, closes, after, rfl, tags, -⟩ :=
    hnests.exists_of_hasBlock htiled.ne_block hb
  -- The tags are pieces, and record where they stand.
  have hopens : opens ∈ before ++ (opens :: inner ++ closes :: after) := by simp
  have hcloses : closes ∈ before ++ (opens :: inner ++ closes :: after) := by simp
  obtain ⟨place, htakes, hplace, -⟩ := htiled.exists_takes hopens
  have hopening : b.opening.tag = ⟨opens.start, opens.stop.offset⟩ :=
    hplace ▸ htakes.tag_of_enter tags.enter
  obtain ⟨place', htakes', hplace', -⟩ := htiled.exists_takes hcloses
  have hclosing : b.closing = ⟨closes.start, closes.stop.offset⟩ :=
    hplace' ▸ htakes'.tag_of_leave tags.leave
  constructor
  · rw [hclosing, Pipeline.delimitersAt_start hscan hcloses]
    exact tags.delimiters
  · intro hkept
    -- Between the two tags no piece changes the delimiters.
    obtain ⟨mid, -, hstart, hdelimiters, -, -, hrest⟩ := tiled_append_iff.1 htiled
    obtain ⟨shut, hinner, hshut, hlast, -⟩ := tiled_append_iff.1 hrest
    have hinside : ∀ piece ∈ inner, ∀ d', piece.event ≠ .change d' := by
      intro piece hpiece
      obtain ⟨place, -, hpieceStart, hle⟩ := hinner.exists_takes hpiece
      have hstop := (hinner.bounds.2 piece hpiece).2
      refine hkept piece ?_ ?_ ?_
      · rw [hscan]
        simp [hpiece]
      · rw [Block.content, hopening]
        show opens.stop.offset ≤ piece.start
        omega
      · rw [Block.content, hclosing]
        show piece.stop.offset ≤ closes.start
        omega
    -- Nor does the open tag itself.
    have henter : opens.event.delimitersAfter opens.delimiters = opens.delimiters := by
      rw [tags.enter]
      rfl
    rw [hopening, Pipeline.delimitersAt_start hscan hopens, tags.delimiters, hlast,
      delimitersAlong_of_no_change hinside, ← hdelimiters, henter]

/-- A block behind a change of delimiters, without one in its body. -/
theorem delimiters_of_hasBlock_behind_change :
    (⟨"[", "]"⟩ : Delimiters) =
        Pipeline.stock.delimitersAt "<=[ ]=>[#a]x[/a]" ⟨"<", ">"⟩ 12 ∧
      (⟨"[", "]"⟩ : Delimiters) =
        Pipeline.stock.delimitersAt "<=[ ]=>[#a]x[/a]" ⟨"<", ">"⟩ 7 := by
  have hscan : Pipeline.stock.scan "<=[ ]=>[#a]x[/a]".toList
      ⟨.atStart "<=[ ]=>[#a]x[/a]".toList, ⟨"<", ">"⟩⟩ =
        ([⟨.change ⟨"[", "]"⟩, 0, ⟨7, "[#a]x[/a]".toList⟩, ⟨"<", ">"⟩⟩,
          ⟨.enter ⟨.plain, "a", [], ⟨7, 11⟩⟩, 7, ⟨11, "x[/a]".toList⟩, ⟨"[", "]"⟩⟩,
          ⟨.token (.text "x"), 11, ⟨12, "[/a]".toList⟩, ⟨"[", "]"⟩⟩,
          ⟨.leave "a" ⟨12, 16⟩, 12, ⟨16, []⟩, ⟨"[", "]"⟩⟩], none) :=
    Pipeline.scan_of_scanWithin (n := 5) rfl
  have hparse : (Pipeline.withHelpers []).parse "<=[ ]=>[#a]x[/a]" ⟨"<", ">"⟩ =
      .ok [.block ⟨⟨.plain, "a", [], ⟨7, 11⟩⟩, ⟨12, 16⟩, "x", ⟨"[", "]"⟩⟩ [.text "x"]] :=
    Pipeline.parse_of_parseWithin (n := 5) rfl
  -- It is the only block, and stands at the top.
  obtain ⟨hclosing, hopening⟩ := delimiters_of_hasBlock hparse (.here (List.mem_cons_self ..))
  refine ⟨hclosing, hopening ?_⟩
  intro piece hpiece
  have hpiece' : piece ∈ (Pipeline.stock.scan "<=[ ]=>[#a]x[/a]".toList
      ⟨.atStart "<=[ ]=>[#a]x[/a]".toList, ⟨"<", ">"⟩⟩).1 := hpiece
  rw [hscan] at hpiece'
  simp only [List.mem_cons, List.not_mem_nil, or_false] at hpiece'
  rcases hpiece' with rfl | rfl | rfl | rfl
  · intro hstart
    exact absurd hstart (by decide)
  all_goals simp

/-- The delimiters that a block records need not be those in effect where its open tag is. -/
theorem not_delimiters_of_opening :
    ¬ ∀ (additions : List Addition) (source : String) (d : Delimiters) (tokens children : List Token)
        (b : Block), (Pipeline.withHelpers additions).parse source d = .ok tokens →
      HasBlock tokens b children →
      b.delimiters =
        (Pipeline.withHelpers additions).delimitersAt source d b.opening.tag.start := by
  intro hclaim
  have hparse : (Pipeline.withHelpers []).parse
      "\x7b\x7b#a\x7d\x7d\x7b\x7b=<% %>=\x7d\x7d<%/a%>" .standard =
        .ok [.block ⟨⟨.plain, "a", [], ⟨0, 6⟩⟩, ⟨17, 23⟩, "\x7b\x7b=<% %>=\x7d\x7d",
          ⟨"<%", "%>"⟩⟩ []] :=
    Pipeline.parse_of_parseWithin (n := 5) rfl
  have hat : (Pipeline.withHelpers []).delimitersAt
      "\x7b\x7b#a\x7d\x7d\x7b\x7b=<% %>=\x7d\x7d<%/a%>" .standard 0 = .standard :=
    Pipeline.delimitersAt_of_scanWithin (n := 5) rfl
  have hsame := hclaim _ _ _ _ _ _ hparse (.here (List.mem_cons_self ..))
  -- The block records the new delimiters, and in front of it the old ones hold.
  rw [hat] at hsame
  exact absurd hsame (by decide)

/-- The body of a block, parsed with the delimiters of the block, gives the children of the block
with all spans counted from the start of the body, if the same delimiters are in effect in front of
the body and behind it. -/
theorem exists_parse_body {additions : List Addition} {source : String} {d : Delimiters}
    {tokens children : List Token} {b : Block} (hd : d.Proper)
    (h : (Pipeline.withHelpers additions).parse source d = .ok tokens)
    (hb : HasBlock tokens b children)
    (hsame : (Pipeline.withHelpers additions).delimitersAt source d b.opening.tag.stop =
      b.delimiters) :
    ∃ inner, (Pipeline.withHelpers additions).parse b.body b.delimiters = .ok inner ∧
      children = Token.raiseAll b.content.start inner := by
  obtain ⟨pieces, hscan, hnests⟩ := Pipeline.parse_eq_ok_iff.1 h
  have htiled := tiled_of_scan hscan
  obtain ⟨before, opens, inner, closes, after, rfl, tags, hinner⟩ :=
    hnests.exists_of_hasBlock htiled.ne_block hb
  obtain ⟨mid, hbefore, hblock⟩ := tiled_append_iff.1 htiled
  obtain ⟨shut, hbetween, _⟩ := hblock.between tags
  obtain ⟨hrest, hshut⟩ := hbetween.body tags
  have hstart : b.content.start = opens.stop.offset := by
    rw [Block.content, hbetween.opening]
  -- The delimiters in front of the body are those of the block.
  have hdelimiters : delimitersAlong d before = b.delimiters := by
    rw [← hsame, Pipeline.delimitersAt, hscan, hbetween.opening, List.cons_append]
    rw [List.cons_append] at htiled
    rw [takeWhile_stop_le htiled, delimitersAlong, delimitersAlong, List.foldl_append]
    show _ = opens.event.delimitersAfter _
    rw [tags.enter]
    rfl
  have hproper : b.delimiters.Proper := by
    rw [← hdelimiters]
    exact htiled.proper_along hd (List.prefix_append _ _)
  -- The pieces of the body, seen from the template.
  have hfirst : opens.stop =
      (Cursor.atStart b.body.toList).embed opens.stop.offset shut.rest := by
    rw [Cursor.embed, Cursor.atStart, Nat.zero_add, ← hrest]
  have hlast : shut = Cursor.embed opens.stop.offset shut.rest ⟨byteSize b.body.toList, []⟩ := by
    rw [Cursor.embed, List.nil_append, Nat.add_comm, ← hshut]
  have hinside := hbetween.inside
  rw [hdelimiters] at hinside
  rw [hfirst, hlast] at hinside
  obtain ⟨pieces', hpieces, htiled'⟩ := Tiled.lower hproper rfl hinside
  obtain ⟨inner', hchildren, hnests'⟩ := hinner.lower hpieces.symm htiled'
  -- They are what a scan of the body by itself finds.
  have hscan' : (Pipeline.withHelpers additions).scan b.body.toList
      ⟨.atStart b.body.toList, b.delimiters⟩ = (pieces', none) :=
    scan_of_tiled htiled' rfl fun taken htaken => (htiled'.proper_along hproper htaken).opening.1
  refine ⟨inner', Pipeline.parse_eq_ok_iff.2 ⟨pieces', hscan', hnests'⟩, ?_⟩
  rw [hstart]
  exact hchildren

/-- A body that changes the delimiters and changes them back. -/
theorem exists_parse_body_of_changes :
    (Pipeline.withHelpers [.sections .always]).delimitersAt
        "a<#always><=[ ]=>[#x]b[/x][=< >=]</always>" ⟨"<", ">"⟩ 10 = ⟨"<", ">"⟩ ∧
      ∃ inner, (Pipeline.withHelpers [.sections .always]).parse
        "<=[ ]=>[#x]b[/x][=< >=]" ⟨"<", ">"⟩ = .ok inner ∧
      [.block ⟨⟨.plain, "x", [], ⟨17, 21⟩⟩, ⟨22, 26⟩, "b", ⟨"[", "]"⟩⟩ [.text "b"]] =
        Token.raiseAll 10 inner := by
  have hproper : (⟨"<", ">"⟩ : Delimiters).Proper := ⟨by decide, by decide⟩
  have hsame : (Pipeline.withHelpers [.sections .always]).delimitersAt
      "a<#always><=[ ]=>[#x]b[/x][=< >=]</always>" ⟨"<", ">"⟩ 10 = ⟨"<", ">"⟩ :=
    Pipeline.delimitersAt_of_scanWithin (n := 8) rfl
  have hparse : (Pipeline.withHelpers [.sections .always]).parse
      "a<#always><=[ ]=>[#x]b[/x][=< >=]</always>" ⟨"<", ">"⟩ = .ok [.text "a",
        .block ⟨⟨.helper, "always", [], ⟨1, 10⟩⟩, ⟨33, 42⟩, "<=[ ]=>[#x]b[/x][=< >=]",
          ⟨"<", ">"⟩⟩
        [.block ⟨⟨.plain, "x", [], ⟨17, 21⟩⟩, ⟨22, 26⟩, "b", ⟨"[", "]"⟩⟩ [.text "b"]]] :=
    Pipeline.parse_of_parseWithin (n := 8) rfl
  have hblock : HasBlock
      [.text "a", .block ⟨⟨.helper, "always", [], ⟨1, 10⟩⟩, ⟨33, 42⟩, "<=[ ]=>[#x]b[/x][=< >=]",
          ⟨"<", ">"⟩⟩
        [.block ⟨⟨.plain, "x", [], ⟨17, 21⟩⟩, ⟨22, 26⟩, "b", ⟨"[", "]"⟩⟩ [.text "b"]]]
      ⟨⟨.helper, "always", [], ⟨1, 10⟩⟩, ⟨33, 42⟩, "<=[ ]=>[#x]b[/x][=< >=]", ⟨"<", ">"⟩⟩
      [.block ⟨⟨.plain, "x", [], ⟨17, 21⟩⟩, ⟨22, 26⟩, "b", ⟨"[", "]"⟩⟩ [.text "b"]] :=
    .here (by simp)
  have hinner := exists_parse_body hproper hparse hblock hsame
  exact ⟨hsame, hinner⟩

end Stencil
