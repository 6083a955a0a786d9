import Stencil.Proofs.Additions
import Stencil.Proofs.Text.Occurrence
import Stencil.Proofs.Text.Words

/-!
# `Stencil.Proofs.Template.TagExtent`: what a tag takes up

`Site.Ends inside next` says that a tag ends at `next`, with `inside` between its delimiters.
Whatever the delimiters are, and they may be empty here, a tag of an engine with helpers is read
in one of three ways (`Site.Reads`): as a comment, as a change of delimiters, or as a tag that
shows in the tree of tokens and records the span that it takes up. The first character behind the
opening delimiter tells the three apart.

How a recognizer reads a tag that it takes is said once, by `Recognizer.exists_of_read_ofContent`
and its like. `reads_of_recognize` is the fact about the whole pipeline. Each recognizer adds one
lemma to it, all of them by `Site.ends_of_upTo`: every recognizer moves forward and then looks for
the closing delimiter.
-/

set_option autoImplicit false

namespace Stencil

open Text

/-- The tag at a site ends at `next`, with `inside` between its delimiters. -/
structure Site.Ends (site : Site) (inside : List Char) (next : Cursor) : Prop where
  rest : site.cursor.rest = inside ++ site.closing ++ next.rest
  offset : next.offset = site.cursor.offset + byteSize (inside ++ site.closing)

/-- An event that shows in the tree of tokens and records the span of its tag. The content of a
call lies behind the opening delimiter. -/
inductive Event.ShowsAt (site : Site) (next : Cursor) : Event → Prop where
  | interpolation (path : String) (escaped : Bool) :
    ShowsAt site next (.token (.interpolation ⟨path, escaped, site.spanTo next⟩))
  | call (name : String) (args : List Argument) (content : Span)
    (start : site.cursor.offset ≤ content.start) (order : content.start ≤ content.stop)
    (stop : content.stop ≤ next.offset) :
    ShowsAt site next (.token (.call ⟨name, args, site.spanTo next, content⟩))
  | enter (kind : BlockKind) (name : String) (args : List Argument) :
    ShowsAt site next (.enter ⟨kind, name, args, site.spanTo next⟩)
  | leave (name : String) : ShowsAt site next (.leave name (site.spanTo next))

/-- The ways to read a tag that ends at `next`. -/
inductive Site.Reads (site : Site) (next : Cursor) : Event → Prop where
  | comment (inside : List Char) (mark : site.cursor.rest.head? = some '!')
    (ends : site.Ends inside next) (first : StartsFirst site.closing inside) :
    Reads site next .skip
  | change (inside : List Char) (d : Delimiters)
    (ends : site.Ends ('=' :: inside ++ ['=']) next)
    (first : StartsFirst ('=' :: site.closing) inside)
    (words : Recognizer.newDelimiters? inside = some d) : Reads site next (.change d)
  | shown (inside : List Char) (event : Event) (noComment : site.cursor.rest.head? ≠ some '!')
    (noChange : site.cursor.rest.head? ≠ some '=') (ends : site.Ends inside next)
    (shows_ : event.ShowsAt site next) : Reads site next event

/-- A recognizer that reads tags that show in the tree of tokens, and no others. -/
def Recognizer.Shows (r : Recognizer) : Prop :=
  ∀ {site : Site} {event : Event} {next : Cursor}, r.read site = .ok (some event, next) →
    (∃ inside, site.Ends inside next) ∧ event.ShowsAt site next

/-! ### Searching for the end of a tag -/

/-- A mark of one character is the first character of what follows. -/
theorem Cursor.after?_singleton_eq_some {c d : Cursor} {mark : Char}
    (h : c.after? [mark] = some d) :
    c.rest = mark :: d.rest ∧ d.offset = c.offset + mark.utf8Size := by
  obtain ⟨rest, hrest, rfl⟩ := Option.map_eq_some_iff.1 h
  exact ⟨after?_eq_some.1 hrest, by simp [Cursor.past]⟩

/-- A mark of one character cannot be passed exactly if the text does not start with it. -/
theorem Cursor.after?_singleton_eq_none_iff {c : Cursor} {mark : Char} :
    c.after? [mark] = none ↔ c.rest.head? ≠ some mark := by
  unfold Cursor.after?
  rw [Option.map_eq_none_iff]
  cases h : c.rest with
  | nil => simp [Text.after?]
  | cons d rest =>
    by_cases hd : mark = d
    · simp [Text.after?, hd]
    · simp [Text.after?, hd, Ne.symm hd]

/-- The text up to an ending, the ending, and the places around it. -/
theorem Site.eq_of_upTo {site : Site} {cursor found next : Cursor} {ending before : List Char}
    (h : site.upTo cursor ending = .ok (before, found, next)) :
    Text.cut? ending cursor.rest = some (before, next.rest) ∧
      found = cursor.past before (ending ++ next.rest) ∧ next = found.past ending next.rest := by
  unfold Site.upTo at h
  split at h
  · rename_i result hcut
    obtain ⟨⟨before', rest⟩, hcut', heq⟩ := Option.map_eq_some_iff.1 hcut
    simp only [Except.ok.injEq] at h
    rw [h] at heq
    simp only [Prod.mk.injEq] at heq
    obtain ⟨rfl, rfl, rfl⟩ := heq
    exact ⟨hcut', rfl, rfl⟩
  · simp at h

/-- A tag ends where a search for the closing delimiter ends, perhaps with more characters in
front of that. -/
theorem Site.ends_of_upTo {site : Site} {cursor found next : Cursor}
    {taken lead before : List Char} (hrest : site.cursor.rest = taken ++ cursor.rest)
    (hoffset : cursor.offset = site.cursor.offset + byteSize taken)
    (h : site.upTo cursor (lead ++ site.closing) = .ok (before, found, next)) :
    site.Ends (taken ++ before ++ lead) next := by
  obtain ⟨hcut, rfl, hnext⟩ := Site.eq_of_upTo h
  have hcursor := cut?_eq_some hcut
  constructor
  · rw [hrest, hcursor]
    simp only [List.append_assoc]
  · rw [hnext]
    simp only [Cursor.past, hoffset, byteSize_append, Nat.add_assoc]

/-- A tag ends where a search for the closing delimiter from a later place ends. -/
theorem Site.exists_ends_of_upTo {site : Site} {cursor found next : Cursor} {before : List Char}
    (hreaches : site.cursor.Reaches cursor)
    (h : site.upTo cursor site.closing = .ok (before, found, next)) :
    ∃ inside, site.Ends inside next := by
  obtain ⟨taken, hrest, hoffset⟩ := hreaches
  exact ⟨taken ++ before ++ [], Site.ends_of_upTo hrest hoffset h⟩

/-! ### How each recognizer reads a tag -/

/-- A text that is more than blanks has a first character. -/
theorem ne_nil_of_trim {cs : List Char} (h : ¬ (trim cs).isEmpty = true) : cs ≠ [] := by
  rintro rfl
  exact h rfl

/-- How a change of delimiters is read. -/
theorem Recognizer.exists_of_read_delimiters {site : Site} {event : Event} {next : Cursor}
    (h : Recognizer.delimiters.read site = .ok (some event, next)) :
    ∃ start inside found d, site.cursor.after? ['='] = some start ∧
      site.upTo start ('=' :: site.closing) = .ok (inside, found, next) ∧
      newDelimiters? inside = some d ∧ event = .change d := by
  simp only [Recognizer.delimiters] at h
  split at h
  · simp at h
  · rename_i start hstart
    obtain ⟨⟨inside, found, next'⟩, hfound, h⟩ := exists_ok_of_bind h
    simp only at h
    split at h
    · simp at h
    · rename_i d hd
      simp only [Except.ok.injEq, Prod.mk.injEq, Option.some.injEq] at h
      obtain ⟨rfl, rfl⟩ := h
      exact ⟨start, inside, found, d, hstart, hfound, hd, rfl⟩

/-- How a tag with a content is read. -/
theorem Recognizer.exists_of_read_ofContent {name : String} {mark : List Char}
    {event : String → Span → Event} {site : Site} {e : Event} {next : Cursor}
    (h : (Recognizer.ofContent name mark event).read site = .ok (some e, next)) :
    ∃ start inside found, site.cursor.after? mark = some start ∧
      site.upTo start site.closing = .ok (inside, found, next) ∧ inside ≠ [] ∧
      e = event (String.ofList (trim inside)) (site.spanTo next) := by
  obtain ⟨content?, hcontent, h⟩ := exists_ok_of_bind h
  split at h
  · simp at h
  · simp only [Except.ok.injEq, Prod.mk.injEq, Option.some.injEq] at h
    obtain ⟨rfl, rfl⟩ := h
    unfold Site.content at hcontent
    split at hcontent
    · simp at hcontent
    · rename_i start hstart
      obtain ⟨⟨inside, found, next'⟩, hfound, hcontent⟩ := exists_ok_of_bind hcontent
      simp only at hcontent
      split at hcontent
      · simp at hcontent
      · rename_i hblank
        simp only [Except.ok.injEq, Option.some.injEq, Prod.mk.injEq] at hcontent
        obtain ⟨rfl, rfl⟩ := hcontent
        exact ⟨start, inside, found, hstart, hfound, ne_nil_of_trim hblank, rfl⟩

/-- How an interpolation that is not escaped is read. -/
theorem Recognizer.exists_of_read_unescaped {site : Site} {e : Event} {next : Cursor}
    (h : Recognizer.unescaped.read site = .ok (some e, next)) :
    ∃ start ending inside found, openUnescaped? site = some (start, ending) ∧
      site.upTo start ending = .ok (inside, found, next) ∧ inside ≠ [] ∧
      e = .token (.interpolation ⟨String.ofList (trim inside), false, site.spanTo next⟩) := by
  simp only [Recognizer.unescaped] at h
  split at h
  · simp at h
  · rename_i start ending hopen
    obtain ⟨⟨inside, found, next'⟩, hfound, h⟩ := exists_ok_of_bind h
    simp only at h
    split at h
    · simp at h
    · rename_i hblank
      simp only [Except.ok.injEq, Prod.mk.injEq, Option.some.injEq] at h
      obtain ⟨rfl, rfl⟩ := h
      exact ⟨start, ending, inside, found, hopen, hfound, ne_nil_of_trim hblank, rfl⟩

/-- How a call is read. -/
theorem Recognizer.exists_of_read_helper {registry : Registry} {site : Site} {e : Event}
    {next : Cursor} (h : (Recognizer.helper registry).read site = .ok (some e, next)) :
    ∃ call, site.call registry site.cursor = .ok (some call) ∧ next = call.next ∧
      e = .token (.call ⟨call.name, call.args, call.tag, call.content⟩) := by
  obtain ⟨call?, hcall, h⟩ := exists_ok_of_bind h
  split at h
  · simp at h
  · rename_i call
    simp only [Except.ok.injEq, Prod.mk.injEq, Option.some.injEq] at h
    obtain ⟨rfl, rfl⟩ := h
    exact ⟨call, hcall, rfl, rfl⟩

/-- How the open tag of a block with a helper is read. -/
theorem Recognizer.exists_of_read_helperBlock {name : String} {mark : List Char}
    {kind : BlockKind} {registry : Registry} {site : Site} {e : Event} {next : Cursor}
    (h : (Recognizer.helperBlock name mark kind registry).read site = .ok (some e, next)) :
    ∃ start call, site.cursor.after? mark = some start ∧
      site.call registry start = .ok (some call) ∧ next = call.next ∧
      e = .enter ⟨kind, call.name, call.args, call.tag⟩ := by
  simp only [Recognizer.helperBlock] at h
  split at h
  · simp at h
  · rename_i start hstart
    obtain ⟨call?, hcall, h⟩ := exists_ok_of_bind h
    split at h
    · simp at h
    · rename_i call
      simp only [Except.ok.injEq, Prod.mk.injEq, Option.some.injEq] at h
      obtain ⟨rfl, rfl⟩ := h
      exact ⟨start, call, hstart, hcall, rfl, rfl⟩

/-! ### What each recognizer reads -/

/-- A comment starts with its mark and runs to the closing delimiter. -/
theorem Recognizer.reads_of_comment {site : Site} {event : Event} {next : Cursor}
    (h : Recognizer.comment.read site = .ok (some event, next)) : site.Reads next event := by
  simp only [Recognizer.comment] at h
  split at h
  · simp at h
  · rename_i start hstart
    obtain ⟨⟨inside, found, next'⟩, hfound, h⟩ := exists_ok_of_bind h
    simp only [Except.ok.injEq, Prod.mk.injEq, Option.some.injEq] at h
    obtain ⟨rfl, rfl⟩ := h
    have hmark := (Cursor.after?_singleton_eq_some hstart).1
    have hends : site.Ends ([] ++ inside ++ []) next' := Site.ends_of_upTo rfl (by simp) hfound
    rw [List.nil_append, List.append_nil] at hends
    exact .comment inside (by rw [hmark]; rfl) hends
      (startsFirst_of_cut? (Site.eq_of_upTo hfound).1)

/-- A change of delimiters stands between `=` and `=`. -/
theorem Recognizer.reads_of_delimiters {site : Site} {event : Event} {next : Cursor}
    (h : Recognizer.delimiters.read site = .ok (some event, next)) : site.Reads next event := by
  obtain ⟨start, inside, found, d, hstart, hfound, hd, rfl⟩ := exists_of_read_delimiters h
  have ⟨hrest, hoffset⟩ := Cursor.after?_singleton_eq_some hstart
  have hends : site.Ends (['='] ++ inside ++ ['=']) next :=
    Site.ends_of_upTo hrest (by rw [hoffset]; simp) hfound
  exact .change inside d hends (startsFirst_of_cut? (Site.eq_of_upTo hfound).1) hd

/-- A tag with a mark and a content shows, if its event does. -/
theorem Recognizer.shows_ofContent {name : String} {mark : List Char}
    {event : String → Span → Event}
    (hevent : ∀ content site next, (event content (site.spanTo next)).ShowsAt site next) :
    (Recognizer.ofContent name mark event).Shows := by
  intro site e next h
  obtain ⟨start, inside, found, hstart, hfound, _, rfl⟩ := exists_of_read_ofContent h
  have hends := Site.exists_ends_of_upTo (Cursor.reaches_of_after? hstart) hfound
  exact ⟨hends, hevent _ site next⟩

/-- An interpolation that is not escaped shows. -/
theorem Recognizer.shows_unescaped : Recognizer.unescaped.Shows := by
  intro site e next h
  obtain ⟨start, ending, inside, found, hopen, hfound, _, rfl⟩ := exists_of_read_unescaped h
  refine ⟨?_, .interpolation _ _⟩
  obtain ⟨taken, hrest, hoffset⟩ := Recognizer.reaches_of_openUnescaped? hopen
  -- Only the brace puts a character in front of the closing delimiter.
  unfold Recognizer.openUnescaped? at hopen
  split at hopen
  · simp only [Option.some.injEq, Prod.mk.injEq] at hopen
    obtain ⟨_, rfl⟩ := hopen
    have hends : site.Ends (taken ++ inside ++ ['\x7d']) next :=
      Site.ends_of_upTo hrest hoffset hfound
    exact ⟨_, hends⟩
  · obtain ⟨_, _, heq⟩ := Option.map_eq_some_iff.1 hopen
    simp only [Prod.mk.injEq] at heq
    obtain ⟨_, rfl⟩ := heq
    have hends : site.Ends (taken ++ inside ++ []) next :=
      Site.ends_of_upTo hrest hoffset hfound
    exact ⟨_, hends⟩

/-- A place that is reached does not lie before. -/
theorem Cursor.Reaches.offset_le {c d : Cursor} (h : c.Reaches d) : c.offset ≤ d.offset := by
  obtain ⟨taken, _, hoffset⟩ := h
  omega

/-- A call shows at a site: its content lies behind the opening delimiter and before its end. -/
structure CallTag.ShowsAt (c : CallTag) (site : Site) : Prop where
  ends : ∃ inside, site.Ends inside c.next
  tag : c.tag = site.spanTo c.next
  start : site.cursor.offset ≤ c.content.start
  order : c.content.start ≤ c.content.stop
  stop : c.content.stop ≤ c.next.offset

/-- A call runs to the closing delimiter and records the span of its tag. -/
theorem Site.showsAt_of_call {site : Site} {registry : Registry} {start : Cursor}
    {c : CallTag} (hstart : site.cursor.Reaches start)
    (h : site.call registry start = .ok (some c)) : c.ShowsAt site := by
  unfold Site.call at h
  simp only at h
  split at h
  · simp at h
  · obtain ⟨⟨inside, found, next⟩, hfound, h⟩ := exists_ok_of_bind h
    have hname := hstart.trans (Cursor.reaches_skipBlank start)
    have hargs := (Cursor.reaches_name start.skipBlank site.closing).trans
      (Cursor.reaches_skipBlank _)
    have hends := Site.exists_ends_of_upTo (hname.trans hargs) hfound
    have ⟨_, hclosing⟩ := Site.reaches_of_upTo hfound
    have hstop := (Site.eq_of_upTo hfound).2.1
    simp only at h
    -- A helper without arguments has all text up to the closing delimiter as its content.
    split at h
    · simp only [Except.ok.injEq, Option.some.injEq] at h
      subst h
      have hinside := (Site.reaches_of_upTo hfound).1
      exact ⟨hends, rfl, hname.offset_le, (hargs.trans hinside).offset_le, hclosing.offset_le⟩
    · obtain ⟨args, _, h⟩ := exists_ok_of_bind h
      simp only [Except.ok.injEq, Option.some.injEq] at h
      subst h
      refine ⟨hends, rfl, hname.offset_le, ?_, ?_⟩
      · have := hargs.offset_le
        simp only
        omega
      · -- The arguments end where the tag closes, or at the blanks in front of that.
        obtain ⟨blanks, hblanks⟩ := prefix_trimEnd inside
        have hsize := congrArg byteSize hblanks
        have hfoundOffset := congrArg Cursor.offset hstop
        have := hclosing.offset_le
        simp only [byteSize_append, Cursor.past] at hsize hfoundOffset
        simp only
        omega

/-- A call shows. -/
theorem Recognizer.shows_helper (registry : Registry) : (Recognizer.helper registry).Shows := by
  intro site e next h
  obtain ⟨call, hcall, rfl, rfl⟩ := exists_of_read_helper h
  have hshows := Site.showsAt_of_call (Cursor.Reaches.refl _) hcall
  rw [hshows.tag]
  exact ⟨hshows.ends, .call _ _ _ hshows.start hshows.order hshows.stop⟩

/-- The open tag of a block with a helper shows. -/
theorem Recognizer.shows_helperBlock (name : String) (mark : List Char) (kind : BlockKind)
    (registry : Registry) : (Recognizer.helperBlock name mark kind registry).Shows := by
  intro site e next h
  obtain ⟨start, call, hstart, hcall, rfl, rfl⟩ := exists_of_read_helperBlock h
  have hshows := Site.showsAt_of_call (Cursor.reaches_of_after? hstart) hcall
  rw [hshows.tag]
  exact ⟨hshows.ends, .enter _ _ _⟩

/-! ### The pipeline -/

/-- The recognizers behind the first two read tags that show. -/
theorem recognizersWith_eq (sections inlines : List Registry) :
    ∃ shown, recognizersWith sections inlines = .comment :: .delimiters :: shown ∧
      ∀ r ∈ shown, Recognizer.Shows r := by
  refine ⟨sectionRecognizers sections ++ invertedRecognizers sections ++
    [.sectionEnd, .unescaped] ++ unmarkedRecognizers inlines, rfl, ?_⟩
  intro r hr
  simp only [sectionRecognizers, invertedRecognizers, unmarkedRecognizers, List.mem_append,
    List.mem_map, List.mem_cons, List.not_mem_nil, or_false] at hr
  rcases hr with (((⟨registry, _, rfl⟩ | rfl) | (⟨registry, _, rfl⟩ | rfl)) | rfl | rfl) |
    (⟨registry, _, rfl⟩ | rfl)
  · exact Recognizer.shows_helperBlock _ _ _ registry
  · exact Recognizer.shows_ofContent fun _ _ _ => .enter _ _ _
  · exact Recognizer.shows_helperBlock _ _ _ registry
  · exact Recognizer.shows_ofContent fun _ _ _ => .enter _ _ _
  · exact Recognizer.shows_ofContent fun _ _ _ => .leave _
  · exact Recognizer.shows_unescaped
  · exact Recognizer.shows_helper registry
  · exact Recognizer.shows_ofContent fun _ _ _ => .interpolation _ _

/-- The first recognizer of a list takes a tag, or it declines and another one takes it. -/
theorem recognize_cons_eq_ok {r : Recognizer} {rs : List Recognizer} {site : Site}
    {event : Event} {next : Cursor} :
    recognize (r :: rs) site = .ok (event, next) ↔ r.read site = .ok (some event, next) ∨
      (∃ place, r.read site = .ok (none, place)) ∧ recognize rs site = .ok (event, next) := by
  rw [recognize]
  cases h : r.read site with
  | error e => simp
  | ok result =>
    obtain ⟨event?, place⟩ := result
    cases event? with
    | none => simp
    | some event' => simp

/-- The event of a pipeline is the event of one of its recognizers. -/
theorem exists_read_of_recognize {rs : List Recognizer} {site : Site} {event : Event}
    {next : Cursor} (h : recognize rs site = .ok (event, next)) :
    ∃ r ∈ rs, r.read site = .ok (some event, next) := by
  induction rs with
  | nil => simp [recognize] at h
  | cons r rs ih =>
    rcases recognize_cons_eq_ok.1 h with hread | ⟨_, h⟩
    · exact ⟨r, by simp, hread⟩
    · obtain ⟨r', hmem, hread⟩ := ih h
      exact ⟨r', by simp [hmem], hread⟩

/-- A tag that is declined as a comment does not have the mark of one. -/
theorem Recognizer.head?_of_comment_declined {site : Site} {place : Cursor}
    (h : Recognizer.comment.read site = .ok (none, place)) :
    site.cursor.rest.head? ≠ some '!' := by
  simp only [Recognizer.comment] at h
  split at h
  · rename_i hnone
    exact Cursor.after?_singleton_eq_none_iff.1 hnone
  · obtain ⟨_, _, h⟩ := exists_ok_of_bind h
    simp at h

/-- A tag that is declined as a change of delimiters does not have the mark of one. -/
theorem Recognizer.head?_of_delimiters_declined {site : Site} {place : Cursor}
    (h : Recognizer.delimiters.read site = .ok (none, place)) :
    site.cursor.rest.head? ≠ some '=' := by
  simp only [Recognizer.delimiters] at h
  split at h
  · rename_i hnone
    exact Cursor.after?_singleton_eq_none_iff.1 hnone
  · obtain ⟨_, _, h⟩ := exists_ok_of_bind h
    split at h <;> simp at h

/-- A tag of an engine with helpers is a comment, a change of delimiters, or shows. -/
theorem reads_of_recognize {additions : List Addition} {site : Site} {event : Event}
    {next : Cursor}
    (h : recognize (Pipeline.withHelpers additions).recognizers site = .ok (event, next)) :
    site.Reads next event := by
  obtain ⟨shown, hshown, hshows⟩ := recognizersWith_eq
    (additions.filterMap Addition.sections?) (additions.filterMap Addition.inline?)
  rw [Pipeline.withHelpers, Settings.recognizers_withHelpers, hshown] at h
  -- The first two recognizers of the pipeline are for the tags that do not show.
  rcases recognize_cons_eq_ok.1 h with hread | ⟨⟨_, hcomment⟩, h⟩
  · exact Recognizer.reads_of_comment hread
  rcases recognize_cons_eq_ok.1 h with hread | ⟨⟨_, hchange⟩, h⟩
  · exact Recognizer.reads_of_delimiters hread
  · obtain ⟨r, hmem, hread⟩ := exists_read_of_recognize h
    obtain ⟨⟨inside, hends⟩, hshow⟩ := hshows r hmem hread
    exact .shown inside event (Recognizer.head?_of_comment_declined hcomment)
      (Recognizer.head?_of_delimiters_declined hchange) hends hshow

end Stencil
