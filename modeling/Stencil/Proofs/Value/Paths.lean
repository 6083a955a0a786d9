import Stencil.Scope
import Stencil.Proofs.Text.Words

/-!
# `Stencil.Proofs.Value.Paths`: a path is followed one segment at a time

The first segment of a path is sought in the frames of a scope, all others lead from one value to
the next. So a path that is one segment longer leads one step further, and to nothing if the
shorter one leads to nothing: no other frame is tried (`Scope.lookupTrimmed_append`). Which frame
answers depends on the first segment alone. `Scope.lookup_congr` says that two scopes which agree on
that agree on the whole path.

`Scope.lookup_steps` puts both together. The empty path needs care there. It leads nowhere, but one
empty segment more makes it the path `.`, and that is the innermost frame; `Scope.lookup_self_ne` is
the example.
-/

set_option autoImplicit false

namespace Stencil

open Text

/-! ### Segments -/

/-- What a path has before its first dot. -/
def firstSegment (path : List Char) : List Char :=
  path.takeWhile (· ≠ '.')

/-- A dot at the beginning stands behind an empty segment. -/
theorem segments_dot (cs : List Char) : segments ('.' :: cs) = [] :: segments cs := by
  rw [segments]

/-- The first of the segments is what stands before the first dot. -/
theorem exists_segments (cs : List Char) : ∃ rest, segments cs = firstSegment cs :: rest := by
  induction cs with
  | nil => exact ⟨[], rfl⟩
  | cons c cs ih =>
    by_cases hc : c = '.'
    · subst hc
      -- The character is the first one of the first segment.
      exact ⟨segments cs, segments_dot cs⟩
    · obtain ⟨rest, hrest⟩ := ih
      have hfirst : firstSegment (c :: cs) = c :: firstSegment cs := by
        simp [firstSegment, hc]
      refine ⟨rest, ?_⟩
      rw [segments, hrest, hfirst]
      exact hc

/-- A dot between two texts keeps their segments apart. -/
theorem segments_append (path more : List Char) :
    segments (path ++ '.' :: more) = segments path ++ segments more := by
  induction path with
  | nil => exact segments_dot more
  | cons c path ih =>
    by_cases hc : c = '.'
    · subst hc
      rw [List.cons_append, segments_dot, segments_dot, ih, List.cons_append]
    · obtain ⟨rest, hrest⟩ := exists_segments path
      rw [hrest] at ih
      rw [List.cons_append, segments, segments, ih, hrest]
      · rfl
      · exact hc
      · exact hc

/-- A text without a dot is one segment. -/
theorem segments_of_not_mem {cs : List Char} (h : '.' ∉ cs) : segments cs = [cs] := by
  induction cs with
  | nil => rfl
  | cons c cs ih =>
    have hc : c ≠ '.' := fun heq => h (heq ▸ List.mem_cons_self ..)
    have hcs : '.' ∉ cs := fun hmem => h (List.mem_cons_of_mem c hmem)
    rw [segments, ih hcs]
    -- The rest is one segment, and the character is put in front of it.
    exact hc

/-! ### Blanks at the ends -/

/-- A text that is not empty and has no leading blanks starts with a character that is not blank. -/
theorem not_isBlank_of_trimStart {c : Char} {cs : List Char} (h : trimStart (c :: cs) = c :: cs) :
    isBlank c = false := by
  have hhead := List.head?_dropWhile_not isBlank (c :: cs)
  rw [show (c :: cs).dropWhile isBlank = c :: cs from h] at hhead
  simpa using hhead

/-- A text keeps its end if what is put behind it has no blanks to drop there. -/
theorem trimEnd_append_of_ne_nil {cs : List Char} (hcs : trimEnd cs = cs) (hne : cs ≠ [])
    (lead : List Char) : trimEnd (lead ++ cs) = lead ++ cs := by
  obtain ⟨c, rest, hreverse⟩ : ∃ c rest, cs.reverse = c :: rest :=
    List.exists_cons_of_ne_nil (by simpa using hne)
  -- Seen from its end the text has no leading blanks.
  have hc : isBlank c = false := by
    have hdrop : trimStart cs.reverse = cs.reverse := by
      have h := congrArg List.reverse hcs
      rwa [trimEnd, List.reverse_reverse] at h
    rw [hreverse] at hdrop
    exact not_isBlank_of_trimStart hdrop
  have hback : c :: (rest ++ lead.reverse) = (lead ++ cs).reverse := by
    rw [List.reverse_append, hreverse, List.cons_append]
  rw [trimEnd, ← hback, List.dropWhile_cons_of_neg (by simp [hc]), hback, List.reverse_reverse]

/-- A trimmed path with another segment behind it has no blanks around it. -/
theorem trim_append_segment {path segment : List Char} (hpath : trim path = path)
    (hsegment : trimEnd segment = segment) :
    trim (path ++ '.' :: segment) = path ++ '.' :: segment := by
  have hdotted : trimEnd ('.' :: segment) = '.' :: segment := by
    cases segment with
    | nil => decide
    | cons c cs => exact trimEnd_append_of_ne_nil hsegment (by simp) ['.']
  refine trim_eq_self_iff.2 ⟨?_, trimEnd_append_of_ne_nil hdotted (by simp) path⟩
  cases path with
  | nil => exact List.dropWhile_cons_of_neg (by decide)
  | cons c cs =>
    have hc : isBlank c = false := not_isBlank_of_trimStart (trim_eq_self_iff.1 hpath).1
    exact List.dropWhile_cons_of_neg (by simp [hc])

/-! ### Frames -/

namespace Scope

/-- A frame that does not have a name is passed by. -/
theorem find?_push_of_eq_none {v : Value} {name : List Char}
    (h : v.get? (String.ofList name) = none) (s : Scope) : (s.push v).find? name = s.find? name := by
  show List.findSome? _ (v :: s.frames) = _
  rw [List.findSome?_cons, h]
  rfl

/-- A frame that has a name hides those around it. -/
theorem find?_push_of_eq_some {v found : Value} {name : List Char}
    (h : v.get? (String.ofList name) = some found) (s : Scope) :
    (s.push v).find? name = some found := by
  show List.findSome? _ (v :: s.frames) = _
  rw [List.findSome?_cons, h]

/-- Scopes with the same innermost frame, or a path that does not ask for that, and with the same
value for the first segment of the path. -/
theorem lookup_congr {s s' : Scope} {path : String}
    (hself : trim path.toList = ['.'] → s.frame = s'.frame)
    (hfind : firstSegment (trim path.toList) ≠ [] →
      s.find? (firstSegment (trim path.toList)) = s'.find? (firstSegment (trim path.toList))) :
    s.lookup path = s'.lookup path := by
  rw [lookup, lookup, lookupTrimmed, lookupTrimmed]
  by_cases hdot : trim path.toList = ['.']
  · rw [if_pos hdot, if_pos hdot, hself hdot]
  · rw [if_neg hdot, if_neg hdot]
    obtain ⟨rest, hrest⟩ := exists_segments (trim path.toList)
    by_cases hempty : firstSegment (trim path.toList) = []
    · simp [hrest, hempty]
    · simp only [hrest, hempty, if_false, hfind hempty]

/-- One segment more leads one step further from where the path leads. -/
theorem lookupTrimmed_append (s : Scope) {path segment : List Char}
    (hfirst : firstSegment path ≠ []) (hsegment : '.' ∉ segment) :
    s.lookupTrimmed (path ++ '.' :: segment) = (s.lookupTrimmed path).child segment := by
  obtain ⟨rest, hrest⟩ := exists_segments path
  have hlonger : segments (path ++ '.' :: segment) = firstSegment path :: (rest ++ [segment]) := by
    rw [segments_append, hrest, segments_of_not_mem hsegment, List.cons_append]
  -- Neither path is the one for the innermost frame, which starts with a dot.
  have hself : ∀ more, path ++ more ≠ ['.'] := by
    intro more heq
    cases path with
    | nil => exact hfirst rfl
    | cons c cs =>
      obtain rfl : c = '.' := (List.cons.inj heq).1
      exact hfirst rfl
  have hpath : path ≠ ['.'] := by simpa using hself []
  simp only [lookupTrimmed, hself, hpath, hlonger, hrest, hfirst, if_false]
  cases s.find? (firstSegment path) with
  | none => rfl
  | some v =>
    show (rest ++ [segment]).foldl Value.child v = (rest.foldl Value.child v).child segment
    rw [List.foldl_append]
    rfl

/-- A path that starts with a dot and goes on leads nowhere. -/
theorem lookupTrimmed_dot (s : Scope) {cs : List Char} (h : cs ≠ []) :
    s.lookupTrimmed ('.' :: cs) = .null := by
  simp [lookupTrimmed, segments_dot, h]

/-- A path that does not start with a dot is followed one segment at a time: with another segment
behind it, it leads to the child of where it leads, be that null. Only the path `.` is not made up
this way. A frame that does not have the first segment changes nothing, and one that has it answers
alone. -/
theorem lookup_steps (s : Scope) (path : String) (htrim : trim path.toList = path.toList)
    (hdot : path.toList.head? ≠ some '.') :
    (∀ segment : String, '.' ∉ segment.toList → trimEnd segment.toList = segment.toList →
      path ≠ "" ∨ segment ≠ "" →
      s.lookup (path ++ "." ++ segment) = (s.lookup path).child segment.toList) ∧
    ∀ v : Value,
      (v.get? (String.ofList (firstSegment path.toList)) = none →
        (s.push v).lookup path = s.lookup path) ∧
      (v.get? (String.ofList (firstSegment path.toList)) ≠ none →
        (s.push v).lookup path = (root v).lookup path) := by
  have hself : trim path.toList ≠ ['.'] := by
    intro heq
    rw [← htrim, heq] at hdot
    exact hdot rfl
  refine ⟨?_, ?_⟩
  · intro segment hsegment hend hne
    have hlist : (path ++ "." ++ segment).toList = path.toList ++ '.' :: segment.toList := by
      simp
    rw [lookup, lookup, hlist, htrim, trim_append_segment htrim hend]
    cases hpath : path.toList with
    | nil =>
      -- Nothing stands before the dot, and both sides are null.
      have hsegmentNe : segment.toList ≠ [] := by
        have hempty : path = "" := by simpa using hpath
        simpa [hempty] using hne
      rw [List.nil_append, lookupTrimmed_dot s hsegmentNe]
      rfl
    | cons c cs =>
      have hc : c ≠ '.' := by simpa [hpath] using hdot
      exact lookupTrimmed_append s (by simp [firstSegment, hc]) hsegment
  · intro v
    refine ⟨fun hnone => ?_, fun hsome => ?_⟩
    · refine lookup_congr (fun heq => absurd heq hself) fun _ => ?_
      rw [htrim]
      exact find?_push_of_eq_none hnone s
    · obtain ⟨found, hfound⟩ := Option.ne_none_iff_exists'.1 hsome
      refine lookup_congr (fun heq => absurd heq hself) fun _ => ?_
      rw [htrim, find?_push_of_eq_some hfound]
      exact (find?_push_of_eq_some hfound ⟨.null, []⟩).symm

/-- A map inside another one. The path goes on in a list that only the outer map has, but the inner
one has the first segment and answers alone. -/
theorem lookup_steps_of_nested_maps :
    let outer : Value := .map [("king", .map [("wives", .list [.str "Anne", .str "Jane"])])]
    let inner : Value := .map [("king", .map [("name", .str "Henry")])]
    (((root outer).push (.bool true)).lookup "king.wives").child "1".toList = .str "Jane" ∧
      ((root outer).push (.bool true)).lookup ("king.wives" ++ "." ++ "1") = .str "Jane" ∧
      ((root outer).push inner).lookup "king.wives" = .null := by
  intro outer inner
  have hsteps := lookup_steps ((root outer).push (.bool true)) "king.wives" (by decide) (by decide)
  have hframes := (lookup_steps (root outer) "king.wives" (by decide) (by decide)).2
  have hchild : (((root outer).push (.bool true)).lookup "king.wives").child "1".toList =
      .str "Jane" := by
    -- The frame has no name, so that the path is followed from the outer map.
    rw [(hframes (.bool true)).1 rfl]
    rfl
  refine ⟨hchild, ?_, ?_⟩
  · rw [hsteps.1 "1" (by decide) (by decide) (.inl (by decide))]
    exact hchild
  · rw [(hframes inner).2 (fun hnone => by cases hnone)]
    rfl

/-- The empty path leads nowhere, but with an empty segment behind it, it is the path of the
innermost frame. -/
theorem lookup_self_ne :
    ¬ ∀ (s : Scope) (path segment : String), trim path.toList = path.toList →
      path.toList.head? ≠ some '.' → '.' ∉ segment.toList →
      trimEnd segment.toList = segment.toList →
      s.lookup (path ++ "." ++ segment) = (s.lookup path).child segment.toList := by
  intro hall
  have heq := hall (root (.int 5)) "" "" (by decide) (by decide) (by decide) (by decide)
  -- On the left stands the frame, on the right what null has under the empty key.
  have hself : (root (.int 5)).lookup ("" ++ "." ++ "") = .int 5 := rfl
  have hnull : ((root (.int 5)).lookup "").child "".toList = .null := rfl
  rw [hself, hnull] at heq
  cases heq

end Scope

end Stencil
