/-!
# `Stencil.Text.Search`: finding one text in another

`after?` takes a given beginning off a text, `cut?` splits a text around the first occurrence
of another one, and `spanUntil` splits off the beginning in which a text does not start and a
predicate on characters fails.

A search compares fingerprints before it compares texts. The fingerprint of a window that moves
along a text is kept up to date character by character, so that the time a search takes does not
depend on how much the text resembles what is sought.

`after?_eq_some` and `cut?_eq_some` say that the parts make up the text again, and `cut?_cons`
that a search takes the first place where the text sought starts.
-/

set_option autoImplicit false

namespace Stencil.Text

/-- The rest of a text that starts with `lead`. -/
def after? : List Char → List Char → Option (List Char)
  | [], cs => some cs
  | _ :: _, [] => none
  | l :: lead, c :: cs => if l = c then after? lead cs else none

/-- The base of the number that stands for a text. -/
def fingerprintBase : UInt64 := 0x100000001B3

/-- A number that stands for a text, whose characters are its digits. Texts with different numbers
are different. -/
def fingerprint (cs : List Char) : UInt64 :=
  cs.foldl (fun h c => h * fingerprintBase + c.val.toUInt64) 0

/-- The text after `needle`, if it starts here. The fingerprints of the two are compared first. -/
def here? (needle : List Char) (sought print : UInt64) (cs : List Char) : Option (List Char) :=
  if print = sought then after? needle cs else none

/-- Looks for `needle`, whose fingerprint is `sought`, from here on. As many characters as it has
make up the window, with the fingerprint `print`; `weight` is what the first of them counts in it.
The second list is the text behind the window. -/
def cutFrom? (needle : List Char) (sought weight print : UInt64) :
    List Char → List Char → Option (List Char × List Char)
  | cs, [] => (here? needle sought print cs).map fun rest => ([], rest)
  | [], _ :: _ => none
  | c :: cs, d :: ahead =>
    match here? needle sought print (c :: cs) with
    | some rest => some ([], rest)
    | none =>
      let print := (print - c.val.toUInt64 * weight) * fingerprintBase + d.val.toUInt64
      (cutFrom? needle sought weight print cs ahead).map fun (before, rest) => (c :: before, rest)

/-- The text before and the text after the first occurrence of `needle`, if there is one. The
empty text occurs at the beginning of every text. -/
def cut? (needle cs : List Char) : Option (List Char × List Char) :=
  cutFrom? needle (fingerprint needle) (fingerprintBase ^ (needle.length - 1))
    (fingerprint (cs.take needle.length)) cs (cs.drop needle.length)

/-- The longest beginning with no character that satisfies `stops` and no position at which
`needle` starts, with the text that follows it. -/
def spanUntil (stops : Char → Bool) (needle : List Char) : List Char → List Char × List Char
  | [] => ([], [])
  | c :: cs =>
    if stops c || (after? needle (c :: cs)).isSome then ([], c :: cs)
    else
      let (inside, rest) := spanUntil stops needle cs
      (c :: inside, rest)

/-- A text starts with a lead exactly if it is the lead and what follows it. -/
theorem after?_eq_some {lead cs rest : List Char} :
    after? lead cs = some rest ↔ cs = lead ++ rest := by
  induction lead generalizing cs with
  | nil => simp [after?]
  | cons l lead ih =>
    cases cs with
    | nil => simp [after?]
    | cons c cs =>
      by_cases h : l = c
      · simp [after?, h, ih]
      · simp [after?, h, Ne.symm h]

/-- A number in front of the digits counts as much as there are digits. -/
theorem foldl_fingerprint (cs : List Char) (h : UInt64) :
    cs.foldl (fun h c => h * fingerprintBase + c.val.toUInt64) h =
      h * fingerprintBase ^ cs.length + fingerprint cs := by
  induction cs generalizing h with
  | nil => simp [fingerprint]
  | cons c cs ih =>
    rw [fingerprint, List.foldl_cons, List.foldl_cons, ih, ih (0 * fingerprintBase + _),
      List.length_cons]
    grind

/-- The first character counts with the power of the base for the characters behind it. -/
theorem fingerprint_cons (c : Char) (cs : List Char) :
    fingerprint (c :: cs) = c.val.toUInt64 * fingerprintBase ^ cs.length + fingerprint cs := by
  rw [fingerprint, List.foldl_cons, foldl_fingerprint]
  grind

/-- A character at the end shifts all others by one power of the base. -/
theorem fingerprint_append_singleton (cs : List Char) (d : Char) :
    fingerprint (cs ++ [d]) = fingerprint cs * fingerprintBase + d.val.toUInt64 := by
  simp [fingerprint]

/-- Where a window is accepted, the needle stands there in full, whatever the fingerprints are. -/
theorem eq_append_of_here? {needle cs rest : List Char} {sought print : UInt64}
    (h : here? needle sought print cs = some rest) : cs = needle ++ rest :=
  after?_eq_some.1 (Option.ite_none_right_eq_some.1 h).2

/-- A fingerprint alone accepts nothing. -/
theorem here?_of_after?_eq_none {needle cs : List Char} {sought print : UInt64}
    (h : after? needle cs = none) : here? needle sought print cs = none := by
  simp [here?, h]

/-- What is found is the needle, with the text before and the text after it. -/
theorem eq_append_of_cutFrom? {needle cs ahead before rest : List Char}
    {sought weight print : UInt64}
    (h : cutFrom? needle sought weight print cs ahead = some (before, rest)) :
    cs = before ++ needle ++ rest := by
  induction ahead generalizing cs before print with
  | nil =>
    simp only [cutFrom?, Option.map_eq_some_iff, Prod.mk.injEq] at h
    obtain ⟨_, hhere, rfl, rfl⟩ := h
    exact eq_append_of_here? hhere
  | cons d ahead ih =>
    cases cs with
    | nil => simp [cutFrom?] at h
    | cons c cs =>
      simp only [cutFrom?] at h
      split at h
      · rename_i hhere
        obtain ⟨rfl, rfl⟩ := Prod.mk.inj (Option.some.inj h)
        exact eq_append_of_here? hhere
      · simp only [Option.map_eq_some_iff, Prod.mk.injEq] at h
        obtain ⟨_, hcut, rfl, rfl⟩ := h
        rw [ih hcut]
        rfl

/-- An occurrence cuts a text into what is before, the needle, and what is after. -/
theorem cut?_eq_some {needle cs before rest : List Char}
    (h : cut? needle cs = some (before, rest)) : cs = before ++ needle ++ rest :=
  eq_append_of_cutFrom? h

/-- The empty text has no other text in it. -/
theorem cut?_nil (needle : List Char) :
    cut? needle [] = if needle.isEmpty then some ([], []) else none := by
  cases needle with
  | nil => simp [cut?, cutFrom?, here?, after?]
  | cons l lead => simp [cut?, cutFrom?, here?, after?]

/-- A search takes the first place where the text sought starts. -/
theorem cut?_cons (needle : List Char) (c : Char) (cs : List Char) :
    cut? needle (c :: cs) =
      match after? needle (c :: cs) with
      | some rest => some ([], rest)
      | none => (cut? needle cs).map fun (before, rest) => (c :: before, rest) := by
  cases h : after? needle (c :: cs) with
  | some rest =>
    have htake : (c :: cs).take needle.length = needle := by
      rw [after?_eq_some.1 h, List.take_left]
    have hhere : here? needle (fingerprint needle)
        (fingerprint ((c :: cs).take needle.length)) (c :: cs) = some rest := by
      rw [htake, here?, if_pos rfl, h]
    rw [cut?]
    cases (c :: cs).drop needle.length <;> simp [cutFrom?, hhere]
  | none =>
    cases needle with
    | nil => simp [after?] at h
    | cons l lead =>
      cases hahead : cs.drop lead.length with
      | nil =>
        -- Too little is left for the text to start further on.
        have hnone : cut? (l :: lead) cs = none := by
          rw [Option.eq_none_iff_forall_ne_some]
          rintro ⟨before, rest⟩ hcut
          have hlength := congrArg List.length (cut?_eq_some hcut)
          have hle := List.drop_eq_nil_iff.1 hahead
          simp only [List.length_append, List.length_cons] at hlength
          omega
        rw [hnone, cut?, List.length_cons, List.drop_succ_cons, hahead, cutFrom?,
          here?_of_after?_eq_none h]
        rfl
      | cons d ahead =>
        -- The window moves on by one character.
        have hlt : lead.length < cs.length := by
          have := congrArg List.length hahead
          simp only [List.length_drop, List.length_cons] at this
          omega
        have hdrop : cs.drop (lead.length + 1) = ahead := by
          rw [← List.tail_drop, hahead, List.tail_cons]
        have htake : cs.take (lead.length + 1) = cs.take lead.length ++ [d] := by
          rw [List.take_add_one, ← List.head?_drop, hahead]
          rfl
        have hsize : (cs.take lead.length).length = lead.length := by
          rw [List.length_take]
          omega
        have hprint : (fingerprint ((c :: cs).take (lead.length + 1)) -
            c.val.toUInt64 * fingerprintBase ^ lead.length) * fingerprintBase + d.val.toUInt64 =
            fingerprint (cs.take (lead.length + 1)) := by
          rw [htake, fingerprint_append_singleton, List.take_succ_cons, fingerprint_cons, hsize]
          grind
        rw [cut?, cut?, List.length_cons, List.drop_succ_cons, hahead, cutFrom?,
          here?_of_after?_eq_none h]
        simp only [Nat.add_sub_cancel, hprint, hdrop]

/-- Both parts together are the text. -/
theorem spanUntil_append (stops : Char → Bool) (needle cs : List Char) :
    (spanUntil stops needle cs).1 ++ (spanUntil stops needle cs).2 = cs := by
  induction cs with
  | nil => simp [spanUntil]
  | cons c cs ih =>
    simp only [spanUntil]
    split
    · simp
    · simpa using ih

end Stencil.Text
