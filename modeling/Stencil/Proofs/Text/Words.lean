import Stencil.Text.Blank

/-!
# `Stencil.Proofs.Text.Words`: blanks around words

A word is a text that is not empty and has no blanks. Blanks in front of a text that holds a word
are dropped without a look at what follows the word (`trimStart_append_word`), so that the end of
a tag stops them. `trim_padded` says that a trimmed text comes back when blanks are put around
it, and `isWord_of_mem_words` that a text is cut at its blanks into words.
-/

set_option autoImplicit false

namespace Stencil.Text

/-- A text that is not empty and has no blanks. -/
def IsWord (cs : List Char) : Prop :=
  cs ≠ [] ∧ ∀ c ∈ cs, isBlank c = false

/-- Words can be told by looking at each character. -/
instance (cs : List Char) : Decidable (IsWord cs) :=
  decidable_of_iff (cs ≠ [] ∧ cs.all (!isBlank ·) = true) (by simp [IsWord])

/-- A text of blanks only. -/
def AllBlank (cs : List Char) : Prop :=
  ∀ c ∈ cs, isBlank c = true

/-- Blank texts can be told by looking at each character. -/
instance (cs : List Char) : Decidable (AllBlank cs) :=
  decidable_of_iff (cs.all isBlank = true) List.all_eq_true

/-- The blanks that a text starts with. -/
theorem allBlank_takeWhile (cs : List Char) : AllBlank (cs.takeWhile isBlank) :=
  List.all_eq_true.1 List.all_takeWhile

/-- A word has a first character. -/
theorem IsWord.exists_cons {cs : List Char} (h : IsWord cs) :
    ∃ c rest, cs = c :: rest ∧ isBlank c = false := by
  obtain ⟨c, rest, rfl⟩ := List.exists_cons_of_ne_nil h.1
  exact ⟨c, rest, rfl, h.2 c (by simp)⟩

/-- Blanks in front of a text stop at a word in it. -/
theorem trimStart_append_word {word : List Char} (h : IsWord word) (before rest : List Char) :
    trimStart (before ++ word ++ rest) = trimStart before ++ word ++ rest := by
  obtain ⟨c, cs, rfl, hc⟩ := h.exists_cons
  unfold trimStart
  rw [List.append_assoc, List.append_assoc, List.dropWhile_append]
  split
  · rename_i hnil
    rw [List.isEmpty_iff.1 hnil]
    simp [hc]
  · rfl

/-- The blanks in front of a text are the same with a word and anything else behind it. -/
theorem takeWhile_isBlank_append_word {word : List Char} (h : IsWord word)
    (before rest : List Char) :
    (before ++ word ++ rest).takeWhile isBlank = before.takeWhile isBlank := by
  obtain ⟨c, cs, rfl, hc⟩ := h.exists_cons
  rw [List.append_assoc, List.takeWhile_append]
  split
  · rename_i hall
    have hself : before.takeWhile isBlank = before :=
      (List.takeWhile_prefix isBlank).eq_of_length hall
    rw [hself]
    simp [hc]
  · rfl

/-- Blanks are dropped at the beginning only. -/
theorem trimStart_suffix (cs : List Char) : trimStart cs <:+ cs :=
  List.dropWhile_suffix isBlank

/-- Blanks are dropped at the end only. -/
theorem prefix_trimEnd (cs : List Char) : trimEnd cs <+: cs := by
  have h := List.reverse_prefix.2 (List.dropWhile_suffix (l := cs.reverse) isBlank)
  rwa [List.reverse_reverse] at h

/-- A trimmed text has no blanks to drop on either side. -/
theorem trim_eq_self_iff {cs : List Char} :
    trim cs = cs ↔ trimStart cs = cs ∧ trimEnd cs = cs := by
  constructor
  · intro h
    -- Neither end has lost a character, since the length is the same.
    have hend := (prefix_trimEnd (trimStart cs)).length_le
    have hstart := (trimStart_suffix cs).length_le
    have hlength : (trimEnd (trimStart cs)).length = cs.length := congrArg List.length h
    have hself := (trimStart_suffix cs).eq_of_length (by omega)
    rw [trim, hself] at h
    exact ⟨hself, h⟩
  · rintro ⟨hstart, hend⟩
    rw [trim, hstart, hend]

/-- Blanks in front of a text that has none of its own are dropped. -/
theorem trimStart_padded {pad cs : List Char} (hpad : AllBlank pad) (hcs : trimStart cs = cs) :
    trimStart (pad ++ cs) = cs := by
  unfold trimStart at hcs ⊢
  rw [List.dropWhile_append_of_pos hpad, hcs]

/-- Blanks behind a text that has none of its own are dropped. -/
theorem trimEnd_padded {pad cs : List Char} (hpad : AllBlank pad) (hcs : trimEnd cs = cs) :
    trimEnd (cs ++ pad) = cs := by
  unfold trimEnd at hcs ⊢
  have hreverse : ∀ c ∈ pad.reverse, isBlank c = true := by
    intro c hc
    exact hpad c (List.mem_reverse.1 hc)
  rw [List.reverse_append, List.dropWhile_append_of_pos hreverse, hcs]

/-- A trimmed text that is not empty comes back from between blanks. -/
theorem trim_padded {before cs after : List Char} (hbefore : AllBlank before)
    (hcs : trim cs = cs) (hne : cs ≠ []) (hafter : AllBlank after) :
    trim (before ++ cs ++ after) = cs := by
  obtain ⟨hstart, hend⟩ := trim_eq_self_iff.1 hcs
  -- The text starts with a character that is not blank, so that dropping stops there.
  have hopen : trimStart (cs ++ after) = cs ++ after := by
    obtain ⟨c, rest, rfl⟩ := List.exists_cons_of_ne_nil hne
    have hc : isBlank c = false := by
      have hhead := List.head?_dropWhile_not isBlank (c :: rest)
      unfold trimStart at hstart
      rw [hstart] at hhead
      simpa using hhead
    simp [trimStart, hc]
  rw [trim, List.append_assoc, trimStart_padded hbefore hopen, trimEnd_padded hafter hend]

/-- Every run of characters that a text is cut into is a word. -/
theorem isWord_of_mem_words {cs word : List Char} (h : word ∈ words cs) : IsWord word := by
  induction cs generalizing word with
  | nil => exact absurd h List.not_mem_nil
  | cons c cs ih =>
    have hsingle : isBlank c = false → IsWord [c] := by
      intro hc
      exact ⟨by simp, by simpa using hc⟩
    unfold words at h
    split at h
    · exact ih h
    · rename_i hc
      have hc : isBlank c = false := by simpa using hc
      split at h
      · obtain rfl := List.mem_singleton.1 h
        exact hsingle hc
      · rename_i d ds
        split at h
        · rcases List.mem_cons.1 h with rfl | hmem
          · exact hsingle hc
          · exact ih hmem
        · split at h
          · obtain rfl := List.mem_singleton.1 h
            exact hsingle hc
          · rename_i w ws hwords
            rcases List.mem_cons.1 h with rfl | hmem
            · -- The first word grows by a character that is not blank.
              have hw : IsWord w := ih (by rw [hwords]; simp)
              refine ⟨by simp, ?_⟩
              intro x hx
              rcases List.mem_cons.1 hx with rfl | hx
              · exact hc
              · exact hw.2 x hx
            · exact ih (by rw [hwords]; exact List.mem_cons_of_mem w hmem)

end Stencil.Text
