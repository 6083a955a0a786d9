/-!
# `Stencil.Text.Html`: text inside HTML

`escapeHtml` replaces the characters that have a meaning in HTML by their references, so that a
text shows as it is, in content and in quoted attributes.

`not_mem_escapeHtml` says that none of these characters but the ampersand is left.
-/

set_option autoImplicit false

namespace Stencil.Text

/-- A character as it is written in HTML. -/
def escapeHtmlChar (c : Char) : List Char :=
  match c with
  | '&' => "&amp;".toList
  | '<' => "&lt;".toList
  | '>' => "&gt;".toList
  | '"' => "&quot;".toList
  | '\'' => "&#39;".toList
  | c => [c]

/-- A text as it is written in HTML. -/
def escapeHtml (cs : List Char) : List Char :=
  cs.flatMap escapeHtmlChar

/-- No character that HTML gives a meaning to is left, except the `&` of the references. -/
theorem not_mem_escapeHtml {c : Char} (h : c ∈ ['<', '>', '"', '\'']) (cs : List Char) :
    c ∉ escapeHtml cs := by
  intro hmem
  -- The character comes from one of the text, which is either one of the five or itself.
  obtain ⟨d, -, hd⟩ := List.mem_flatMap.1 hmem
  simp only [List.mem_cons, List.not_mem_nil, or_false] at h
  unfold escapeHtmlChar at hd
  split at hd
  case h_6 =>
    simp only [List.mem_singleton] at hd
    subst hd
    rcases h with rfl | rfl | rfl | rfl <;> contradiction
  all_goals rcases h with rfl | rfl | rfl | rfl <;> simp at hd

end Stencil.Text
